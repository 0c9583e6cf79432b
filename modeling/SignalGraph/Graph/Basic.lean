import SignalGraph.Config
import SignalGraph.Network.Wire
import SignalGraph.Object.Store
import SignalGraph.Subscription

/-! # The graph

The synchronized view that one participant has of the objects on the network: the records it holds,
who listens to them, what is still to be told to listeners, actions put off to the end of a poll,
and subscriptions. What an action is, is left open: `α` is whatever the owner of the graph runs.
-/

namespace SignalGraph

/-- What a listener wants to hear of. -/
inductive Interest where
  /-- Transitions of records in these categories. -/
  | records (categories : Categories)
  /-- Events of the instances of one signal, or of all. -/
  | instances (signal : Option ObjectId)
  deriving Repr, DecidableEq

structure Listener where
  number : Nat
  interest : Interest
  deriving Repr, DecidableEq

/-- What listeners are to be told. -/
inductive Notification where
  | record (id : ObjectId) (lifecycle : Lifecycle)
  | pool (signal : ObjectId) (event : PoolEvent)
  deriving Repr, DecidableEq

def Notification.subject : Notification → ObjectId
  | record id _ => id
  | pool signal _ => signal

/-- The view of the network that one participant has. -/
structure Graph (α : Type) where
  wire : Wire
  config : Config
  store : Store
  listeners : List Listener
  nextListener : Nat
  /-- What listeners are still to be told, in order. -/
  notifications : List Notification
  deferred : List α
  /-- At most one subscription for each device. -/
  subscriptions : Directory Subscription
  patterns : List PatternSubscription
  /-- How many polls have begun. -/
  cycle : Nat
  /-- The low half of the last identity made here. -/
  localCounter : UInt32

namespace Graph

variable {α : Type}

/-- A graph that knows of nothing. The settings may subscribe to all devices from the start. -/
def make (wire : Wire) (config : Config) : Graph α where
  wire := wire
  config := config
  store := .empty
  listeners := []
  nextListener := 1
  notifications := []
  deferred := []
  subscriptions := .empty
  patterns :=
    if config.autosubscribe.isEmpty then [] else [⟨"*", config.autosubscribe, .renewing⟩]
  cycle := 0
  localCounter := 0

def now (g : Graph α) : Timetag := g.wire.clock

def notify (g : Graph α) (id : ObjectId) (lifecycle : Lifecycle) : Graph α :=
  { g with notifications := g.notifications ++ [.record id lifecycle] }

def notifyPool (g : Graph α) (signal : ObjectId) (events : List PoolEvent) : Graph α :=
  { g with notifications := g.notifications ++ events.map (.pool signal) }

def modify (g : Graph α) (id : ObjectId) (f : Record → Record) : Graph α :=
  { g with store := g.store.modify id f }

/-- Puts an action off to the end of the poll that runs, or of the next. -/
def defer (g : Graph α) (action : α) : Graph α := { g with deferred := g.deferred ++ [action] }

/-- Adds a listener and returns its number. -/
def listen (g : Graph α) (interest : Interest) : Graph α × Nat :=
  ({ g with
      listeners := g.listeners ++ [⟨g.nextListener, interest⟩]
      nextListener := g.nextListener + 1 },
    g.nextListener)

/-- Removes a listener; tells whether there was one. -/
def unlisten (g : Graph α) (number : Nat) : Graph α × Bool :=
  ({ g with listeners := g.listeners.filter fun l => l.number ≠ number },
    g.listeners.any fun l => l.number = number)

end Graph

end SignalGraph
