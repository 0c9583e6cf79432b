import SignalGraph.Network.Event

/-! # The wire

The network as a value: messages that wait to be received, what was sent, the clock, and how many
of the next calls fail.
-/

namespace SignalGraph

structure Wire where
  clock : Timetag
  /-- Messages that wait, first come first. -/
  inbox : List NetworkEvent
  sent : List (Destination × Delta)
  requests : List SubscriptionRequest
  /-- How many of the next sends and requests are refused. -/
  failingSends : Nat
  /-- How many of the next receptions fail. -/
  failingReceives : Nat
  deriving Repr, DecidableEq

namespace Wire

def quiet (clock : Timetag) : Wire := ⟨clock, [], [], [], 0, 0⟩

inductive Reception where
  | message (event : NetworkEvent)
  | nothing
  | failure
  deriving Repr, DecidableEq

/-- Takes the first message that waits. A reception that fails takes none. -/
def receive (w : Wire) : Reception × Wire :=
  match w.failingReceives, w.inbox with
  | n + 1, _ => (.failure, { w with failingReceives := n })
  | 0, [] => (.nothing, w)
  | 0, event :: rest => (.message event, { w with inbox := rest })

def inject (w : Wire) (events : List NetworkEvent) : Wire := { w with inbox := w.inbox ++ events }

/-- Counts one call that goes out, and refuses it if it is to fail. -/
def takeFailure (w : Wire) : Except Error Unit × Wire :=
  match w.failingSends with
  | 0 => (.ok (), w)
  | n + 1 => (.error (.wire "injected failure"), { w with failingSends := n })

def send (w : Wire) (dest : Destination) (delta : Delta) : Except Error Unit × Wire :=
  match w.takeFailure with
  | (.ok (), w) => (.ok (), { w with sent := w.sent ++ [(dest, delta)] })
  | refused => refused

/-- Sends a request for a subscription; tells whether it was taken. -/
def request (w : Wire) (r : SubscriptionRequest) : Bool × Wire :=
  match w.takeFailure with
  | (.ok (), w) => (true, { w with requests := w.requests ++ [r] })
  | (.error _, w) => (false, w)

def advance (w : Wire) (seconds : Double) : Wire := { w with clock := w.clock.shift seconds }

end Wire

end SignalGraph
