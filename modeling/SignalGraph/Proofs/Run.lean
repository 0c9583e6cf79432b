import SignalGraph.Graph.Edits
import SignalGraph.Graph.Poll

/-! # Runs

What can happen to a graph between its making and now: calls from outside and polls, in any order.
A run carries what it said to listeners on the way. What is proved of all runs holds of every graph
that there can be.
-/

namespace SignalGraph

/-- What can be asked of a graph from outside, polls apart. Properties are handed out for any
    action to work on. -/
inductive Call (α : Type) where
  /-- The network goes on by itself: its clock, messages that come, and calls that are to fail. -/
  | network (clock : Timetag) (arrivals : List NetworkEvent) (failingSends failingReceives : Nat)
  | apply (type : EventType) (delta : Delta)
  | remove (id : ObjectId)
  | newMap (sources : List ObjectId) (destination : ObjectId)
  | edit (id : ObjectId) (action : Attempt Table Unit)
  | editSlot (map : ObjectId) (location : SlotLocation) (action : Attempt Table Unit)
  | push (id : ObjectId)
  | reserve (signal : ObjectId) (n : Nat)
  | reserveIds (signal : ObjectId) (ids : List UInt64)
  | update (signal : ObjectId) (slot : UInt64) (value : Value)
  | release (signal : ObjectId) (slot : UInt64)
  | drop (signal : ObjectId) (slot : UInt64)
  | tag (signal : ObjectId) (slot : UInt64) (tag : Option UInt64)
  | subscribe (target : SubscriptionTarget) (categories : Categories) (lease : Lease)
  | unsubscribe (target : SubscriptionTarget)
  | listen (interest : Interest)
  | unlisten (number : Nat)
  | defer (action : α)

/-- Whether a call has nothing to do with the properties of records. -/
def Call.IsPlain {α : Type} : Call α → Prop
  | .apply _ _ | .newMap _ _ | .edit _ _ | .push _ => False
  | _ => True

/-- What comes to a graph: a message that it takes in, or a call. -/
inductive Input (α : Type) where
  | event (event : NetworkEvent)
  | call (call : Call α)

abbrev Law (α : Type) := Graph α → Input α → Prop

def Law.any (α : Type) : Law α := fun _ _ => True

/-- The objects that got a record, in order. -/
def created (said : List Notification) : List ObjectId :=
  said.filterMap fun
    | .record id .added => some id
    | _ => none

theorem created_append (said more : List Notification) :
    created (said ++ more) = created said ++ created more := List.filterMap_append

theorem created_map_pool (signal : ObjectId) (events : List PoolEvent) :
    created (events.map (.pool signal)) = [] := by
  simp [created]

namespace Graph

variable {α σ : Type}

def call (g : Graph α) : Call α → Graph α
  | .network clock arrivals failingSends failingReceives =>
    let wire := { g.wire.inject arrivals with clock, failingSends, failingReceives }
    { g with wire }
  | .apply type delta => (applyEvent type delta).after g
  | .remove id => (g.remove id .removed).1
  | .newMap sources destination => (newMap sources destination).after g
  | .edit id action => (editProperties id action).after g
  | .editSlot map location action => (editSlot map location action).after g
  | .push id => (push id).after g
  | .reserve signal n => (reserveInstances signal n).after g
  | .reserveIds signal ids => (reserveInstanceIds signal ids).after g
  | .update signal slot value => (updateInstance signal slot value).after g
  | .release signal slot => (releaseInstance signal slot).after g
  | .drop signal slot => (removeInstance signal slot).after g
  | .tag signal slot tag => (tagInstance signal slot tag).after g
  | .subscribe target categories lease => g.subscribe target categories lease
  | .unsubscribe target => g.unsubscribe target
  | .listen interest => (g.listen interest).1
  | .unlisten number => (g.unlisten number).1
  | .defer action => g.defer action

def step (g : Graph α) : Input α → Graph α
  | .event event => g.handle event
  | .call c => g.call c

/-! ## Polls in parts -/

def beginPoll (g : Graph α) : Graph α := { g with cycle := g.cycle + 1 }

/-- Whether each message that is taken in may come where it is handled. -/
def DrainsBy (law : Law α) (g : Graph α) : Nat → Prop
  | 0 => True
  | limit + 1 =>
    match g.wire.receive with
    | (.message event, wire) =>
      law { g with wire } (.event event) ∧ ({ g with wire }.handle event).DrainsBy law limit
    | _ => True

theorem drainsBy_any (limit : Nat) (g : Graph α) : g.DrainsBy (Law.any α) limit := by
  induction limit generalizing g with
  | zero => trivial
  | succ limit ih =>
      simp only [DrainsBy]
      split
      · exact ⟨trivial, ih _⟩
      · trivial

theorem DrainsBy.mono {law other : Law α} (weaker : ∀ g input, law g input → other g input)
    {limit : Nat} {g : Graph α} (may : g.DrainsBy law limit) : g.DrainsBy other limit := by
  induction limit generalizing g with
  | zero => trivial
  | succ limit ih =>
      simp only [DrainsBy] at may ⊢
      split
      · rename_i event wire received
        simp only [received] at may
        exact ⟨weaker _ _ may.1, ih may.2⟩
      · trivial

/-- What receiving keeps, and all that comes as it may, taking messages in keeps. -/
theorem DrainsBy.keeps {law : Law α} {P : Graph α → Prop}
    (receives : ∀ {g : Graph α} {outcome wire}, g.wire.receive = (outcome, wire) → P g →
      P { g with wire })
    (step : ∀ {g : Graph α} {event}, law g (.event event) → P g → P (g.handle event))
    {g : Graph α} {limit : Nat} (may : g.DrainsBy law limit) (start : P g) :
    P (g.drain limit).1 := by
  induction limit generalizing g with
  | zero => exact start
  | succ limit ih =>
      simp only [drain]
      simp only [DrainsBy] at may
      split at may
      · rename_i event wire received
        simp only [received]
        exact ih may.2 (step may.1 (receives received start))
      · rename_i outcome none
        split
        · rename_i event wire received
          exact absurd received (none event wire)
        · rename_i received
          exact receives received start

/-- The graph when a poll has taken in all that came. -/
def intake (g : Graph α) : Graph α :=
  (g.beginPoll.drain (g.wire.inbox.length + 1)).1.expireDevices.renewSubscriptions

/-- The graph of a poll when all is told and only the actions put off are still to run. -/
def toldAndEvicted (host : Host α σ) (s : σ) (g : Graph α) : Graph α :=
  { (dispatch host s g.intake).2.evict with deferred := [] }

/-- What listeners are to be told in a later graph that was not yet to be told in an earlier. -/
def news (g h : Graph α) : List Notification := h.notifications.drop g.notifications.length

theorem poll_eq (host : Host α σ) (s : σ) (g : Graph α) :
    (poll host s g).2.1 =
      ((dispatch host s g.intake).2.evict.deferred.foldl (fun (s, g) action => host.act s g action)
        ((dispatch host s g.intake).1, g.toldAndEvicted host s)).2 := rfl

/-- What happens between two graphs while all that comes may come, and what was said on the way.
    The actions that a poll puts off do what they do by calls and polls of their own. -/
inductive Run (law : Law α) : Graph α → List Notification → Graph α → Prop
  | refl (g : Graph α) : Run law g [] g
  | call {g h : Graph α} {said : List Notification} (before : Run law g said h) (c : Call α)
      (may : law h (.call c)) : Run law g (said ++ news h (h.call c)) (h.call c)
  | poll {σ : Type} {g h : Graph α} {said later : List Notification} (before : Run law g said h)
      (host : Host α σ) (s : σ) (may : h.beginPoll.DrainsBy law (h.wire.inbox.length + 1))
      (acts : Run law (h.toldAndEvicted host s) later (poll host s h).2.1) :
      Run law g (said ++ news h h.intake ++ later) (poll host s h).2.1

/-- A graph that there can be after any calls and polls. -/
def Reachable (config : Config) (g : Graph α) : Prop :=
  ∃ wire said, Run (Law.any α) (make wire config) said g

namespace Run

variable {law : Law α} {g h : Graph α} {said : List Notification}

/-- What may happen by a law may happen by a weaker one. -/
theorem mono {other : Law α} (weaker : ∀ g input, law g input → other g input)
    (run : Run law g said h) : Run other g said h := by
  induction run with
  | refl g => exact .refl g
  | call before c may ih => exact ih.call c (weaker _ _ may)
  | poll before host s may acts ih ihActs => exact ih.poll host s (may.mono weaker) ihActs

/-- What happens as it may by some law happens as it may. -/
theorem any (run : Run law g said h) : Run (Law.any α) g said h := run.mono fun _ _ _ => trivial

/-- Calls that may each come, wherever they do, make a run. -/
theorem calls (run : Run law g said h) {cs : List (Call α)}
    (may : ∀ g, ∀ c ∈ cs, law g (.call c)) : ∃ said, Run law g said (cs.foldl Graph.call h) :=
  List.foldlRecOn cs Graph.call (motive := fun k => ∃ said, Run law g said k) ⟨said, run⟩
    fun k ⟨_, run⟩ c member => ⟨_, run.call c (may k c member)⟩

end Run

namespace Reachable

variable {config : Config} {g : Graph α}

theorem make (wire : Wire) (config : Config) : Reachable config (make wire config : Graph α) :=
  ⟨wire, [], .refl _⟩

theorem call (reachable : Reachable config g) (c : Call α) : Reachable config (g.call c) := by
  obtain ⟨wire, said, run⟩ := reachable
  exact ⟨wire, _, run.call c trivial⟩

end Reachable

/-- A graph that has heard of signal 2 and nothing else. -/
def heardOfSignal (diff : Diff) : Graph Unit :=
  (make (.quiet ⟨0, 0⟩) .standard).call (.apply .announce ⟨.signal, ⟨2⟩, diff, []⟩)

theorem heardOfSignal_reachable (diff : Diff) : Reachable .standard (heardOfSignal diff) :=
  .call (.make _ _) _

end Graph

end SignalGraph
