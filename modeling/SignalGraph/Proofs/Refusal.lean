import SignalGraph.Proofs.Upsert

/-! # Refusals

An event that is refused leaves the graph exactly as it was: whatever can be wrong with it is found
before anything is done. So refused events can be left out of what is handled.
-/

namespace SignalGraph

namespace Attempt

variable {σ τ β γ : Type}

theorem demand_traceless (check : Except Error β) : (demand check : Attempt σ β).Traceless := by
  intro s e s' refused
  cases check with
  | ok b => cases refused
  | error e' =>
      cases refused
      rfl

/-- What goes on after an attempt without fail is refused with it alone. -/
theorem Traceless.bind {x : Attempt σ β} {f : β → Attempt σ γ} (traceless : x.Traceless)
    (fine : ∀ b s, ∃ c s', f b s = .ok c s') : (x >>= f).Traceless := by
  intro s e s' refused
  rw [bind_apply] at refused
  cases first : x s with
  | ok b next =>
      obtain ⟨c, last, done⟩ := fine b next
      simp [first, done] at refused
  | error e' next =>
      simp only [first] at refused
      cases refused
      exact traceless s _ _ first

theorem Traceless.map {x : Attempt σ β} (traceless : x.Traceless) (f : β → γ) :
    (f <$> x).Traceless := by
  intro s e s' refused
  simp only [Functor.map, EStateM.map] at refused
  split at refused
  · cases refused
  · rename_i first
    cases refused
    exact traceless s _ _ first

end Attempt

open Attempt

/-! ## Instances -/

theorem Pool.release_traceless (slot : UInt64) (origin : ReleaseOrigin) :
    (Pool.release slot origin).Traceless := by
  intro pool e pool' refused
  simp only [Pool.release, bind_apply, current_apply] at refused
  cases got : pool.get slot with
  | error e' =>
      rw [got] at refused
      cases refused
      rfl
  | ok i =>
      rw [got] at refused
      cases active : i.isActive <;> simp [active, bind_apply] at refused

namespace Graph

variable {α : Type}

theorem releaseIfHeld_traceless (slot : UInt64) : (releaseIfHeld slot).Traceless := by
  intro pool e pool' refused
  simp only [releaseIfHeld] at refused
  cases released : Pool.release slot .network pool with
  | ok events after => simp [released] at refused
  | error e' after =>
      have same := Pool.release_traceless slot .network pool e' after released
      simp only [released] at refused
      split at refused
      · cases refused
      · cases refused
        exact same

theorem sample_traceless (slot : UInt64) (v : Value) (time : Timetag) (r : Record) :
    (sample slot v time r).Traceless :=
  .bind (demand_traceless _) fun _ _ => ⟨_, _, rfl⟩

/-- Writing back the pool that a record has changes nothing. -/
theorem withPool_self {r : Record} {pool : Pool} (own : r.getPool = .ok pool) :
    r.withPool pool = r := by
  simp only [Record.getPool, Record.pool?] at own
  cases wiring : r.wiring with
  | signal device pool' =>
      simp only [wiring, Except.ok.injEq] at own
      subst own
      simp only [Record.withPool, wiring]
      rw [← wiring]
  | device | map | link => simp [wiring] at own

theorem withPool_traceless {β : Type} (signal : ObjectId) {x : Record → Attempt Pool β}
    (traceless : ∀ r, (x r).Traceless) : (withPool (α := α) signal x).Traceless := by
  intro g e g' refused
  simp only [withPool, bind_apply, current_apply] at refused
  cases got : g.store.getLive signal .signal with
  | error e' =>
      simp only [got, demand_error] at refused
      cases refused
      rfl
  | ok r =>
      simp only [got, demand_ok] at refused
      cases own : r.getPool with
      | error e' =>
          simp only [own, demand_error] at refused
          cases refused
          rfl
      | ok pool =>
          simp only [own, demand_ok, within] at refused
          cases worked : x r pool with
          | ok b after => simp [worked] at refused
          | error e' after =>
              obtain rfl := traceless r pool e' after worked
              simp only [worked] at refused
              cases refused
              have held := (Store.getLive_eq_ok_iff.mp got).1
              have same : g.store.modify signal (·.withPool after) = g.store :=
                Store.modify_eq_self fun r' held' =>
                  Option.some.inj (held.symm.trans held') ▸ withPool_self own
              simp only [modify, same]

/-! ## Events -/

theorem applyEvent_traceless (type : EventType) (delta : Delta) :
    (applyEvent (α := α) type delta).Traceless := by
  intro g e g' refused
  cases type with
  | announce | update =>
      have upserts := upsert_upserts delta g
      simp only [applyEvent] at refused
      rw [refused] at upserts
      cases upserts
      rfl
  | remove | expire => cases refused

theorem applyValue_traceless (u : ValueUpdate) : (applyValue (α := α) u).Traceless := by
  refine .bind (withPool_traceless u.signal ?_) ?_
  · intro r
    cases u.value with
    | some v => exact (sample_traceless _ v u.time r).map some
    | none => exact releaseIfHeld_traceless _
  · intro events g
    cases events <;> exact ⟨_, _, rfl⟩

/-! ## Lists of events -/

def refuses (g : Graph α) : NetworkEvent → Bool
  | .record type delta =>
    match applyEvent type delta g with
    | .ok _ _ => false
    | .error _ _ => true
  | .value update =>
    match applyValue update g with
    | .ok _ _ => false
    | .error _ _ => true
  | .sync _ => false

def handleAll (g : Graph α) (events : List NetworkEvent) : Graph α := events.foldl handle g

/-- Events in order without those that are refused when it is their turn. -/
def accepted (g : Graph α) : List NetworkEvent → List NetworkEvent
  | [] => []
  | event :: rest =>
    if g.refuses event then (g.handle event).accepted rest
    else event :: (g.handle event).accepted rest

theorem handle_of_refuses {g : Graph α} {event : NetworkEvent} (refused : g.refuses event) :
    g.handle event = g := by
  cases event with
  | record type delta =>
      simp only [refuses] at refused
      split at refused
      · cases refused
      · rename_i e h same
        simp only [handle, after, same]
        exact applyEvent_traceless type delta g e h same
  | value update =>
      simp only [refuses] at refused
      split at refused
      · cases refused
      · rename_i e h same
        simp only [handle, after, same]
        exact applyValue_traceless update g e h same
  | sync device => cases refused

theorem handleAll_accepted (g : Graph α) (events : List NetworkEvent) :
    g.handleAll (g.accepted events) = g.handleAll events := by
  induction events generalizing g with
  | nil => rfl
  | cons event rest ih =>
      simp only [accepted]
      split
      · rename_i refused
        rw [handle_of_refuses refused, ih, handleAll, handleAll, List.foldl_cons,
          handle_of_refuses refused]
      · exact ih (g.handle event)

/-- A record event or a value that is refused leaves the whole graph as it was: records and their
    order, what is to be told, subscriptions, counters, and what the network was asked for. So a
    list of events does what it does without those of it that are refused. -/
theorem refusals_leave_no_trace :
    (∀ type delta, (applyEvent (α := α) type delta).Traceless) ∧
      (∀ update, (applyValue (α := α) update).Traceless) ∧
      ∀ (g : Graph α) events, g.handleAll (g.accepted events) = g.handleAll events :=
  ⟨applyEvent_traceless, applyValue_traceless, handleAll_accepted⟩

/-- A link of an object to itself is refused after its other end was found fit to be a device. -/
example : (make (α := Unit) (.quiet ⟨0, 0⟩) .standard).refuses
    (.record .announce
      ((Delta.empty .link ⟨3⟩).set (.wellKnown .devices) (.ofIds [⟨1⟩, ⟨3⟩]))) := by
  decide

end Graph

end SignalGraph
