import SignalGraph.Proofs.Allocation
import SignalGraph.Proofs.Comparison
import SignalGraph.Proofs.EvictionIndependence
import SignalGraph.Proofs.GraphPools
import SignalGraph.Proofs.Realignment
import SignalGraph.Proofs.Refusal
import SignalGraph.Proofs.RelationQueries

/-! # Values from here and from the network

A value for an instance may be set here or come from the network. Both are taken for the same value
or refused for the same reason, and go to the same place in the pool. All that a value from the
network does besides is to count as a sign of life of the device.
-/

namespace SignalGraph

/-! ## What a signal declares -/

namespace Record

variable {r : Record} {v taken : Value}

/-- Whether a signal says of which kind its values are. -/
def DeclaresKind (r : Record) (kind : Kind) : Prop :=
  ∃ type word, r.properties.get? (.wellKnown .type) = some type ∧ type.toString? = some word ∧
    Kind.ofText? word = some kind

/-- Whether a signal says how many elements its values have. -/
def DeclaresLength (r : Record) (n : Int32) : Prop :=
  ∃ length, r.properties.get? (.wellKnown .length) = some length ∧ length.toInt32? = some n

/-- Whether a signal takes a value for another: that as one of the kind that it declares, if it
    declares any, and with just as many elements as it declares, if it does. -/
structure Admits (r : Record) (v taken : Value) : Prop where
  coerced : ∀ kind, r.DeclaresKind kind → v.coerce kind = .ok taken
  untouched : (∀ kind, ¬ r.DeclaresKind kind) → taken = v
  sized : ∀ n, r.DeclaresLength n → (taken.size : Int) = n.toInt

theorem declaresKind_iff {kind : Kind} : r.DeclaresKind kind ↔
    ((r.properties.get? (.wellKnown .type)).bind Value.toString?).bind Kind.ofText? =
      some kind := by
  simp only [DeclaresKind, Option.bind_eq_some_iff]
  constructor
  · rintro ⟨type, word, there, read, known⟩
    exact ⟨word, ⟨type, there, read⟩, known⟩
  · rintro ⟨word, ⟨type, there, read⟩, known⟩
    exact ⟨type, word, there, read, known⟩

theorem declaresLength_iff {n : Int32} : r.DeclaresLength n ↔
    (r.properties.get? (.wellKnown .length)).bind Value.toInt32? = some n :=
  Option.bind_eq_some_iff.symm

/-- A value as one of the kind that a signal declares. -/
def typed (r : Record) (v : Value) : Except Error Value :=
  match ((r.properties.get? (.wellKnown .type)).bind Value.toString?).bind Kind.ofText? with
  | some kind => v.coerce kind
  | none => .ok v

/-- A value, if it is as long as a signal declares. -/
def measured (r : Record) (v : Value) : Except Error Value :=
  match (r.properties.get? (.wellKnown .length)).bind Value.toInt32? with
  | some n =>
    if (v.size : Int) = n.toInt then .ok v else .error (.mismatch (.sampleLength n v.size))
  | none => .ok v

theorem conform_eq (r : Record) (v : Value) : r.conform v = (r.typed v).bind r.measured := by
  unfold conform typed
  cases ((r.properties.get? (.wellKnown .type)).bind Value.toString?).bind Kind.ofText? <;> rfl

theorem typed_eq_ok_iff : r.typed v = .ok taken ↔
    (∀ kind, r.DeclaresKind kind → v.coerce kind = .ok taken) ∧
      ((∀ kind, ¬ r.DeclaresKind kind) → taken = v) := by
  unfold typed
  simp only [declaresKind_iff]
  cases ((r.properties.get? (.wellKnown .type)).bind Value.toString?).bind Kind.ofText? with
  | none => simp [eq_comm]
  | some kind => simp

theorem measured_eq_ok_iff : r.measured v = .ok taken ↔
    taken = v ∧ ∀ n, r.DeclaresLength n → (v.size : Int) = n.toInt := by
  unfold measured
  simp only [declaresLength_iff]
  cases (r.properties.get? (.wellKnown .length)).bind Value.toInt32? with
  | none => simp [eq_comm]
  | some n =>
      by_cases sized : (v.size : Int) = n.toInt
      · simp [sized, eq_comm]
      · simp [sized]

/-- What conforms is just what is admitted. -/
theorem conform_eq_ok_iff : r.conform v = .ok taken ↔ r.Admits v taken := by
  rw [conform_eq]
  constructor
  · intro conforms
    cases coerced : r.typed v with
    | error e => simp [coerced, Except.bind] at conforms
    | ok w =>
        rw [coerced] at conforms
        obtain ⟨rfl, sized⟩ := measured_eq_ok_iff.mp conforms
        obtain ⟨kinds, untouched⟩ := typed_eq_ok_iff.mp coerced
        exact ⟨kinds, untouched, sized⟩
  · intro admits
    rw [typed_eq_ok_iff.mpr ⟨admits.coerced, admits.untouched⟩]
    exact measured_eq_ok_iff.mpr ⟨rfl, admits.sized⟩

theorem Admits.nonneg {n : Int32} (admits : r.Admits v taken) (declared : r.DeclaresLength n) :
    0 ≤ n.toInt := by
  have sized := admits.sized n declared
  omega

theorem kind_of_pool? {pool : Pool} (own : r.pool? = some pool) : r.kind = .signal := by
  cases wiring : r.wiring with
  | signal => rw [kind, wiring, Wiring.kind]
  | device | map | link => simp [pool?, wiring] at own

theorem exists_owner {pool : Pool} (own : r.pool? = some pool) :
    ∃ device, r.device? = some device := by
  cases wiring : r.wiring with
  | signal device pool => exact ⟨device, by rw [device?, wiring]⟩
  | device | map | link => simp [pool?, wiring] at own

end Record

/-! ## What a value leaves behind -/

namespace Pool

variable {p q : Pool} {id : UInt64} {sample : Sample} {told : List PoolEvent}

theorem Swaps.mem_of_ne {old new j : Instance} (swaps : p.Swaps old new q) (member : j ∈ q.slots)
    (other : j.id ≠ new.id) : j ∈ p.slots := by
  rcases List.mem_cons.mp (swaps.slots.mem_iff.mp member) with rfl | before
  · exact absurd rfl other
  · exact List.mem_of_mem_erase before

/-- Whether a value goes into a pool as the pool has it: its instance then holds it, or there is no
    such instance and the value is dropped, and no other instance gets a value. -/
structure Stores (p : Pool) (id : UInt64) (sample : Sample) (told : List PoolEvent) (q : Pool) :
    Prop where
  allocates : p.Allocates id sample told q
  held : (q = p ∧ p.get? id = none) ∨ ∃ i, q.get? id = some i ∧ i.isActive ∧ i.last = some sample
  others : ∀ j ∈ q.slots, j.id ≠ id → j ∈ p.slots

theorem Allocates.stores (allocates : p.Allocates id sample told q) (ascending : p.Ascending) :
    p.Stores id sample told q := by
  rcases allocates.dropped_or_swaps with ⟨-, rfl, absent⟩ | ⟨old, new, swaps, own, active, last⟩
  · exact ⟨allocates, .inl ⟨rfl, ascending.get?_eq_none_iff.mpr absent⟩, fun _ member _ => member⟩
  · exact ⟨allocates, .inr ⟨new, own ▸ swaps.get?, active, last⟩,
      fun _ member other => swaps.mem_of_ne member (own ▸ other)⟩

end Pool

/-! ## Both ways -/

namespace Graph

variable {α : Type} {config : Config} {g : Graph α} {signal device : ObjectId} {r : Record}
  {pool : Pool} {v taken : Value}

theorem withPool_of_isLive {β : Type} (held : g.store.find? signal = some r) (live : r.isLive)
    (own : r.pool? = some pool) (x : Record → Attempt Pool β) :
    withPool signal x g =
      (x r).within pool (fun pool g => g.modify signal (·.withPool pool)) g := by
  have there := Store.getLive_eq_ok_iff.mpr ⟨held, Record.kind_of_pool? own, live⟩
  have got : r.getPool = .ok pool := Record.getPool_eq_ok_iff.mpr own
  simp only [withPool, Attempt.bind_apply, Attempt.current_apply, there, got, Attempt.demand_ok]

theorem sample_apply (slot : UInt64) (v : Value) (time : Timetag) (r : Record) (pool : Pool) :
    sample slot v time r pool = match r.conform v with
      | .ok taken =>
        .ok (pool.update slot ⟨taken, time⟩).2 (pool.update slot ⟨taken, time⟩).1
      | .error e => .error e pool := by
  cases conforms : r.conform v <;> simp only [sample, conforms] <;> rfl

/-- What a value does to the pool of a signal is all that decides whether it is taken when it is set
    here. -/
theorem updateInstance_apply (signal : ObjectId) (slot : UInt64) (v : Value) (g : Graph α) :
    updateInstance signal slot v g = match withPool signal (sample slot v g.now) g with
      | .ok told h => .ok () (h.notifyPool signal told)
      | .error e h => .error e h := by
  simp only [updateInstance, withPoolEvents, Attempt.bind_apply, Attempt.current_apply,
    Attempt.change_apply]
  cases withPool signal (sample slot v g.now) g <;> rfl

theorem withPool_some {β : Type} (signal : ObjectId) (x : Record → Attempt Pool β) (g : Graph α) :
    withPool signal (fun r => some <$> x r) g = match withPool signal x g with
      | .ok b h => .ok (some b) h
      | .error e h => .error e h := by
  simp only [withPool, Attempt.bind_apply, Attempt.current_apply]
  cases there : g.store.getLive signal .signal with
  | error e => rfl
  | ok r =>
      simp only [Attempt.demand_ok]
      cases own : r.getPool with
      | error e => rfl
      | ok pool =>
          simp only [Attempt.demand_ok, Attempt.within, map_eq_pure_bind, Attempt.bind_apply]
          cases x r pool <;> rfl

/-- And so it is when it comes from the network. -/
theorem applyValue_apply (signal : ObjectId) (given : Option UInt64) (v : Value) (time : Timetag)
    (g : Graph α) : applyValue ⟨signal, given, some v, time⟩ g =
      match withPool signal (sample (given.getD 0) v time) g with
      | .ok told h => .ok () ((h.touchOwner signal).notifyPool signal told)
      | .error e h => .error e h := by
  simp only [applyValue, Attempt.bind_apply, withPool_some]
  cases withPool signal (sample (given.getD 0) v time) g <;> rfl

/-- A value goes to the pool of a signal just if the signal is there and admits it. -/
theorem withPool_sample (stocked : g.Stocked) (signal : ObjectId) (slot : UInt64) (v : Value) :
    (∃ e, withPool signal (sample slot v g.now) g = .error e g ∧
      ∀ r taken, g.store.find? signal = some r → r.isLive → r.kind = .signal →
        ¬ r.Admits v taken) ∨
    ∃ r taken pool told later, g.store.find? signal = some r ∧ r.isLive ∧ r.Admits v taken ∧
      r.pool? = some pool ∧ pool.Stores slot ⟨taken, g.now⟩ told later ∧
      withPool signal (sample slot v g.now) g =
        .ok told (g.modify signal (·.withPool later)) := by
  have traceless := withPool_traceless (α := α) signal (sample_traceless slot v g.now) g
  cases there : g.store.getLive signal .signal with
  | error e =>
      refine .inl ⟨e, ?_, ?_⟩
      · simp only [withPool, Attempt.bind_apply, Attempt.current_apply, there, Attempt.demand_error]
      · intro r taken held live kind
        rw [Store.getLive_eq_ok_iff.mpr ⟨held, kind, live⟩] at there
        cases there
  | ok r =>
      obtain ⟨held, kind, live⟩ := Store.getLive_eq_ok_iff.mp there
      obtain ⟨pool, own⟩ := exists_pool_of_signal kind
      have sound := (stocked signal r held pool own).kept.sound
      have done := withPool_of_isLive held live own (sample slot v g.now)
      rw [Attempt.within, sample_apply] at done
      cases conforms : r.conform v with
      | error e =>
          rw [conforms] at done
          -- The pool is written back also where the value is refused, but as it was.
          have same := traceless e _ done
          refine .inl ⟨e, done.trans (congrArg _ same), ?_⟩
          intro r' taken held' _ _ admits
          obtain rfl := Option.some.inj (held.symm.trans held')
          cases conforms.symm.trans (Record.conform_eq_ok_iff.mpr admits)
      | ok taken =>
          rw [conforms] at done
          have stores := (Pool.allocates_update sound slot ⟨taken, g.now⟩).stores sound.ascending
          exact .inr ⟨r, taken, pool, _, _, held, live, Record.conform_eq_ok_iff.mp conforms, own,
            stores, done⟩

theorem touchOwner_eq (held : g.store.find? signal = some r) (owned : r.device? = some device)
    (owner : g.store.HasLive device .device) :
    g.touchOwner signal = g.modify device ({ · with wiring := .device g.now }) := by
  obtain ⟨d, there, kind, alive⟩ := owner
  simp only [touchOwner, held, Option.bind_some, owned, touch]
  refine congrArg (fun store => { g with store }) (Store.modify_congr ?_)
  intro d' there'
  obtain rfl := Option.some.inj (there.symm.trans there')
  cases wiring : d.wiring with
  | device synced => simp only [alive, ↓reduceIte]
  | signal | map | link => simp [Record.kind, Wiring.kind, wiring] at kind

/-- The owner of a signal with another pool is as it was. -/
theorem touchOwner_withPool (held : g.store.find? signal = some r)
    (owned : r.device? = some device) (owner : g.store.HasLive device .device)
    (apart : device ≠ signal) (later : Pool) :
    (g.modify signal (·.withPool later)).touchOwner signal =
      (g.modify signal (·.withPool later)).modify device ({ · with wiring := .device g.now }) := by
  have filled : (g.modify signal (·.withPool later)).store.find? signal =
      some (r.withPool later) := by
    simp only [modify, Store.find?_modify, ↓reduceIte, held, Option.map_some]
  have owned' : (r.withPool later).device? = some device := (r.device?_withPool later).trans owned
  have owner' : (g.modify signal (·.withPool later)).store.HasLive device .device := by
    obtain ⟨d, there, shape⟩ := owner
    refine ⟨d, ?_, shape⟩
    rw [modify, Store.find?_modify, if_neg (Ne.symm apart), there]
  exact touchOwner_eq filled owned' owner'

/-- A value for an instance of a signal, set here or from the network at the time of the clock, is
    refused for the same reason and leaves no trace, which it is just if the signal is not there or
    does not admit it; or it goes to the same place in the same pool, as the signal declares its
    values, and the same is to be told of it. Then all that is besides in the graph that the value
    came to from the network is that the device of the signal was heard of just now. -/
theorem updates_agree (reachable : Reachable config g) (signal : ObjectId) (given : Option UInt64)
    (v : Value) :
    let here := updateInstance signal (given.getD 0) v g
    let there := applyValue ⟨signal, given, some v, g.now⟩ g
    (∃ e, here = .error e g ∧ there = .error e g ∧
      ∀ r taken, g.store.find? signal = some r → r.isLive → r.kind = .signal →
        ¬ r.Admits v taken) ∨
    ∃ r taken pool told later device h, g.store.find? signal = some r ∧ r.isLive ∧
      r.Admits v taken ∧ (∀ n, r.DeclaresLength n → 0 ≤ n.toInt) ∧ r.pool? = some pool ∧
      pool.Stores (given.getD 0) ⟨taken, g.now⟩ told later ∧
      r.device? = some device ∧ g.store.HasLive device .device ∧ device ≠ signal ∧
      h = (g.modify signal (·.withPool later)).notifyPool signal told ∧
      here = .ok () h ∧ there = .ok () (h.modify device ({ · with wiring := .device g.now })) := by
  intro here there
  have sound := reachable.complete.1.sound
  have done := updateInstance_apply signal (given.getD 0) v g
  have arrived := applyValue_apply signal given v g.now g
  rcases withPool_sample reachable.stocked.1 signal (given.getD 0) v with
    ⟨e, refused, none⟩ | ⟨r, taken, pool, told, later, held, live, admits, own, stores, worked⟩
  · rw [refused] at done arrived
    exact .inl ⟨e, done, arrived, none⟩
  · rw [worked] at done arrived
    obtain ⟨device, owned⟩ := Record.exists_owner own
    have owner := sound.hasLive_device held live owned
    have apart : device ≠ signal := by
      rintro rfl
      obtain ⟨d, there, kind, -⟩ := owner
      obtain rfl := Option.some.inj (held.symm.trans there)
      cases (Record.kind_of_pool? own).symm.trans kind
    simp only [touchOwner_withPool held owned owner apart later] at arrived
    exact .inr ⟨r, taken, pool, told, later, device, _, held, live, admits, fun _ => admits.nonneg,
      own, stores, owned, owner, apart, rfl, done, arrived⟩

/-- Seven seconds after a signal of one integer of 64 bits was announced, one of 32 bits is taken as
    one of 64, and two are refused. -/
theorem heardOfSignal_updates_agree :
    let diff : Diff := ⟨[.set (.wellKnown .device) (.ofId ⟨1⟩),
      .set (.wellKnown .type) ⟨.string ["h"], .inr (by decide)⟩,
      .set (.wellKnown .length) ⟨.int32 [1], .inr (by decide)⟩]⟩
    let g := (heardOfSignal diff).call (.network ⟨7, 0⟩ [] 0 0)
    let five : Value := ⟨.int32 [5], .inr (by decide)⟩
    let two : Value := ⟨.int32 [5, 6], .inr (by decide)⟩
    Reachable .standard g ∧
      (∃ r taken h device, g.store.find? ⟨2⟩ = some r ∧ r.Admits five taken ∧
        r.device? = some device ∧ updateInstance ⟨2⟩ 0 five g = .ok () h ∧
        applyValue ⟨⟨2⟩, none, some five, g.now⟩ g =
          .ok () (h.modify device ({ · with wiring := .device g.now }))) ∧
      ∃ e, updateInstance ⟨2⟩ 0 two g = .error e g ∧
        applyValue ⟨⟨2⟩, none, some two, g.now⟩ g = .error e g := by
  intro diff g five two
  have reachable : Reachable .standard g := (heardOfSignal_reachable diff).call _
  refine ⟨reachable, ?_, ?_⟩
  · have taken : (Attempt.result? (updateInstance ⟨2⟩ 0 five) g).isSome := by decide
    rcases updates_agree reachable ⟨2⟩ none five with
      ⟨e, refused, -⟩ | ⟨r, taken, _, _, _, device, h, held, -, admits, -, -, -, owned, -, -, -,
        here, there⟩
    · change updateInstance ⟨2⟩ 0 five g = _ at refused
      rw [Attempt.result?, refused] at taken
      cases taken
    · exact ⟨r, taken, h, device, held, admits, owned, here, there⟩
  · have refused : (Attempt.result? (updateInstance ⟨2⟩ 0 two) g).isNone := by decide
    rcases updates_agree reachable ⟨2⟩ none two with
      ⟨e, here, there, -⟩ | ⟨_, _, _, _, _, _, h, -, -, -, -, -, -, -, -, -, -, here, -⟩
    · exact ⟨e, here, there⟩
    · change updateInstance ⟨2⟩ 0 two g = _ at here
      rw [Attempt.result?, here] at refused
      cases refused

end Graph

end SignalGraph
