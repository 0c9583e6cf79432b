import SignalGraph.Graph.Samples
import SignalGraph.Proofs.Frame
import SignalGraph.Proofs.PoolChanges

/-! # Pools of records

A signal gets a new pool with its record, and all that is done with the pool from then on are calls
of it: whatever fills the frame of a record, its pool is never put together by hand.
-/

namespace SignalGraph

namespace Pool

variable {p q r : Pool}

/-- Whether a pool is what some calls leave of another. -/
def Becomes (p q : Pool) : Prop := ∃ calls, (p.run calls).1 = q

theorem run_append (p : Pool) (calls later : List Call) :
    (p.run (calls ++ later)).1 = ((p.run calls).1.run later).1 := by
  induction calls generalizing p with
  | nil => rfl
  | cons c calls ih => exact ih _

namespace Becomes

theorem refl (p : Pool) : p.Becomes p := ⟨[], rfl⟩

theorem call (p : Pool) (c : Call) : p.Becomes (p.call c).1 := ⟨[c], rfl⟩

theorem trans (first : p.Becomes q) (second : q.Becomes r) : p.Becomes r := by
  obtain ⟨calls, rfl⟩ := first
  obtain ⟨later, rfl⟩ := second
  exact ⟨calls ++ later, run_append p calls later⟩

end Becomes

/-- Whether a pool is what some calls leave of a new one. -/
def Made (capacity : Nat) (p : Pool) : Prop := ∃ start, IsNew capacity start ∧ start.Becomes p

theorem Made.becomes {capacity : Nat} (made : p.Made capacity) (becomes : p.Becomes q) :
    q.Made capacity := by
  obtain ⟨start, new, before⟩ := made
  exact ⟨start, new, before.trans becomes⟩

end Pool

/-- Whether an attempt on a pool comes down to calls of it, also where it is refused. -/
def Attempt.Calls {β : Type} (x : Attempt Pool β) : Prop := ∀ p : Pool, p.Becomes (x.after p)

theorem Attempt.Calls.map {β γ : Type} {x : Attempt Pool β} (calls : x.Calls) (f : β → γ) :
    Calls (f <$> x) := by
  intro p
  rw [← bind_pure_comp, after_bind_pure]
  exact calls p

namespace Pool

theorem after_eq_told (x : Attempt Pool (List PoolEvent)) (p : Pool) :
    x.after p = (p.told x).1 := by
  simp only [Attempt.after, told]
  cases x p <;> rfl

theorem reserve_calls (n : Nat) : (reserve n).Calls := fun p => .call p (.reserve n)

theorem reserveIds_calls (ids : List UInt64) : (reserveIds ids).Calls :=
  fun p => .call p (.reserveIds ids)

theorem setTag_calls (id : UInt64) (tag : Option UInt64) : (setTag id tag).Calls :=
  fun p => .call p (.setTag id tag)

theorem release_calls (id : UInt64) (origin : ReleaseOrigin) : (release id origin).Calls :=
  fun p => after_eq_told (release id origin) p ▸ .call p (.release id origin)

theorem remove_calls (id : UInt64) : (remove id).Calls :=
  fun p => after_eq_told (remove id) p ▸ .call p (.remove id)

theorem sample_calls (slot : UInt64) (v : Value) (time : Timetag) (r : Record) :
    (Graph.sample slot v time r).Calls := by
  intro p
  simp only [Graph.sample]
  cases r.conform v with
  | error e => exact .refl p
  | ok v => exact .call p (.update slot ⟨v, time⟩)

theorem releaseIfHeld_calls (slot : UInt64) : (Graph.releaseIfHeld slot).Calls := by
  intro p
  have released := release_calls slot .network p
  simp only [Attempt.after] at released
  simp only [Graph.releaseIfHeld, Attempt.after]
  cases same : release slot .network p with
  | ok events q =>
      simp only [same] at released
      exact released
  | error e q =>
      simp only [same] at released
      cases missing : e.isNotFound <;> simpa [missing] using released

end Pool

/-! ## Records -/

namespace Record

variable {r s t : Record}

/-- Whether the pool of a record, if it has one, is what some calls leave of that of another. -/
def Restocks (r s : Record) : Prop :=
  ∀ pool, s.pool? = some pool → ∃ before, r.pool? = some before ∧ before.Becomes pool

namespace Restocks

theorem of_same (same : s.pool? = r.pool?) : r.Restocks s :=
  fun pool held => ⟨pool, same.symm.trans held, .refl pool⟩

theorem refl (r : Record) : r.Restocks r := of_same rfl

theorem trans (first : r.Restocks s) (second : s.Restocks t) : r.Restocks t := by
  intro pool held
  obtain ⟨between, held, later⟩ := second pool held
  obtain ⟨before, held, earlier⟩ := first between held
  exact ⟨before, held, earlier.trans later⟩

end Restocks

theorem withPool_restocks {pool later : Pool} (held : r.pool? = some pool)
    (becomes : pool.Becomes later) : r.Restocks (r.withPool later) := by
  cases wiring : r.wiring with
  | signal device own =>
      intro last after
      obtain rfl : later = last := by simpa [withPool, pool?, wiring] using after
      exact ⟨pool, held, becomes⟩
  | device | map | link => simp [pool?, wiring] at held

theorem getPool_eq_ok_iff {pool : Pool} : r.getPool = .ok pool ↔ r.pool? = some pool := by
  simp only [getPool]
  split <;> simp [*]

theorem syncPool_restocks (r : Record) (config : Config) : r.Restocks (r.syncPool config) := by
  simp only [syncPool]
  split
  · exact .refl r
  · rename_i pool held
    refine withPool_restocks held ?_
    have sized (n : Nat) : pool.Becomes (pool.resize n) := .call pool (.resize n)
    have steals (pool : Pool) (mode : StealMode) : pool.Becomes (pool.setSteal mode) :=
      .call pool (.setSteal mode)
    split
    · split
      · exact (sized _).trans (steals _ _)
      · exact steals _ _
    · split
      · exact sized _
      · exact .refl pool

theorem pool?_modifySlot (r : Record) (location : SlotLocation) (f : Table → Table) :
    (r.modifySlot location f).pool? = r.pool? := by
  cases wiring : r.wiring <;> cases location <;> simp [modifySlot, pool?, wiring]

theorem applySlotDiffs_restocks (r : Record) (slots : List SlotDiff) :
    r.Restocks (r.applySlotDiffs slots).1 := by
  refine List.foldlRecOn slots _ (motive := fun x : Record × Bool => r.Restocks x.1) (.refl r) ?_
  rintro ⟨s, changed⟩ before diff -
  simp only
  split
  · exact before
  · exact before.trans (.of_same (s.pool?_modifySlot _ _))

theorem pool?_commitStaged (r : Record) : r.commitStaged.pool? = r.pool? := by
  cases wiring : r.wiring <;> simp [commitStaged, modifySlots, pool?, wiring]

/-- Whether the pool of a record, if it has one, was made with some capacity. -/
def Stocked (capacity : Nat) (r : Record) : Prop := ∀ pool, r.pool? = some pool → pool.Made capacity

theorem stocked_of_none {capacity : Nat} (none : r.pool? = none) : r.Stocked capacity :=
  fun _ held => nomatch none.symm.trans held

theorem Stocked.of_restocks {capacity : Nat} (stocked : r.Stocked capacity)
    (restocks : r.Restocks s) : s.Stocked capacity := by
  intro pool held
  obtain ⟨before, held, becomes⟩ := restocks pool held
  exact (stocked before held).becomes becomes

end Record

namespace Graph

variable {α : Type}

theorem newPool_made (g : Graph α) : g.newPool.Made g.config.maxInstances :=
  ⟨_, ⟨g.config.defaultSteal, .inl rfl⟩, .call _ (.resize g.config.defaultInstances)⟩

theorem recordOf_restocks (g : Graph α) (delta : Delta) (wiring : Wiring) :
    (Record.make delta.id wiring).Restocks (g.recordOf delta wiring) :=
  have filled : (Record.make delta.id wiring).Restocks { Record.make delta.id wiring with
      properties := (Table.empty.applyDiff delta.diff).1 } := .of_same rfl
  filled.trans ((Record.applySlotDiffs_restocks _ _).trans (Record.syncPool_restocks _ _))

theorem mergedRecord_restocks (g : Graph α) (r : Record) (delta : Delta) :
    r.Restocks (g.mergedRecord r delta).1 := by
  have slots := Record.applySlotDiffs_restocks
    { r with properties := (r.properties.applyDiff delta.diff).1 } delta.slots
  have filled : r.Restocks { r with properties := (r.properties.applyDiff delta.diff).1 } :=
    .of_same rfl
  simp only [mergedRecord]
  generalize (Record.applySlotDiffs _ delta.slots).1 = s at slots
  refine (filled.trans slots).trans (Record.Restocks.trans (.of_same ?_)
    (Record.syncPool_restocks _ _))
  split
  · rename_i wiring
    simp [Record.pool?, wiring]
  · rename_i wiring
    simp [Record.pool?, wiring]
  · rfl

end Graph

end SignalGraph
