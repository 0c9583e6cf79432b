import SignalGraph.Proofs.Records

/-! # Pools in graphs

Whatever comes to a graph, the pool of each of its signals was made with the capacity that the
settings give and only called since. So it is at all times what a pool on its own is.
-/

namespace SignalGraph

/-! ## Pools on their own -/

/-- Whether a pool is as it should be after it was made with some capacity: sound, still with that
    capacity as far as there can be any, and with each of its instances found under its number. -/
structure Pool.Kept (capacity : Nat) (p : Pool) : Prop where
  sound : p.Sound
  capacity_eq : p.capacity = min capacity maxCapacity
  found : ∀ id i, p.get? id = some i ↔ i ∈ p.slots ∧ i.id = id

theorem Pool.Made.kept {capacity : Nat} {p : Pool} (made : p.Made capacity) : p.Kept capacity := by
  obtain ⟨start, new, calls, rfl⟩ := made
  have steps := run_steps new.sound calls
  have sound := new.sound.steps steps
  exact ⟨sound, steps.capacity.trans new.capacity_eq, fun _ _ => sound.ascending.get?_eq_some_iff⟩

/-! ## Graphs -/

namespace Graph

variable {α : Type} {g h : Graph α}

def Stocked (g : Graph α) : Prop := g.store.All (Record.Stocked g.config.maxInstances)

theorem retire_stocked {how : Lifecycle} {capacity : Nat} (g : Graph α) (id : ObjectId)
    (all : g.store.All (Record.Stocked capacity)) :
    (g.retire id how).store.All (Record.Stocked capacity) :=
  all.modify fun _ _ stocked => stocked.of_restocks (.of_same rfl)

end Graph

/-- Every change leaves each pool as calls may. -/
theorem RecordChange.Does.stocked {α : Type} {g h : Graph α} {d : RecordChange}
    {said : List Notification} (does : d.Does g said h) (all : g.Stocked) : h.Stocked := by
  simp only [Graph.Stocked, does.config, does.store] at all ⊢
  cases d with
  | keep => exact all
  | fill id f => exact all.modify fun r held stocked => stocked.of_restocks (does.guard r held).2
  | edit id f => exact all.modify fun _ _ stocked => stocked.of_restocks (.of_same rfl)
  | merge delta =>
      obtain ⟨r, held, -⟩ := does.guard
      simp only [RecordChange.store, held]
      refine all.modify fun r' held' stocked => ?_
      obtain rfl := Option.some.inj (held.symm.trans held')
      exact stocked.of_restocks (g.mergedRecord_restocks r delta)
  | commit id =>
      exact all.modify fun r _ stocked => stocked.of_restocks (.of_same r.pool?_commitStaged)
  | found r => exact ((all.discard r.id).insert_iff r).mpr does.guard.2.2.2
  | remove id how =>
      exact Graph.removeWithin_keeps
        (R := fun g h : Graph α => g.store.All (Record.Stocked _) → h.store.All (Record.Stocked _))
        (fun quiet all => quiet.store ▸ all) (fun first second => second ∘ first)
        Graph.retire_stocked 3 g id all
  | evict => exact all.dropAll g.doomed

namespace Graph

variable {α : Type} {config : Config} {g : Graph α}

theorem stocked_isHeld : IsHeld fun (g : Graph α) _ h => g.Stocked → h.Stocked :=
  .ofKept (fun does => does.stocked) fun all => all

theorem Reachable.stocked (reachable : Reachable config g) : g.Stocked ∧ g.config = config := by
  obtain ⟨wire, said, run⟩ := reachable
  exact ⟨stocked_isHeld.run run .empty, run.config⟩

/-- Whatever is asked of a pool, and whatever comes to a graph with a pool for each signal, the
    instances of a pool stand in ascending order and are found just if they are there, there are no
    more of them than the capacity that it was made with, and what was never active holds nothing
    while all else holds a value and the time of its activation. -/
theorem pool_invariant (config : Config) :
    (∀ capacity start calls, Pool.IsNew capacity start → (start.run calls).1.Kept capacity) ∧
      ∀ g : Graph α, Reachable config g → ∀ id r, g.store.find? id = some r → r.kind = .signal →
        ∃ pool, r.pool? = some pool ∧ pool.Kept config.maxInstances := by
  refine ⟨fun capacity start calls new => Pool.Made.kept ⟨start, new, calls, rfl⟩, ?_⟩
  intro g reachable id r held kind
  obtain ⟨all, rfl⟩ := reachable.stocked
  cases wiring : r.wiring with
  | signal device pool =>
      have own : r.pool? = some pool := by simp only [Record.pool?, wiring]
      exact ⟨pool, own, (all id r held pool own).kept⟩
  | device | map | link => simp [Record.kind, Wiring.kind, wiring] at kind

/-- A signal is announced with fewer instances than none, and has none. -/
theorem heardOfSignal_pool_kept :
    let diff : Diff := ⟨[.set (.wellKnown .device) (.ofId ⟨1⟩),
      .set (.wellKnown .numInst) ⟨.int32 [-3], .inr (by decide)⟩]⟩
    Reachable .standard (heardOfSignal diff) ∧
      (∃ r pool, (heardOfSignal diff).store.find? ⟨2⟩ = some r ∧ r.pool? = some pool ∧
        pool.size = 0 ∧ pool.Kept 128) ∧
      ((Pool.empty 200 .oldest).run [.reserve 3]).1.Kept 200 := by
  intro diff
  have reachable := heardOfSignal_reachable diff
  obtain ⟨alone, within⟩ := pool_invariant (α := Unit) .standard
  refine ⟨reachable, ?_, alone 200 _ _ ⟨.oldest, .inl rfl⟩⟩
  have shown : ((heardOfSignal diff).store.find? ⟨2⟩).map
      (fun r => (r.kind, r.pool?.map Pool.size)) = some (.signal, some 0) := by decide
  obtain ⟨r, held, same⟩ := Option.map_eq_some_iff.mp shown
  obtain ⟨kind, sized⟩ := Prod.mk.inj same
  obtain ⟨pool, own, kept⟩ := within _ reachable ⟨2⟩ r held kind
  rw [own] at sized
  exact ⟨r, pool, held, own, Option.some.inj sized, kept⟩

end Graph

end SignalGraph
