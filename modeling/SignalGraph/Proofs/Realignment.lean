import SignalGraph.Proofs.Duplicate
import SignalGraph.Proofs.GraphPools

/-! # Pools that are aligned again

Each announcement and each update that is merged into a signal aligns its pool with what the
properties say of it, whether or not the delta speaks of that. What was done to the pool in between
is undone: slots reserved beyond the number that is declared go, and so do instances that were
released, with what they held.
-/

namespace SignalGraph

namespace Pool

variable {p : Pool} {i : Instance} {n : Nat} {size : Option Nat} {steal : Option StealMode}

/-! ## Instances that are dropped -/

/-- The first of the inactive instances are dropped, the others stay. -/
theorem mem_dropInactive_iff {is : List Instance} (descending : is.Pairwise fun i j => j.id < i.id) :
    i ∈ dropInactive n is ↔
      i ∈ is ∧ (i.isActive ∨ n ≤ is.countP fun j => !j.isActive && decide (i.id < j.id)) := by
  induction is generalizing n with
  | nil => cases n <;> simp [dropInactive]
  | cons j is ih =>
      obtain ⟨below, rest⟩ := List.pairwise_cons.mp descending
      cases n with
      | zero => simp [dropInactive]
      | succ n =>
          rw [dropInactive, List.mem_cons, List.countP_cons]
          cases active : j.isActive with
          | true =>
              simp only [↓reduceIte, List.mem_cons, ih rest, Bool.not_true, Bool.false_and]
              grind
          | false =>
              simp only [Bool.false_eq_true, ↓reduceIte, ih rest, Bool.not_false, Bool.true_and,
                decide_eq_true_eq]
              by_cases here : i = j
              · subst here
                have gone : i ∉ is := fun member => UInt64.lt_irrefl _ (below i member)
                have none : is.countP (fun k => !k.isActive && decide (i.id < k.id)) = 0 :=
                  List.countP_eq_zero.mpr fun k member => by
                    simp [UInt64.lt_asymm (below k member)]
                simp [gone, active, none, UInt64.lt_irrefl]
              · simp only [here, false_or]
                refine and_congr_right fun member => ?_
                rw [if_pos (below i member), Nat.add_le_add_iff_right]

/-! ## Pools that stay as they are -/

theorem resize_of_room (sound : p.Sound) (fewer : p.size < min n p.capacity) :
    p.resize n = p.addReserved (p.lowestUnused (min n p.capacity - p.size)) ∧
      (p.resize n).size = min n p.capacity := by
  have bounded := sound.bounded
  have room : p.size + (min n p.capacity - p.size) ≤ p.capacity := by omega
  have counted : p.size + (min n p.capacity - p.size) < UInt64.size :=
    Nat.lt_of_le_of_lt (Nat.le_trans room bounded) (by decide)
  have taken := (p.checkCapacity_eq_ok_iff _).mpr ⟨counted, room⟩
  have grown : p.resize n = p.addReserved (p.lowestUnused (min n p.capacity - p.size)) := by
    simp only [resize, if_pos fewer, reserve, Attempt.after_bind, Attempt.current_apply]
    simp only [taken, Attempt.demand_ok, Attempt.after, Attempt.change_apply, Attempt.pure_apply]
  refine ⟨grown, ?_⟩
  rw [grown, size_addReserved, length_lowestUnused counted]
  omega

/-- A pool stays as it is just if it has the size that is asked for, or is too large and full of
    active instances. -/
theorem resize_eq_self_iff (sound : p.Sound) : p.resize n = p ↔
    p.size = min n p.capacity ∨ (min n p.capacity < p.size ∧ ∀ i ∈ p.slots, i.isActive) := by
  constructor
  · intro same
    rcases Nat.lt_or_ge p.size (min n p.capacity) with fewer | enough
    · exact .inl (congrArg Pool.size same ▸ (resize_of_room sound fewer).2)
    · by_cases exact : p.size = min n p.capacity
      · exact .inl exact
      · refine .inr ⟨by omega, ?_⟩
        rw [resize_of_enough enough] at same
        have kept : dropInactive (p.size - min n p.capacity) p.slots.reverse = p.slots.reverse :=
          List.reverse_eq_iff.mp (congrArg Pool.slots same)
        have spec := dropInactive_spec (p.size - min n p.capacity) p.slots.reverse
        rw [kept] at spec
        rcases spec with fewer | ⟨-, active⟩
        · omega
        · exact fun i there => active i (List.mem_reverse.mpr there)
  · rintro (exact | ⟨larger, active⟩)
    · exact resize_eq_self (by omega) (.inl exact)
    · exact resize_eq_self (by omega) (.inr active)

/-- Whether a pool is what is asked for, or cannot come any closer. -/
structure IsAligned (size : Option Nat) (steal : Option StealMode) (p : Pool) : Prop where
  size : ∀ n, size = some n →
    p.size = min n p.capacity ∨ (min n p.capacity < p.size ∧ ∀ i ∈ p.slots, i.isActive)
  steal : ∀ mode, steal = some mode → p.steal = mode

theorem setSteal_eq_self_iff {mode : StealMode} : p.setSteal mode = p ↔ p.steal = mode := by
  constructor
  · intro same
    exact (congrArg Pool.steal same).symm
  · rintro rfl
    rfl

/-- A pool that is aligned once more stays as it is just if it is aligned. -/
theorem sync_eq_self_iff (sound : p.Sound) : p.sync size steal = p ↔ p.IsAligned size steal := by
  cases size with
  | none =>
      cases steal with
      | none => exact ⟨fun _ => ⟨nofun, nofun⟩, fun _ => rfl⟩
      | some mode =>
          refine setSteal_eq_self_iff.trans
            ⟨fun same => ⟨nofun, ?_⟩, fun aligned => aligned.steal mode rfl⟩
          rintro _ ⟨⟩
          exact same
  | some n =>
      cases steal with
      | none =>
          refine (resize_eq_self_iff sound).trans ⟨fun sized => ⟨?_, nofun⟩,
            fun aligned => aligned.size n rfl⟩
          rintro _ ⟨⟩
          exact sized
      | some mode =>
          have both : (p.resize n).setSteal mode = p ↔ p.resize n = p ∧ p.steal = mode := by
            constructor
            · intro same
              have steals : p.steal = mode := (congrArg Pool.steal same).symm
              refine ⟨?_, steals⟩
              rwa [← resize_setSteal, setSteal_eq_self_iff.mpr steals] at same
            · rintro ⟨sized, steals⟩
              rw [sized, setSteal_eq_self_iff.mpr steals]
          refine both.trans ?_
          rw [resize_eq_self_iff sound]
          constructor
          · rintro ⟨sized, steals⟩
            exact ⟨fun _ same => Option.some.inj same ▸ sized,
              fun _ same => Option.some.inj same ▸ steals⟩
          · exact fun aligned => ⟨aligned.size n rfl, aligned.steal mode rfl⟩

/-! ## Instances that stay -/

/-- Whether an instance outlasts that a size is asked of its pool: it is active, or there are enough
    inactive instances above it to give up first. -/
def Outlasts (size : Option Nat) (p : Pool) (i : Instance) : Prop :=
  i.isActive ∨ ∀ n, size = some n →
    p.size - min n p.capacity ≤ p.slots.countP fun j => !j.isActive && decide (i.id < j.id)

theorem mem_addReserved (there : i ∈ p.slots) (ids : List UInt64) : i ∈ (p.addReserved ids).slots :=
  List.foldlRecOn ids _ (motive := fun q : Pool => i ∈ q.slots) there
    fun _ there _ _ => mem_insert.mpr (.inr there)

theorem mem_resize_iff (sound : p.Sound) (there : i ∈ p.slots) :
    i ∈ (p.resize n).slots ↔ p.Outlasts (some n) i := by
  rcases Nat.lt_or_ge p.size (min n p.capacity) with fewer | enough
  · refine iff_of_true ?_ (.inr ?_)
    · rw [(resize_of_room sound fewer).1]
      exact mem_addReserved there _
    · rintro _ ⟨⟩
      omega
  · rw [resize_of_enough enough, List.mem_reverse,
      mem_dropInactive_iff (List.pairwise_reverse.mpr sound.ascending)]
    simp only [List.mem_reverse, there, true_and, List.countP_reverse, Outlasts, Option.some.injEq,
      forall_eq']

/-- Which instances are there once a pool is aligned, each with all that it holds. -/
theorem mem_sync_iff (sound : p.Sound) (there : i ∈ p.slots) :
    i ∈ (p.sync size steal).slots ↔ p.Outlasts size i := by
  have slots : (p.sync size steal).slots = (p.sync size none).slots := by cases steal <;> rfl
  rw [slots]
  cases size with
  | none => exact iff_of_true there (.inr nofun)
  | some n => exact mem_resize_iff sound there

end Pool

/-- Whether a change is about how many instances a signal has, or which of them gives way. -/
def Change.Aligns (c : Change) : Prop := c.key = .wellKnown .numInst ∨ c.key = .wellKnown .steal

/-- What is asked of a pool stays the same where the changes are about other things. -/
theorem Table.asks_afterChanges (t : Table) {cs : List Change} (unrelated : ∀ c ∈ cs, ¬ c.Aligns)
    (config : Config) :
    Record.poolSize? (t.afterChanges cs) config = Record.poolSize? t config ∧
      Record.stealMode? (t.afterChanges cs) = Record.stealMode? t := by
  have same {key : Key} (aligns : ∀ c : Change, c.key = key → c.Aligns) :
      (t.afterChanges cs).get? key = t.get? key := by
    have unfelt := entry?_afterChanges_of_unfelt
      (fun c member felt => unrelated c member (aligns c felt.2)) t
    rw [Table.get?, unfelt, Table.get?]
  exact ⟨by rw [Record.poolSize?, same fun _ => .inl, Record.poolSize?],
    by rw [Record.stealMode?, same fun _ => .inr, Record.stealMode?]⟩

namespace Graph

variable {α : Type} {g h : Graph α} {delta : Delta} {r : Record} {config : Config}

/-- A pool is aligned with every merge, with what its signal says of it then. -/
theorem pool?_afterMerge (held : g.store.find? delta.id = some r)
    (unrelated : ∀ c ∈ delta.diff.changes, ¬ c.Aligns) :
    ∃ s, (g.afterMerge r delta).store.find? delta.id = some s ∧
      s.pool? = r.pool?.map
        (Pool.sync (Record.poolSize? r.properties g.config) (Record.stealMode? r.properties)) := by
  have takes := mergedRecord_takes g r delta
  obtain ⟨size, steal⟩ := r.properties.asks_afterChanges unrelated g.config
  have pool := takes.pool
  rw [takes.properties, size, steal] at pool
  have there := find?_afterMerge held
  split at there <;> exact ⟨_, there, pool⟩

theorem exists_pool_of_signal (signal : r.kind = .signal) : ∃ p, r.pool? = some p := by
  cases wiring : r.wiring with
  | signal device pool => exact ⟨pool, by rw [Record.pool?, wiring]⟩
  | device | map | link => simp [Record.kind, Wiring.kind, wiring] at signal

/-- An announcement or an update that says nothing of how many instances a live signal has, nor of
    which gives way, changes its pool unless the pool is aligned with what was said before. Then just
    those instances are gone, with all that they held, that do not outlast the number declared:
    inactive ones, from above. -/
theorem unrelated_delivery (reachable : Reachable config g) {type : EventType}
    (heard : type = .announce ∨ type = .update) (held : g.store.find? delta.id = some r)
    (live : r.isLive) (signal : r.kind = .signal)
    (unrelated : ∀ c ∈ delta.diff.changes, ¬ c.Aligns) :
    ∃ p, r.pool? = some p ∧ (∀ e h, applyEvent type delta g = .error e h → h = g) ∧
      ∀ how h, applyEvent type delta g = .ok how h →
        ∃ s q, h.store.find? delta.id = some s ∧ s.pool? = some q ∧
          (q = p ↔ p.IsAligned (Record.poolSize? r.properties config)
            (Record.stealMode? r.properties)) ∧
          ∀ i ∈ p.slots, i ∈ q.slots ↔ p.Outlasts (Record.poolSize? r.properties config) i := by
  have same : applyEvent (α := α) type delta = upsert delta := by
    rcases heard with rfl | rfl <;> rfl
  rw [same]
  obtain ⟨p, own⟩ := exists_pool_of_signal signal
  obtain ⟨all, rfl⟩ := reachable.stocked
  have sound := (all delta.id r held p own).kept.sound
  have upserts := upsert_upserts delta g
  refine ⟨p, own, ?_, ?_⟩
  · intro e h refused
    rw [refused] at upserts
    cases upserts
    rfl
  · intro how h accepted
    rw [accepted] at upserts
    cases upserts with
    | created vacant => exact absurd live (by simp [vacant r held])
    | @merged r' held' =>
        obtain rfl := Option.some.inj (held.symm.trans held')
        obtain ⟨s, there, pool⟩ := pool?_afterMerge held unrelated
        rw [own, Option.map_some] at pool
        exact ⟨s, _, there, pool, Pool.sync_eq_self_iff sound,
          fun i within => Pool.mem_sync_iff sound within⟩

theorem filled_int32 (n : Int32) :
    (Payload.int32 [n]).kind = .null ∨ (Payload.int32 [n]).size ≠ 0 := .inr Nat.one_ne_zero

/-- A signal that declares how many instances it has, with more reserved; instance 1 was given a value
    and a tag, and released. -/
def voiced (declared : Int32) (reserved : Nat) : Graph Unit :=
  ((((heardOfSignal ⟨[.set (.wellKnown .device) (.ofId ⟨1⟩),
    .set (.wellKnown .numInst) ⟨.int32 [declared], filled_int32 declared⟩]⟩).call
      (.reserve ⟨2⟩ reserved)).call (.update ⟨2⟩ 1 (.ofId ⟨7⟩))).call (.tag ⟨2⟩ 1 (some 5))).call
        (.release ⟨2⟩ 1)

theorem voiced_reachable (declared : Int32) (reserved : Nat) :
    Reachable .standard (voiced declared reserved) :=
  .call (.call (.call (.call (heardOfSignal_reachable _) _) _) _) _

/-- It is said of a signal which color it has, and nothing else. -/
def colored : Delta where
  kind := .signal
  id := ⟨2⟩
  diff := ⟨[.set (.named "color") (.ofId ⟨3⟩)]⟩
  slots := []

theorem colored_unrelated : ∀ c ∈ colored.diff.changes, ¬ c.Aligns := by
  intro c member
  rw [List.mem_singleton.mp member]
  simp [Change.Aligns, Change.key]

/-- The instance goes on to hold its value and its tag where it is one of those declared. -/
theorem voiced_stays : ∃ h r s p, (voiced 2 0).store.find? ⟨2⟩ = some r ∧ r.pool? = some p ∧
    applyEvent .update colored (voiced 2 0) = .ok (some .modified) h ∧
    h.store.find? ⟨2⟩ = some s ∧ s.pool? = some p ∧
    p.get? 1 = some ⟨1, .free, some ⟨.ofId ⟨7⟩, ⟨0, 0⟩⟩, some 5, some ⟨0, 0⟩⟩ := by
  obtain ⟨r, held, kind, live, number, steal, p, own, size, shown⟩ : ∃ r,
      (voiced 2 0).store.find? colored.id = some r ∧ r.kind = .signal ∧ r.isLive ∧
      Record.poolSize? r.properties .standard = some 2 ∧ Record.stealMode? r.properties = none ∧
      ∃ p, r.pool? = some p ∧ p.size = min 2 p.capacity ∧
        p.get? 1 = some ⟨1, .free, some ⟨.ofId ⟨7⟩, ⟨0, 0⟩⟩, some 5, some ⟨0, 0⟩⟩ :=
    ⟨_, rfl, rfl, rfl, by decide, by decide, _, rfl, by decide, by decide⟩
  obtain ⟨p', own', -, taken⟩ :=
    unrelated_delivery (voiced_reachable 2 0) (.inr rfl) held live kind colored_unrelated
  obtain rfl := Option.some.inj (own.symm.trans own')
  obtain ⟨s, q, there, pool, same, -⟩ := taken _ _ rfl
  have aligned : p.IsAligned (some 2) none := by
    refine ⟨?_, nofun⟩
    rintro _ ⟨⟩
    exact .inl size
  rw [same.mpr (number ▸ steal ▸ aligned)] at pool
  exact ⟨_, r, s, p, held, own, rfl, there, pool, shown⟩

/-- The instance is gone, with its value and its tag, where it is not one of those declared. -/
theorem voiced_silenced : Reachable .standard (voiced 1 1) ∧
    (∀ c ∈ colored.diff.changes, ¬ c.Aligns) ∧ ∃ h r s p q,
      (voiced 1 1).store.find? ⟨2⟩ = some r ∧ r.isLive ∧ r.kind = .signal ∧ r.pool? = some p ∧
      applyEvent .update colored (voiced 1 1) = .ok (some .modified) h ∧
      h.store.find? ⟨2⟩ = some s ∧ s.pool? = some q ∧
      p.get? 1 = some ⟨1, .free, some ⟨.ofId ⟨7⟩, ⟨0, 0⟩⟩, some 5, some ⟨0, 0⟩⟩ ∧ q.get? 1 = none :=
  ⟨voiced_reachable 1 1, colored_unrelated, _, _, _, _, _, rfl, rfl, rfl, rfl, rfl, rfl, rfl,
    by decide, by decide⟩

end Graph

end SignalGraph
