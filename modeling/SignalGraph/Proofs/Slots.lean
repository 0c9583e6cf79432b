import SignalGraph.Proofs.Pools

/-! # Slots of pools

What holds of a pool whatever is done with it. Its instances stand in ascending order, so that each
is found at its place; there are no more of them than its capacity allows, which never changes; and
an instance has a value and a time of activation just if it was ever active.
-/

namespace SignalGraph

/-- Whether an instance that was never active holds nothing, and one that was holds a value and the
    time of its activation. -/
def Instance.Sound (i : Instance) : Prop :=
  match i.state with
  | .reserved => i.last = none ∧ i.activated = none
  | .active | .free => i.last.isSome ∧ i.activated.isSome

theorem Instance.play_of_active {i : Instance} (active : i.isActive) (sample : Sample) :
    i.play sample = { i with last := some sample } := if_pos active

theorem Instance.play_of_idle {i : Instance} (idle : i.isActive = false) (sample : Sample) :
    i.play sample =
      { i with state := .active, activated := some sample.time, last := some sample } :=
  if_neg (Bool.not_eq_true _ ▸ idle)

theorem Instance.id_play (i : Instance) (sample : Sample) : (i.play sample).id = i.id := by
  simp only [play]
  split <;> rfl

/-- With a value, an instance has all that an active one has. -/
theorem Instance.Sound.play {i : Instance} (sound : i.Sound) (sample : Sample) :
    (i.play sample).Sound := by
  simp only [Instance.play]
  split
  · rename_i active
    have state : i.state = .active := by simpa [isActive] using active
    simp only [Instance.Sound, state] at sound ⊢
    exact ⟨rfl, sound.2⟩
  · exact ⟨rfl, rfl⟩

namespace Pool

variable {p : Pool} {id : UInt64} {i : Instance}

/-! ## Ascending slots -/

def Ascending (p : Pool) : Prop := p.slots.Pairwise fun i j => i.id < j.id

/-- Halving divides ascending instances into those below a number and the others. -/
theorem countBelow_divides {is : List Instance} {halvings : Nat}
    (ascending : is.Pairwise fun i j => i.id < j.id) (enough : is.length ≤ halvings) :
    ∃ low high, is = low ++ high ∧ countBelow id halvings is = low.length ∧
      (∀ i ∈ low, i.id < id) ∧ ∀ i ∈ high, id ≤ i.id := by
  induction halvings generalizing is with
  | zero =>
      obtain rfl := List.length_eq_zero_iff.mp (Nat.le_zero.mp enough)
      exact ⟨[], [], rfl, rfl, by simp, by simp⟩
  | succ halvings ih =>
      have whole := List.take_append_drop (is.length / 2) is
      have lengths := List.length_take (l := is) (i := is.length / 2)
      simp only [countBelow]
      split
      · rename_i none
        have empty : is = [] := List.length_eq_zero_iff.mp (by
          have := List.drop_eq_nil_iff.mp none
          omega)
        exact ⟨[], [], empty, rfl, by simp, by simp⟩
      · rename_i i above middle
        rw [middle] at whole
        have total := congrArg List.length whole
        rw [List.length_append, List.length_cons, lengths] at total
        rw [← whole] at ascending
        obtain ⟨lower, upper, apart⟩ := List.pairwise_append.mp ascending
        obtain ⟨first, rest⟩ := List.pairwise_cons.mp upper
        split
        · rename_i below
          obtain ⟨low, high, parts, count, lows, highs⟩ := ih rest (by omega)
          refine ⟨is.take (is.length / 2) ++ i :: low, high, ?_, ?_, ?_, highs⟩
          · rw [List.append_assoc, List.cons_append, ← parts, whole]
          · rw [count, List.length_append, List.length_cons, lengths]
            omega
          · intro j member
            rcases List.mem_append.mp member with early | late
            · exact UInt64.lt_trans (apart j early i List.mem_cons_self) below
            · rcases List.mem_cons.mp late with rfl | later
              · exact below
              · exact lows j later
        · rename_i notBelow
          obtain ⟨low, high, parts, count, lows, highs⟩ := ih lower (by omega)
          refine ⟨low, high ++ i :: above, ?_, count, lows, ?_⟩
          · rw [← List.append_assoc, ← parts, whole]
          · intro j member
            rcases List.mem_append.mp member with early | late
            · exact highs j early
            · rcases List.mem_cons.mp late with rfl | later
              · exact UInt64.not_lt.mp notBelow
              · exact UInt64.le_trans (UInt64.not_lt.mp notBelow) (UInt64.le_of_lt (first j later))

theorem Ascending.divides (ascending : p.Ascending) (id : UInt64) :
    ∃ low high, p.slots = low ++ high ∧ p.place id = low.length ∧
      (∀ i ∈ low, i.id < id) ∧ ∀ i ∈ high, id ≤ i.id :=
  countBelow_divides ascending (Nat.le_refl _)

/-- An instance is found just if it is there. -/
theorem Ascending.get?_eq_some_iff (ascending : p.Ascending) :
    p.get? id = some i ↔ i ∈ p.slots ∧ i.id = id := by
  refine ⟨mem_of_get?, ?_⟩
  rintro ⟨member, rfl⟩
  obtain ⟨low, high, slots, place, lows, highs⟩ := ascending.divides i.id
  rw [slots] at member
  have upper : i ∈ high := (List.mem_append.mp member).resolve_left fun early =>
    UInt64.lt_irrefl _ (lows i early)
  rw [Ascending, slots] at ascending
  have order := (List.pairwise_append.mp ascending).2.1
  cases high with
  | nil => exact absurd upper List.not_mem_nil
  | cons j rest =>
      -- What comes first from the place on is not below the number, so it is the instance itself.
      obtain rfl : i = j := (List.mem_cons.mp upper).resolve_right fun later =>
        UInt64.not_lt.mpr (highs j List.mem_cons_self) ((List.pairwise_cons.mp order).1 i later)
      simp [get?, place, slots]

theorem Ascending.get?_eq_none_iff (ascending : p.Ascending) :
    p.get? id = none ↔ ∀ i ∈ p.slots, i.id ≠ id := by
  rw [Option.eq_none_iff_forall_ne_some]
  simp only [ne_eq, ascending.get?_eq_some_iff, not_and]

theorem Ascending.unique (ascending : p.Ascending) {i j : Instance} (there : i ∈ p.slots)
    (other : j ∈ p.slots) (same : i.id = j.id) : i = j :=
  Option.some.inj <| (ascending.get?_eq_some_iff.mpr ⟨there, same⟩).symm.trans
    (ascending.get?_eq_some_iff.mpr ⟨other, rfl⟩)

theorem Ascending.contains_iff (ascending : p.Ascending) :
    p.contains id ↔ ∃ i ∈ p.slots, i.id = id := by
  simp only [contains, Option.isSome_iff_exists, ascending.get?_eq_some_iff]

theorem Ascending.ofSublist (ascending : p.Ascending) {slots : List Instance}
    (fewer : slots.Sublist p.slots) : Ascending { p with slots } :=
  List.Pairwise.sublist fewer ascending

theorem Ascending.modify (ascending : p.Ascending) {f : Instance → Instance}
    (keeps : ∀ i, (f i).id = i.id) : (p.modify id f).Ascending := by
  refine List.pairwise_map.mpr (List.Pairwise.imp ?_ ascending)
  intro i j below
  split <;> split <;> simpa only [keeps] using below

theorem Ascending.insert (ascending : p.Ascending) (fresh : ∀ j ∈ p.slots, j.id ≠ i.id) :
    (p.insert i).Ascending := by
  obtain ⟨low, high, slots, place, lows, highs⟩ := ascending.divides i.id
  rw [Ascending, slots] at ascending
  obtain ⟨lower, upper, apart⟩ := List.pairwise_append.mp ascending
  have beyond (j : Instance) (member : j ∈ high) : i.id < j.id :=
    UInt64.lt_of_le_of_ne (highs j member)
      (fresh j (slots ▸ List.mem_append_right low member)).symm
  simp only [Ascending, Pool.insert, slots, place, List.take_left, List.drop_left]
  refine List.pairwise_append.mpr ⟨lower, List.pairwise_cons.mpr ⟨beyond, upper⟩, ?_⟩
  intro j early k late
  rcases List.mem_cons.mp late with rfl | later
  · exact lows j early
  · exact apart j early k later

theorem mem_insert {j : Instance} : j ∈ (p.insert i).slots ↔ j = i ∨ j ∈ p.slots := by
  have whole : j ∈ p.slots ↔ j ∈ p.slots.take (p.place i.id) ∨ j ∈ p.slots.drop (p.place i.id) := by
    rw [← List.mem_append, List.take_append_drop]
  simp only [Pool.insert, List.mem_append, List.mem_cons, whole]
  tauto

theorem mem_modify {f : Instance → Instance} {j : Instance} (member : j ∈ (p.modify id f).slots) :
    ∃ i ∈ p.slots, (i.id = id ∧ j = f i) ∨ (i.id ≠ id ∧ j = i) := by
  obtain ⟨i, there, rfl⟩ := List.mem_map.mp member
  refine ⟨i, there, ?_⟩
  by_cases own : i.id = id <;> simp [own]

theorem mem_erase {j : Instance} : j ∈ (p.erase id).slots ↔ j ∈ p.slots ∧ j.id ≠ id := by
  simp [erase]

/-! ## Pools in order -/

/-- Whether the instances of a pool are in ascending order, no more than its capacity allows, and
    that no more than any pool can have. -/
structure InOrder (p : Pool) : Prop where
  ascending : p.Ascending
  fits : p.size ≤ p.capacity
  bounded : p.capacity ≤ maxCapacity

namespace InOrder

theorem ofSublist (order : p.InOrder) {slots : List Instance} (fewer : slots.Sublist p.slots) :
    InOrder { p with slots } where
  ascending := order.ascending.ofSublist fewer
  fits := Nat.le_trans fewer.length_le order.fits
  bounded := order.bounded

theorem modify (order : p.InOrder) {f : Instance → Instance} (keeps : ∀ i, (f i).id = i.id) :
    (p.modify id f).InOrder where
  ascending := order.ascending.modify keeps
  fits := by simpa [Pool.modify, size] using order.fits
  bounded := order.bounded

theorem insert (order : p.InOrder) (fresh : ∀ j ∈ p.slots, j.id ≠ i.id)
    (room : p.size < p.capacity) : (p.insert i).InOrder where
  ascending := order.ascending.insert fresh
  fits := by
    rw [size_insert]
    exact room
  bounded := order.bounded

end InOrder

/-! ## Sound pools -/

structure Sound (p : Pool) : Prop where
  ascending : p.Ascending
  instances : ∀ i ∈ p.slots, i.Sound
  fits : p.size ≤ p.capacity
  bounded : p.capacity ≤ maxCapacity

namespace Sound

theorem inOrder (sound : p.Sound) : p.InOrder := ⟨sound.ascending, sound.fits, sound.bounded⟩

theorem empty (capacity : Nat) (steal : StealMode) : (empty capacity steal).Sound :=
  ⟨.nil, by simp [Pool.empty], Nat.zero_le _, Nat.min_le_right ..⟩

end Sound

end Pool

end SignalGraph
