import SignalGraph.Proofs.Allocation
import SignalGraph.Proofs.Realignment

/-! # Slots that come and go

Slots are reserved under the numbers asked for, or under the lowest that are free, and either all of
them or none. A pool that is to be smaller loses its highest inactive slots, and no more than it has
to. Nothing else is touched on the way.
-/

namespace SignalGraph

/-- What is below a member of the first of some ascending numbers is one of the first too. -/
theorem mem_take_of_lt {numbers : List UInt64} (ascending : numbers.Pairwise (· < ·)) {n : Nat}
    {id other : UInt64} (among : id ∈ numbers.take n) (member : other ∈ numbers)
    (below : other < id) : other ∈ numbers.take n := by
  rw [← List.take_append_drop n numbers] at ascending member
  refine (List.mem_append.mp member).resolve_right fun later => ?_
  exact UInt64.lt_asymm below ((List.pairwise_append.mp ascending).2.2 id among other later)

namespace Pool

variable {p q : Pool} {capacity n : Nat} {ids : List UInt64}

/-! ## New slots -/

/-- Whether a pool is another with instances reserved under some numbers, and nothing else changed. -/
structure Gains (p : Pool) (ids : List UInt64) (q : Pool) : Prop where
  steal : q.steal = p.steal
  capacity : q.capacity = p.capacity
  ascending : q.Ascending
  slots : q.slots.Perm (ids.map Instance.reserved ++ p.slots)

theorem Gains.size (gains : p.Gains ids q) : q.size = ids.length + p.size := by
  rw [Pool.size, gains.slots.length_eq, List.length_append, List.length_map, Pool.size]

theorem steal_addReserved (p : Pool) (ids : List UInt64) : (p.addReserved ids).steal = p.steal := by
  induction ids generalizing p with
  | nil => rfl
  | cons id ids ih => exact ih (p.insert (.reserved id))

theorem slots_addReserved (p : Pool) (ids : List UInt64) :
    (p.addReserved ids).slots.Perm (ids.map Instance.reserved ++ p.slots) := by
  induction ids generalizing p with
  | nil => exact .refl _
  | cons id ids ih =>
      have later : (p.addReserved (id :: ids)).slots.Perm
          (ids.map Instance.reserved ++ (p.insert (.reserved id)).slots) := ih _
      have first := (slots_insert p (.reserved id)).append_left (ids.map Instance.reserved)
      exact (later.trans first).trans List.perm_middle

theorem Sound.gains_addReserved (sound : p.Sound) (distinct : ids.Nodup)
    (absent : ∀ id ∈ ids, ∀ j ∈ p.slots, j.id ≠ id) (room : p.size + ids.length ≤ p.capacity) :
    p.Gains ids (p.addReserved ids) :=
  ⟨p.steal_addReserved ids, p.capacity_addReserved ids,
    (sound.steps (addReserved_steps distinct absent room)).ascending, p.slots_addReserved ids⟩

/-! ## Numbers -/

/-- Whether some numbers are, in ascending order, the lowest `n` that no instance has. -/
structure AreLowest (p : Pool) (n : Nat) (ids : List UInt64) : Prop where
  ascending : ids.Pairwise (· < ·)
  length : ids.length = n
  unused : ∀ id ∈ ids, ∀ j ∈ p.slots, j.id ≠ id
  lowest : ∀ id ∈ ids, ∀ other, other < id → (∀ j ∈ p.slots, j.id ≠ other) → other ∈ ids

/-- Whether some numbers are, in ascending order and each once, those of a list that no instance
    has. -/
structure AreFresh (p : Pool) (ids fresh : List UInt64) : Prop where
  ascending : fresh.Pairwise (· < ·)
  mem_iff : ∀ id, id ∈ fresh ↔ id ∈ ids ∧ ∀ j ∈ p.slots, j.id ≠ id

theorem Ascending.areLowest_lowestUnused (ascending : p.Ascending)
    (counted : p.size + n < UInt64.size) : p.AreLowest n (p.lowestUnused n) := by
  have order : (((List.range (p.size + n)).map UInt64.ofNat).filter
      fun id => !p.contains id).Pairwise (· < ·) := (numbers_ascending counted).filter _
  refine ⟨order.sublist (List.take_sublist ..), length_lowestUnused counted, ?_, ?_⟩
  · intro id member
    exact ascending.not_contains_iff.mp (List.mem_filter.mp (List.mem_of_mem_take member)).2
  · intro id member other below absent
    refine mem_take_of_lt order member ?_ below
    refine List.mem_filter.mpr ⟨?_, ascending.not_contains_iff.mpr absent⟩
    -- What is below one of the numbers that are looked through is one of them.
    obtain ⟨k, among, rfl⟩ :=
      List.mem_map.mp (List.mem_filter.mp (List.mem_of_mem_take member)).1
    have small := List.mem_range.mp among
    have bound := UInt64.lt_iff_toNat_lt.mp below
    rw [UInt64.toNat_ofNat_of_lt' (Nat.lt_trans small counted)] at bound
    exact List.mem_map.mpr ⟨other.toNat, List.mem_range.mpr (Nat.lt_trans bound small), by simp⟩

theorem Sound.gains_lowestUnused (sound : p.Sound) (room : p.size + n ≤ p.capacity) :
    p.AreLowest n (p.lowestUnused n) ∧
      p.Gains (p.lowestUnused n) (p.addReserved (p.lowestUnused n)) := by
  have counted : p.size + n < UInt64.size :=
    Nat.lt_of_le_of_lt (Nat.le_trans room sound.bounded) (by decide)
  have lowest := sound.ascending.areLowest_lowestUnused counted
  refine ⟨lowest, sound.gains_addReserved (nodup_of_ascending lowest.ascending) lowest.unused ?_⟩
  rw [lowest.length]
  exact room

theorem Ascending.areFresh (ascending : p.Ascending) (ids : List UInt64) :
    p.AreFresh ids ((ids.filter fun id => !p.contains id).mergeSort (· ≤ ·)).eraseDups := by
  have sorted : ((ids.filter fun id => !p.contains id).mergeSort (· ≤ ·)).Pairwise (· ≤ ·) := by
    refine (@List.pairwise_mergeSort _ (fun a b => decide (a ≤ b)) ?_ ?_ _).imp of_decide_eq_true
    · exact fun a b c first second =>
        decide_eq_true (UInt64.le_trans (of_decide_eq_true first) (of_decide_eq_true second))
    · exact fun a b => by simpa using UInt64.le_total a b
  refine ⟨?_, fun id => ?_⟩
  · exact (sorted.sublist (eraseDups_sublist _)).imp₂
      (fun _ _ below apart => UInt64.lt_of_le_of_ne below apart) (nodup_eraseDups _)
  · rw [List.mem_eraseDups, List.mem_mergeSort, List.mem_filter, ascending.not_contains_iff]

/-! ## Reservation -/

/-- What comes of asking for `n` new slots, under numbers that are to be as described: all of them if
    the capacity allows it, else none. Where there would be more slots than can be counted, whoever
    asks cannot go on. -/
inductive Reserves (p : Pool) (n : Nat) (Wanted : List UInt64 → Prop) :
    EStateM.Result Error Pool (List UInt64) → Prop
  | taken {ids : List UInt64} {q : Pool} (room : p.size + n ≤ p.capacity) (length : ids.length = n)
      (wanted : Wanted ids) (gains : p.Gains ids q) : Reserves p n Wanted (.ok ids q)
  | refused (crowded : p.capacity < p.size + n) (counted : p.size + n < UInt64.size) :
      Reserves p n Wanted (.error (.capacity n p.capacity) p)
  | uncounted (beyond : UInt64.size ≤ p.size + n) : Reserves p n Wanted (.error .countOverflow p)

theorem Sound.reserves (sound : p.Sound) (n : Nat) :
    p.Reserves n (p.AreLowest n) (reserve n p) := by
  simp only [reserve, Attempt.bind_apply, Attempt.current_apply]
  rcases p.checkCapacity_cases n with
    ⟨beyond, check⟩ | ⟨counted, crowded, check⟩ | ⟨counted, room, check⟩
  · simpa only [check, Attempt.demand_error] using .uncounted beyond
  · simpa only [check, Attempt.demand_error] using .refused crowded counted
  · obtain ⟨lowest, gains⟩ := sound.gains_lowestUnused room
    simp only [check, Attempt.demand_ok, Attempt.change_apply, Attempt.pure_apply]
    exact .taken room lowest.length lowest gains

theorem Sound.reservesIds (sound : p.Sound) (ids : List UInt64) :
    ∃ fresh, p.AreFresh ids fresh ∧ p.Reserves fresh.length (· = fresh) (reserveIds ids p) := by
  have areFresh := sound.ascending.areFresh ids
  simp only [reserveIds, Attempt.bind_apply, Attempt.current_apply]
  generalize ((ids.filter fun id => !p.contains id).mergeSort (· ≤ ·)).eraseDups = fresh at areFresh
  refine ⟨fresh, areFresh, ?_⟩
  rcases p.checkCapacity_cases fresh.length with
    ⟨beyond, check⟩ | ⟨counted, crowded, check⟩ | ⟨counted, room, check⟩
  · simpa only [check, Attempt.demand_error] using .uncounted beyond
  · simpa only [check, Attempt.demand_error] using .refused crowded counted
  · simp only [check, Attempt.demand_ok, Attempt.change_apply, Attempt.pure_apply]
    exact .taken room rfl rfl (sound.gains_addReserved (nodup_of_ascending areFresh.ascending)
      (fun id member => ((areFresh.mem_iff id).mp member).2) room)

/-- Whatever was asked of a pool before, it reserves the lowest numbers that are free, or those of a
    list that are: all of them where the capacity allows it, and else none. -/
theorem reservations_whole (made : p.Made capacity) :
    (∀ n, p.Reserves n (p.AreLowest n) (reserve n p)) ∧
      ∀ ids, ∃ fresh, p.AreFresh ids fresh ∧
        p.Reserves fresh.length (· = fresh) (reserveIds ids p) :=
  ⟨made.kept.sound.reserves, made.kept.sound.reservesIds⟩

/-- A pool that was left with one slot, numbered 1. -/
def gapped : Pool := ⟨[.reserved 1], .none, 6⟩

/-- The numbers around the slot are reserved, and there is no room for six more. -/
theorem gapped_reserved :
    gapped.Made 6 ∧ (∃ q, reserve 2 gapped = .ok [0, 2] q ∧ gapped.Gains [0, 2] q) ∧
      reserve 6 gapped = .error (.capacity 6 6) gapped := by
  have made : gapped.Made 6 := ⟨_, ⟨.none, .inl rfl⟩, [.reserve 2, .remove 0], rfl⟩
  have took : reserve 2 gapped =
      .ok [0, 2] ⟨[.reserved 0, .reserved 1, .reserved 2], .none, 6⟩ := rfl
  have reserves := (reservations_whole made).1 2
  rw [took] at reserves
  cases reserves with
  | taken room length wanted gains => exact ⟨made, ⟨_, took, gains⟩, rfl⟩

/-- A pool that has a slot cannot be asked for all the slots that can be counted: that is more than
    its capacity, but it is not told so. -/
theorem all_slots_uncounted :
    let p : Pool := ⟨[.reserved 0], .none, 4⟩
    p.Made 4 ∧ p.capacity < p.size + (UInt64.size - 1) ∧
      reserve (UInt64.size - 1) p = .error .countOverflow p :=
  ⟨⟨_, ⟨.none, .inr ⟨1, rfl⟩⟩, [], rfl⟩, by decide, rfl⟩

/-! ## Sizes asked for -/

theorem Sound.resize_of_fits (sound : p.Sound) (fits : p.size ≤ min n p.capacity) :
    p.resize n = p.addReserved (p.lowestUnused (min n p.capacity - p.size)) := by
  rcases Nat.lt_or_eq_of_le fits with fewer | same
  · exact (resize_of_room sound fewer).1
  · rw [resize_eq_self (Nat.le_of_eq same.symm) (.inl same), same, Nat.sub_self, lowestUnused,
      List.take_zero]
    rfl

/-- Whether a pool is another without its highest inactive instances, and nothing else changed. -/
structure Sheds (p q : Pool) : Prop where
  steal : q.steal = p.steal
  capacity : q.capacity = p.capacity
  slots : q.slots.Sublist p.slots
  keeps : ∀ i ∈ p.slots, i.isActive → i ∈ q.slots
  highest : ∀ i ∈ p.slots, i ∉ q.slots →
    ∀ j ∈ p.slots, j.isActive = false → i.id < j.id → j ∉ q.slots

theorem activeCount_le_size (p : Pool) : p.activeCount ≤ p.size := List.countP_le_length

theorem Sheds.activeCount (sheds : p.Sheds q) (ascending : p.Ascending) :
    q.activeCount = p.activeCount := by
  have distinct : p.slots.Nodup := by
    refine List.Pairwise.imp (fun {i j} below => ?_) ascending
    rintro rfl
    exact UInt64.lt_irrefl _ below
  refine Nat.le_antisymm (sheds.slots.countP_le ..) ?_
  rw [Pool.activeCount, List.countP_eq_length_filter, Pool.activeCount, List.countP_eq_length_filter]
  refine (List.subperm_of_subset (distinct.filter _) fun i member => ?_).length_le
  obtain ⟨there, active⟩ := List.mem_filter.mp member
  exact List.mem_filter.mpr ⟨sheds.keeps i there active, active⟩

theorem Sound.resize_sheds (sound : p.Sound) (crowded : min n p.capacity < p.size) :
    p.Sheds (p.resize n) := by
  have enough := Nat.le_of_lt crowded
  have outlasts {i : Instance} (there : i ∈ p.slots) := mem_resize_iff (n := n) sound there
  have resized := resize_of_enough enough
  refine ⟨?_, ?_, ?_, ?_, ?_⟩
  · rw [resized]
  · rw [resized]
  · rw [resized]
    have fewer := (dropInactive_sublist (p.size - min n p.capacity) p.slots.reverse).reverse
    rwa [List.reverse_reverse] at fewer
  · exact fun i there active => (outlasts there).mpr (.inl active)
  · intro i there gone j there' idle above stays
    refine gone ((outlasts there).mpr (.inr ?_))
    rintro _ ⟨⟩
    have high := ((outlasts there').mp stays).resolve_left (by simp [idle]) n rfl
    refine Nat.le_trans high (List.countP_mono_left fun k _ => ?_)
    simp only [Bool.and_eq_true, decide_eq_true_eq]
    exact And.imp_right (UInt64.lt_trans above)

theorem Sound.size_resize (sound : p.Sound) (crowded : min n p.capacity < p.size) :
    (p.resize n).size = max (min n p.capacity) p.activeCount := by
  have sheds := sound.resize_sheds crowded
  have actives := sheds.activeCount sound.ascending
  have bound := activeCount_le_size (p.resize n)
  have spec := dropInactive_spec (p.size - min n p.capacity) p.slots.reverse
  rw [resize_of_enough (Nat.le_of_lt crowded)] at actives bound ⊢
  have total : p.slots.length = p.size := rfl
  have length (is : List Instance) : ({ p with slots := is.reverse } : Pool).size = is.length :=
    List.length_reverse
  rw [length] at bound ⊢
  rw [List.length_reverse] at spec
  rcases spec with exact | ⟨fewer, active⟩
  · omega
  · have all : ({ p with slots := (dropInactive (p.size - min n p.capacity) p.slots.reverse).reverse }
        : Pool).activeCount = (dropInactive (p.size - min n p.capacity) p.slots.reverse).length := by
      rw [Pool.activeCount, List.countP_reverse]
      exact List.countP_eq_length.mpr active
    omega

/-- Whatever was asked of a pool before, it comes as close to the size that it is to have as it can:
    it grows to it, as far as the capacity goes, by the lowest numbers that are free, or loses its
    highest inactive slots until it has that size or only active ones are left. All other slots stay
    as they are, and to ask again changes nothing. -/
theorem resize_closest (made : p.Made capacity) (size : Nat) :
    (p.size ≤ min size p.capacity → (p.resize size).size = min size p.capacity ∧
      ∃ ids, p.AreLowest (min size p.capacity - p.size) ids ∧ p.Gains ids (p.resize size)) ∧
    (min size p.capacity < p.size →
      (p.resize size).size = max (min size p.capacity) p.activeCount ∧ p.Sheds (p.resize size)) ∧
    (p.resize size).resize size = p.resize size := by
  have sound := made.kept.sound
  refine ⟨?_, fun crowded => ⟨sound.size_resize crowded, sound.resize_sheds crowded⟩,
    p.resize_resize size⟩
  intro fits
  have room : p.size + (min size p.capacity - p.size) ≤ p.capacity := by omega
  obtain ⟨lowest, gains⟩ := sound.gains_lowestUnused room
  rw [← sound.resize_of_fits fits] at gains
  refine ⟨?_, _, lowest, gains⟩
  rw [gains.size, lowest.length]
  omega

/-- Of five slots of which one plays, two are to be left: those above the lowest go, but for the one
    that plays. -/
theorem choir_resized :
    let p : Pool := ⟨[.reserved 0, .reserved 1, .started 2 ⟨.ofId ⟨7⟩, ⟨1, 0⟩⟩, .reserved 3,
      .reserved 4], .none, 6⟩
    p.Made 6 ∧ (p.resize 2).slots = [.reserved 0, .started 2 ⟨.ofId ⟨7⟩, ⟨1, 0⟩⟩] ∧
      p.Sheds (p.resize 2) := by
  intro p
  have made : p.Made 6 :=
    ⟨_, ⟨.none, .inl rfl⟩, [.reserve 5, .update 2 ⟨.ofId ⟨7⟩, ⟨1, 0⟩⟩], by decide +kernel⟩
  have sheds := ((resize_closest made 2).2.1 (by decide)).2
  exact ⟨made, by decide +kernel, sheds⟩

end Pool

end SignalGraph
