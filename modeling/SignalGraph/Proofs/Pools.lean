import Mathlib.Data.List.Nodup
import Mathlib.Data.List.Perm.Subperm
import SignalGraph.Instance.Pool

/-! # Sizes of pools

What is asked of the size of a pool it either has afterwards, or it cannot come any closer: it is
full of active instances, or new ones were refused. To ask again changes nothing.
-/

namespace SignalGraph.Pool

variable {p : Pool}

/-! ## Growing -/

theorem size_insert (p : Pool) (i : Instance) : (p.insert i).size = p.size + 1 := by
  have whole : (p.slots.take (p.place i.id)).length + (p.slots.drop (p.place i.id)).length =
      p.slots.length := by rw [← List.length_append, List.take_append_drop]
  simp only [insert, size, List.length_append, List.length_cons]
  omega

theorem size_addReserved (p : Pool) (ids : List UInt64) :
    (p.addReserved ids).size = p.size + ids.length := by
  induction ids generalizing p with
  | nil => rfl
  | cons id ids ih =>
      rw [addReserved, List.foldl_cons, List.length_cons]
      have rest := ih (p.insert (.reserved id))
      rw [addReserved, size_insert] at rest
      omega

theorem capacity_addReserved (p : Pool) (ids : List UInt64) :
    (p.addReserved ids).capacity = p.capacity := by
  induction ids generalizing p with
  | nil => rfl
  | cons id ids ih => exact ih (p.insert (.reserved id))

theorem mem_of_get? {id : UInt64} {i : Instance} (found : p.get? id = some i) :
    i ∈ p.slots ∧ i.id = id := by
  obtain ⟨there, own⟩ := Option.filter_eq_some_iff.mp found
  exact ⟨List.mem_of_getElem? there, by simpa using own⟩

theorem mem_ids_of_contains {id : UInt64} (contains : p.contains id) :
    id ∈ p.slots.map Instance.id := by
  obtain ⟨i, found⟩ := Option.isSome_iff_exists.mp contains
  obtain ⟨member, own⟩ := mem_of_get? found
  exact List.mem_map.mpr ⟨i, member, own⟩

theorem nodup_of_ascending {ids : List UInt64} (ascending : ids.Pairwise (· < ·)) : ids.Nodup :=
  ascending.imp fun below => UInt64.ne_of_lt below

theorem numbers_ascending {n : Nat} (counted : n < UInt64.size) :
    ((List.range n).map UInt64.ofNat).Pairwise (· < ·) := by
  refine List.pairwise_map.mpr (List.pairwise_lt_range.imp_of_mem ?_)
  intro a b _ member below
  have small : b < UInt64.size := Nat.lt_trans (List.mem_range.mp member) counted
  rwa [UInt64.lt_iff_toNat_lt, UInt64.toNat_ofNat_of_lt' small,
    UInt64.toNat_ofNat_of_lt' (Nat.lt_trans below small)]

theorem nodup_numbers {n : Nat} (counted : n < UInt64.size) :
    ((List.range n).map UInt64.ofNat).Nodup := nodup_of_ascending (numbers_ascending counted)

/-- There are as many unused numbers as one asks for, while all can be counted. -/
theorem length_lowestUnused {n : Nat} (counted : p.size + n < UInt64.size) :
    (p.lowestUnused n).length = n := by
  let all := (List.range (p.size + n)).map UInt64.ofNat
  have distinct : all.Nodup := nodup_numbers counted
  have used : (all.filter p.contains).length ≤ p.size := by
    have subset : all.filter p.contains ⊆ p.slots.map Instance.id := fun id member =>
      mem_ids_of_contains (List.mem_filter.mp member).2
    have fewer := (List.subperm_of_subset (distinct.filter _) subset).length_le
    rwa [List.length_map] at fewer
  have split := List.length_eq_length_filter_add (l := all) p.contains
  have total : all.length = p.size + n := by simp [all]
  rw [lowestUnused, List.length_take]
  have unused : n ≤ (all.filter fun id => !p.contains id).length := by omega
  exact Nat.min_eq_left unused

/-! ## Shrinking -/

/-- Active instances in front of others stay. -/
theorem dropInactive_append {before : List Instance} (active : ∀ i ∈ before, i.isActive)
    (n : Nat) (after : List Instance) :
    dropInactive n (before ++ after) = before ++ dropInactive n after := by
  induction before with
  | nil => rfl
  | cons i before ih =>
      obtain ⟨first, others⟩ := List.forall_mem_cons.mp active
      cases n with
      | zero => simp only [dropInactive]
      | succ n => rw [List.cons_append, dropInactive, if_pos first, ih others, List.cons_append]

theorem dropInactive_nil (n : Nat) : dropInactive n [] = [] := by
  cases n <;> rfl

theorem dropInactive_of_active {n : Nat} {is : List Instance} (active : ∀ i ∈ is, i.isActive) :
    dropInactive n is = is := by
  have kept := dropInactive_append active n []
  rwa [List.append_nil, dropInactive_nil, List.append_nil] at kept

/-- As many are dropped as asked for, unless only active ones are left. -/
theorem dropInactive_spec (n : Nat) (is : List Instance) :
    (dropInactive n is).length + n = is.length ∨
      (is.length ≤ (dropInactive n is).length + n ∧ ∀ i ∈ dropInactive n is, i.isActive) := by
  induction is generalizing n with
  | nil => cases n <;> simp [dropInactive]
  | cons i is ih =>
      cases n with
      | zero => simp [dropInactive]
      | succ n =>
          rw [dropInactive]
          split
          · rename_i active
            rcases ih (n + 1) with exact | ⟨fewer, rest⟩
            · exact .inl (by simp only [List.length_cons]; omega)
            · refine .inr ⟨by simp only [List.length_cons]; omega, ?_⟩
              intro j member
              rcases List.mem_cons.mp member with rfl | later
              · exact active
              · exact rest j later
          · rcases ih n with exact | ⟨fewer, rest⟩
            · exact .inl (by simp only [List.length_cons]; omega)
            · exact .inr ⟨by simp only [List.length_cons]; omega, rest⟩

/-! ## Sizes asked for -/

/-- What is told of a number of new instances: there would be more than can be counted, or more than
    the capacity allows, or there is room. -/
theorem checkCapacity_cases (p : Pool) (n : Nat) :
    (UInt64.size ≤ p.size + n ∧ p.checkCapacity n = .error .countOverflow) ∨
      (p.size + n < UInt64.size ∧ p.capacity < p.size + n ∧
        p.checkCapacity n = .error (.capacity n p.capacity)) ∨
      (p.size + n < UInt64.size ∧ p.size + n ≤ p.capacity ∧ p.checkCapacity n = .ok ()) := by
  simp only [checkCapacity]
  by_cases counted : UInt64.size ≤ p.size + n
  · simp [counted]
  · by_cases crowded : p.capacity < p.size + n
    · simp [counted, crowded]
      omega
    · simp [counted, crowded]
      omega

theorem resize_of_fewer {size : Nat} (fewer : p.size < min size p.capacity) :
    p.resize size = p ∨
      (p.resize size).size = min size p.capacity ∧ (p.resize size).capacity = p.capacity := by
  have target : p.size + (min size p.capacity - p.size) = min size p.capacity := by omega
  simp only [resize, if_pos fewer, reserve, Attempt.after_bind, Attempt.current_apply]
  rcases p.checkCapacity_cases (min size p.capacity - p.size) with
    ⟨-, refused⟩ | ⟨-, -, refused⟩ | ⟨counted, -, taken⟩
  · simp only [refused, Attempt.demand_error, true_or]
  · simp only [refused, Attempt.demand_error, true_or]
  · simp only [taken, Attempt.demand_ok, Attempt.after, Attempt.change_apply, Attempt.pure_apply]
    refine .inr ⟨?_, capacity_addReserved ..⟩
    rw [size_addReserved, length_lowestUnused counted, target]

theorem resize_of_enough {size : Nat} (enough : min size p.capacity ≤ p.size) :
    p.resize size = { p with
      slots := (dropInactive (p.size - min size p.capacity) p.slots.reverse).reverse } :=
  if_neg (Nat.not_lt.mpr enough)

/-- A pool of the size that is asked for stays as it is, and so does one that is too large but full
    of active instances. -/
theorem resize_eq_self {size : Nat} (enough : min size p.capacity ≤ p.size)
    (full : p.size = min size p.capacity ∨ ∀ i ∈ p.slots, i.isActive) : p.resize size = p := by
  have kept : dropInactive (p.size - min size p.capacity) p.slots.reverse = p.slots.reverse := by
    rcases full with same | active
    · rw [same, Nat.sub_self]
      cases p.slots.reverse <;> rfl
    · exact dropInactive_of_active fun i member => active i (List.mem_reverse.mp member)
  rw [resize_of_enough enough, kept, List.reverse_reverse]

theorem resize_resize (p : Pool) (size : Nat) : (p.resize size).resize size = p.resize size := by
  rcases Nat.lt_or_ge p.size (min size p.capacity) with fewer | enough
  · rcases resize_of_fewer fewer with same | ⟨grown, capacity⟩
    · rw [same, same]
    · exact resize_eq_self (by omega) (.inl (by omega))
  · rw [resize_of_enough enough]
    have spec := dropInactive_spec (p.size - min size p.capacity) p.slots.reverse
    rw [List.length_reverse] at spec
    have total : p.slots.length = p.size := rfl
    have length (is : List Instance) : ({ p with slots := is.reverse } : Pool).size = is.length :=
      List.length_reverse
    apply resize_eq_self
    · rw [length]
      show min size p.capacity ≤ _
      omega
    · rw [length]
      rcases spec with exact | ⟨-, active⟩
      · left
        show _ = min size p.capacity
        omega
      · exact .inr fun i member => active i (List.mem_reverse.mp member)

/-! ## Shrinking slot by slot -/

/-- Where the last inactive instance is. -/
def lastInactive? (is : List Instance) : Option Nat :=
  (is.reverse.findIdx? fun i => !i.isActive).map fun behind => is.length - 1 - behind

/-- One step of shrinking to a size, or what it comes to: while there are more instances than that,
    the last inactive one goes, if there is any. -/
def shrinkStep (size : Nat) (is : List Instance) : List Instance ⊕ List Instance :=
  if size < is.length then
    match lastInactive? is with
    | some n => .inl (is.eraseIdx n)
    | none => .inr is
  else .inr is

/-- What shrinking comes to, if it does within so many steps. -/
def shrink (size : Nat) : Nat → List Instance → Option (List Instance)
  | 0, _ => none
  | steps + 1, is =>
    match shrinkStep size is with
    | .inl rest => shrink size steps rest
    | .inr left => some left

theorem lastInactive?_cases (is : List Instance) :
    (lastInactive? is = none ∧ ∀ i ∈ is, i.isActive) ∨
      ∃ before i after, is = before ++ i :: after ∧ i.isActive = false ∧
        (∀ j ∈ after, j.isActive) ∧ lastInactive? is = some before.length := by
  unfold lastInactive?
  cases found : is.reverse.find? fun i => !i.isActive with
  | none =>
      have active : ∀ i ∈ is, i.isActive := by simpa using found
      have absent : (is.reverse.findIdx? fun i => !i.isActive) = none := by simpa using active
      exact .inl ⟨by rw [absent, Option.map_none], active⟩
  | some i =>
      obtain ⟨idle, after, before, split, active⟩ := List.find?_eq_some_iff_append.mp found
      have whole : is = before.reverse ++ i :: after.reverse := by
        simpa using congrArg List.reverse split
      have absent : (after.findIdx? fun i => !i.isActive) = none := by simpa using active
      refine .inr ⟨before.reverse, i, after.reverse, whole, by simpa using idle, ?_, ?_⟩
      · simpa using active
      · rw [split, List.findIdx?_append, absent, List.findIdx?_cons, idle, whole]
        simp

/-- A step takes one of the instances that are to be dropped, unless none are any more. -/
theorem shrinkStep_spec (size : Nat) (is : List Instance) :
    match shrinkStep size is with
    | .inl rest => is.length - size = rest.length - size + 1 ∧
        dropInactive (is.length - size) is.reverse = dropInactive (rest.length - size) rest.reverse
    | .inr left => left = (dropInactive (is.length - size) is.reverse).reverse := by
  unfold shrinkStep
  by_cases crowded : size < is.length
  · rw [if_pos crowded]
    rcases lastInactive?_cases is with ⟨none, active⟩ | ⟨before, i, after, rfl, idle, active, last⟩
    · have kept : dropInactive (is.length - size) is.reverse = is.reverse :=
        dropInactive_of_active (by simpa using active)
      simp only [none, kept, List.reverse_reverse]
    · have rest : (before ++ i :: after).eraseIdx before.length = before ++ after := by
        simp [List.eraseIdx_append_of_length_le]
      have fewer :
          (before ++ i :: after).length - size = (before ++ after).length - size + 1 := by
        simp only [List.length_append, List.length_cons] at crowded ⊢
        omega
      have kept : ∀ j ∈ after.reverse, j.isActive := by simpa using active
      simp only [last, rest]
      refine ⟨fewer, ?_⟩
      rw [fewer]
      simp only [List.reverse_append, List.reverse_cons, List.append_assoc, List.cons_append,
        List.nil_append, dropInactive_append kept]
      rw [dropInactive, idle, if_neg Bool.false_ne_true]
  · have none : is.length - size = 0 := by omega
    rw [if_neg crowded]
    simp only [none, dropInactive, List.reverse_reverse]

/-- To let the last inactive instance go, as long as there are too many, is to drop them from the
    highest number down. -/
theorem shrink_eq {size steps : Nat} {is : List Instance} (enough : is.length - size < steps) :
    shrink size steps is = some (dropInactive (is.length - size) is.reverse).reverse := by
  induction steps generalizing is with
  | zero => omega
  | succ steps ih =>
      have step := shrinkStep_spec size is
      unfold shrink
      cases taken : shrinkStep size is with
      | inl rest =>
          rw [taken] at step
          obtain ⟨fewer, same⟩ := step
          rw [same]
          exact ih (by omega)
      | inr left =>
          rw [taken] at step
          exact congrArg some step

theorem resize_shrinks {size : Nat} (enough : min size p.capacity ≤ p.size) :
    shrink (min size p.capacity) (p.size + 1) p.slots = some (p.resize size).slots := by
  have steps : p.slots.length - min size p.capacity < p.size + 1 :=
    Nat.lt_succ_of_le (Nat.sub_le ..)
  rw [shrink_eq steps, resize_of_enough enough]
  rfl

/-- A pool with the size and the steal mode that are asked for, where they are. -/
def sync (size : Option Nat) (steal : Option StealMode) (p : Pool) : Pool :=
  let p := match size with
    | some n => p.resize n
    | none => p
  match steal with
  | some mode => p.setSteal mode
  | none => p

theorem addReserved_setSteal (p : Pool) (mode : StealMode) (ids : List UInt64) :
    (p.setSteal mode).addReserved ids = (p.addReserved ids).setSteal mode := by
  induction ids generalizing p with
  | nil => rfl
  | cons id ids ih => exact ih (p.insert (.reserved id))

theorem resize_setSteal (p : Pool) (mode : StealMode) (size : Nat) :
    (p.setSteal mode).resize size = (p.resize size).setSteal mode := by
  rcases Nat.lt_or_ge p.size (min size p.capacity) with fewer | enough
  · have fewer' : (p.setSteal mode).size < min size (p.setSteal mode).capacity := fewer
    rw [resize, resize, if_pos fewer, if_pos fewer']
    simp only [reserve, Attempt.after_bind, Attempt.current_apply]
    have same : (p.setSteal mode).checkCapacity
        (min size (p.setSteal mode).capacity - (p.setSteal mode).size) =
        p.checkCapacity (min size p.capacity - p.size) := rfl
    rw [same]
    cases p.checkCapacity (min size p.capacity - p.size) with
    | error e => rfl
    | ok _ => exact addReserved_setSteal p mode _
  · rw [resize_of_enough enough]
    exact resize_of_enough (p := p.setSteal mode) enough

theorem sync_sync (size : Option Nat) (steal : Option StealMode) (p : Pool) :
    (p.sync size steal).sync size steal = p.sync size steal := by
  cases size with
  | none => cases steal <;> rfl
  | some n =>
      cases steal with
      | none => exact p.resize_resize n
      | some mode =>
          show (((p.resize n).setSteal mode).resize n).setSteal mode = (p.resize n).setSteal mode
          rw [resize_setSteal, resize_resize]
          rfl

end SignalGraph.Pool
