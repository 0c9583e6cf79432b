import SignalGraph.Proofs.Slots

/-! # Elementary changes to a pool

All that is done to a pool comes down to a few elementary steps, and each call of it is a chain of
steps. What every step keeps, a pool keeps whatever is done with it.
-/

namespace SignalGraph

/-! ## Lists without repeats -/

section EraseDups

variable {β : Type} [BEq β]

theorem eraseDups_sublist (items : List β) : items.eraseDups.Sublist items := by
  cases items with
  | nil => exact .slnil
  | cons item items =>
      rw [List.eraseDups_cons]
      exact ((eraseDups_sublist _).trans List.filter_sublist).cons_cons item
termination_by items.length
decreasing_by exact Nat.lt_succ_of_le (List.length_filter_le ..)

variable [LawfulBEq β]

theorem nodup_eraseDups (items : List β) : items.eraseDups.Nodup := by
  cases items with
  | nil => exact List.nodup_nil
  | cons item items =>
      rw [List.eraseDups_cons]
      exact List.nodup_cons.mpr ⟨by simp [List.mem_eraseDups], nodup_eraseDups _⟩
termination_by items.length
decreasing_by exact Nat.lt_succ_of_le (List.length_filter_le ..)

theorem eraseDups_of_nodup {items : List β} (distinct : items.Nodup) : items.eraseDups = items := by
  induction items with
  | nil => rfl
  | cons item items ih =>
      obtain ⟨apart, others⟩ := List.nodup_cons.mp distinct
      have rest : items.filter (fun other => !other == item) = items := by
        refine List.filter_eq_self.mpr fun other member => ?_
        simpa using fun same : other = item => apart (same ▸ member)
      rw [List.eraseDups_cons, rest, ih others]

end EraseDups

namespace Pool

variable {p : Pool} {id : UInt64} {i : Instance}

/-- What is done to a pool in one step, and what is told of it. -/
inductive Step (p : Pool) : List PoolEvent → Pool → Prop
  | keep : Step p [] p
  | setSteal (mode : StealMode) : Step p [] (p.setSteal mode)
  | tag (id : UInt64) (tag : Option UInt64) : Step p [] (p.modify id ({ · with tag }))
  | reserve {id : UInt64} (absent : ∀ j ∈ p.slots, j.id ≠ id) (room : p.size < p.capacity) :
      Step p [] (p.insert (.reserved id))
  | lose {slots : List Instance} (fewer : slots.Sublist p.slots)
      (keeps : ∀ i ∈ p.slots, i.isActive → i ∈ slots) : Step p [] { p with slots }
  | drop {i : Instance} (there : i ∈ p.slots) (active : i.isActive) :
      Step p [⟨.releasedHere, i.id⟩] (p.erase i.id)
  | release {i : Instance} (there : i ∈ p.slots) (active : i.isActive) (origin : ReleaseOrigin) :
      Step p [⟨origin.event, i.id⟩] (p.modify i.id ({ · with state := .free }))
  | play {i : Instance} (there : i ∈ p.slots) (sample : Sample) :
      Step p [⟨if i.isActive then .update else .new, i.id⟩] (p.modify i.id (·.play sample))
  | enter {id : UInt64} (absent : ∀ j ∈ p.slots, j.id ≠ id) (room : p.size < p.capacity)
      (sample : Sample) : Step p [⟨.new, id⟩] (p.insert (.started id sample))
  | overflow (id : UInt64) : Step p [⟨.overflow, id⟩] p

inductive Steps : Pool → List PoolEvent → Pool → Prop
  | done (p : Pool) : Steps p [] p
  | next {p q r : Pool} {told later : List PoolEvent} (step : p.Step told q)
      (rest : Steps q later r) : Steps p (told ++ later) r

namespace Steps

variable {q r : Pool} {told later : List PoolEvent}

theorem one (step : p.Step told q) : Steps p told q :=
  List.append_nil told ▸ Steps.next step (.done q)

theorem trans (first : Steps p told q) (second : Steps q later r) :
    Steps p (told ++ later) r := by
  induction first with
  | done p => exact second
  | next step _ ih => exact List.append_assoc .. ▸ .next step (ih second)

end Steps

namespace InOrder

variable {q : Pool} {told : List PoolEvent}

/-- Every step leaves a pool in order. -/
theorem step (order : p.InOrder) (step : p.Step told q) : q.InOrder := by
  cases step with
  | keep | overflow => exact order
  | setSteal mode => exact ⟨order.ascending, order.fits, order.bounded⟩
  | tag id tag => exact order.modify fun _ => rfl
  | reserve absent room => exact order.insert absent room
  | lose fewer keeps => exact order.ofSublist fewer
  | drop there active => exact order.ofSublist List.filter_sublist
  | release there active origin => exact order.modify fun _ => rfl
  | play there sample => exact order.modify fun j => j.id_play sample
  | enter absent room sample => exact order.insert absent room

theorem steps (order : p.InOrder) (steps : p.Steps told q) : q.InOrder := by
  induction steps with
  | done p => exact order
  | next step _ ih => exact ih (order.step step)

end InOrder

namespace Sound

variable {q : Pool} {told : List PoolEvent}

/-- Every step leaves the instances of a pool sound. -/
theorem instances_step (sound : p.Sound) (step : p.Step told q) : ∀ i ∈ q.slots, i.Sound := by
  intro j member
  cases step with
  | keep | setSteal | overflow => exact sound.instances j member
  | lose fewer keeps => exact sound.instances j (fewer.subset member)
  | drop there active => exact sound.instances j (mem_erase.mp member).1
  | reserve | enter =>
      rcases mem_insert.mp member with rfl | before
      · exact ⟨rfl, rfl⟩
      · exact sound.instances j before
  | tag id tag =>
      obtain ⟨i, there, ⟨-, rfl⟩ | ⟨-, rfl⟩⟩ := mem_modify member
      · exact sound.instances i there
      · exact sound.instances j there
  | @release active there isActive origin =>
      obtain ⟨i, other, ⟨same, rfl⟩ | ⟨-, rfl⟩⟩ := mem_modify member
      · obtain rfl := sound.ascending.unique other there same
        have state : i.state = .active := by simpa [Instance.isActive] using isActive
        have held := sound.instances i other
        simp only [Instance.Sound, state] at held
        exact held
      · exact sound.instances j other
  | play there sample =>
      obtain ⟨i, other, ⟨-, rfl⟩ | ⟨-, rfl⟩⟩ := mem_modify member
      · exact (sound.instances i other).play sample
      · exact sound.instances j other

/-- Every step leaves a sound pool sound. -/
theorem step (sound : p.Sound) (step : p.Step told q) : q.Sound where
  ascending := (sound.inOrder.step step).ascending
  instances := sound.instances_step step
  fits := (sound.inOrder.step step).fits
  bounded := (sound.inOrder.step step).bounded

theorem steps (sound : p.Sound) (steps : p.Steps told q) : q.Sound := by
  induction steps with
  | done p => exact sound
  | next step _ ih => exact ih (sound.step step)

end Sound

theorem Step.capacity {q : Pool} {told : List PoolEvent} (step : p.Step told q) :
    q.capacity = p.capacity := by
  cases step <;> rfl

theorem Steps.capacity {q : Pool} {told : List PoolEvent} (steps : p.Steps told q) :
    q.capacity = p.capacity := by
  induction steps with
  | done p => rfl
  | next step _ ih => exact ih.trans step.capacity

/-! ## Reservation -/

theorem checkCapacity_eq_ok_iff (p : Pool) (n : Nat) :
    p.checkCapacity n = .ok () ↔ p.size + n < UInt64.size ∧ p.size + n ≤ p.capacity := by
  rcases p.checkCapacity_cases n with ⟨beyond, check⟩ | ⟨-, crowded, check⟩ | ⟨counted, room, check⟩
  · simp [check, Nat.not_lt.mpr beyond]
  · simp [check, Nat.not_le.mpr crowded]
  · simp [check, counted, room]

theorem addReserved_steps {ids : List UInt64} (distinct : ids.Nodup)
    (absent : ∀ id ∈ ids, ∀ j ∈ p.slots, j.id ≠ id) (room : p.size + ids.length ≤ p.capacity) :
    p.Steps [] (p.addReserved ids) := by
  induction ids generalizing p with
  | nil => exact .done p
  | cons id ids ih =>
      obtain ⟨apart, others⟩ := List.nodup_cons.mp distinct
      have first : p.Step [] (p.insert (.reserved id)) := by
        refine .reserve (absent id List.mem_cons_self) ?_
        rw [List.length_cons] at room
        omega
      refine .next first (ih others ?_ ?_)
      · intro other member j there
        rcases mem_insert.mp there with rfl | before
        · rintro rfl
          exact apart member
        · exact absent other (List.mem_cons_of_mem id member) j before
      · rw [size_insert, first.capacity]
        rw [List.length_cons] at room
        omega

theorem Ascending.not_contains_iff (ascending : p.Ascending) :
    (!p.contains id) = true ↔ ∀ j ∈ p.slots, j.id ≠ id := by
  rw [Bool.not_eq_true', Bool.eq_false_iff, ne_eq, ascending.contains_iff]
  simp only [not_exists, not_and]

theorem reserve_steps (ascending : p.Ascending) (n : Nat) :
    p.Steps [] ((reserve n).after p) := by
  simp only [reserve, Attempt.after_bind, Attempt.current_apply]
  cases taken : p.checkCapacity n with
  | error e => exact .done p
  | ok _ =>
      obtain ⟨counted, room⟩ := (p.checkCapacity_eq_ok_iff n).mp taken
      refine addReserved_steps ?_ ?_ ?_
      · exact ((nodup_numbers counted).filter _).sublist (List.take_sublist ..)
      · intro id member
        exact ascending.not_contains_iff.mp (List.mem_filter.mp (List.mem_of_mem_take member)).2
      · rw [length_lowestUnused counted]
        exact room

theorem reserveIds_steps (ascending : p.Ascending) (ids : List UInt64) :
    p.Steps [] ((reserveIds ids).after p) := by
  simp only [reserveIds, Attempt.after_bind, Attempt.current_apply]
  generalize fresh : ((ids.filter fun id => !p.contains id).mergeSort (· ≤ ·)).eraseDups = some
  cases taken : p.checkCapacity some.length with
  | error e => exact .done p
  | ok _ =>
      refine addReserved_steps (fresh ▸ nodup_eraseDups _) ?_
        ((p.checkCapacity_eq_ok_iff _).mp taken).2
      intro id member
      rw [← fresh, List.mem_eraseDups, List.mem_mergeSort] at member
      exact ascending.not_contains_iff.mp (List.mem_filter.mp member).2

theorem dropInactive_sublist (n : Nat) (is : List Instance) : (dropInactive n is).Sublist is := by
  induction is generalizing n with
  | nil => cases n <;> exact .slnil
  | cons i is ih =>
      cases n with
      | zero => exact .refl _
      | succ n =>
          rw [dropInactive]
          split
          · exact (ih _).cons_cons i
          · exact (ih _).cons i

theorem mem_dropInactive {n : Nat} {is : List Instance} (there : i ∈ is) (active : i.isActive) :
    i ∈ dropInactive n is := by
  induction is generalizing n with
  | nil => exact absurd there List.not_mem_nil
  | cons j is ih =>
      cases n with
      | zero => exact there
      | succ n =>
          rw [dropInactive]
          rcases List.mem_cons.mp there with rfl | later
          · rw [if_pos active]
            exact List.mem_cons_self
          · split
            · exact List.mem_cons_of_mem _ (ih later)
            · exact ih later

theorem resize_steps (ascending : p.Ascending) (size : Nat) : p.Steps [] (p.resize size) := by
  rcases Nat.lt_or_ge p.size (min size p.capacity) with fewer | enough
  · rw [resize, if_pos fewer]
    exact reserve_steps ascending _
  · rw [resize_of_enough enough]
    refine .one (.lose ?_ fun i there active => ?_)
    · have fewer := (dropInactive_sublist (p.size - min size p.capacity) p.slots.reverse).reverse
      rwa [List.reverse_reverse] at fewer
    · exact List.mem_reverse.mpr (mem_dropInactive (List.mem_reverse.mpr there) active)

/-! ## Values -/

theorem mem_of_idle? (found : p.idle? = some i) : i ∈ p.slots ∧ i.isActive = false := by
  have ofState {state : InstanceState}
      (found : p.slots.find? (fun i => i.state == state) = some i) :
      i ∈ p.slots ∧ i.state = state :=
    ⟨List.mem_of_find?_eq_some found, by simpa using List.find?_some found⟩
  simp only [idle?, Option.orElse_eq_orElse, Option.orElse_eq_or, Option.or_eq_some_iff] at found
  rcases found with reserved | ⟨-, free⟩
  · obtain ⟨there, state⟩ := ofState reserved
    exact ⟨there, by simp [Instance.isActive, state]⟩
  · obtain ⟨there, state⟩ := ofState free
    exact ⟨there, by simp [Instance.isActive, state]⟩

theorem mem_of_firstBy {before : Instance → Instance → Bool} {is : List Instance}
    (first : firstBy before is = some i) : i ∈ is := by
  induction is generalizing i with
  | nil => cases first
  | cons j is ih =>
      simp only [firstBy] at first
      split at first
      · exact Option.some.inj first ▸ List.mem_cons_self
      · rename_i k later
        rw [← Option.some.inj first]
        split
        · exact List.mem_cons_of_mem j (ih later)
        · exact List.mem_cons_self

theorem mem_of_victim? (found : p.victim? = some i) : i ∈ p.slots ∧ i.isActive := by
  simp only [victim?] at found
  split at found
  · cases found
  · exact List.mem_filter.mp (mem_of_firstBy found)
  · exact List.mem_filter.mp (mem_of_firstBy found)

/-- Of an instance that goes nothing is told unless it was active. -/
theorem erase_idle (ascending : p.Ascending) (there : i ∈ p.slots) (idle : i.isActive = false) :
    p.Step [] (p.erase i.id) := by
  refine .lose List.filter_sublist fun j other active => mem_erase.mpr ⟨other, ?_⟩
  intro same
  rw [ascending.unique other there same, idle] at active
  cases active

/-- Where an instance goes there is room for another. -/
theorem size_erase_lt (there : i ∈ p.slots) : (p.erase i.id).size < p.size := by
  refine List.length_filter_lt_length_iff_exists.mpr ⟨i, there, ?_⟩
  simp

theorem enter_steps (order : p.InOrder) {old : Instance} (there : old ∈ p.slots)
    (absent : ∀ j ∈ p.slots, j.id ≠ id) (sample : Sample) :
    (p.erase old.id).Steps [⟨.new, id⟩] (p.replace old.id id sample) := by
  refine .one (.enter ?_ ?_ sample)
  · exact fun j member => absent j (mem_erase.mp member).1
  · exact Nat.lt_of_lt_of_le (size_erase_lt there) order.fits

theorem update_steps (order : p.InOrder) (id : UInt64) (sample : Sample) :
    p.Steps (p.update id sample).2 (p.update id sample).1 := by
  simp only [update]
  cases found : p.get? id with
  | some i =>
      obtain ⟨there, rfl⟩ := mem_of_get? found
      exact .one (.play there sample)
  | none =>
      have absent := order.ascending.get?_eq_none_iff.mp found
      cases spare : p.idle? with
      | some old =>
          obtain ⟨there, idle⟩ := mem_of_idle? spare
          exact .next (erase_idle order.ascending there idle)
            (enter_steps order there absent sample)
      | none =>
          cases robbed : p.victim? with
          | some old =>
              obtain ⟨there, active⟩ := mem_of_victim? robbed
              exact .next (.drop there active) (enter_steps order there absent sample)
          | none => exact .one (.overflow id)

/-! ## Releases -/

theorem get_eq_ok_iff : p.get id = .ok i ↔ p.get? id = some i := by
  simp only [get]
  split <;> simp [*]

/-! ## Calls -/

/-- What can be asked of a pool. -/
inductive Call where
  | reserve (n : Nat)
  | reserveIds (ids : List UInt64)
  | resize (size : Nat)
  | update (id : UInt64) (sample : Sample)
  | release (id : UInt64) (origin : ReleaseOrigin)
  | remove (id : UInt64)
  | setTag (id : UInt64) (tag : Option UInt64)
  | setSteal (mode : StealMode)
  deriving Repr, DecidableEq

/-- The pool after an attempt and what is told of it, which is nothing if it is refused. -/
def told (p : Pool) (x : Attempt Pool (List PoolEvent)) : Pool × List PoolEvent :=
  match x p with
  | .ok events p => (p, events)
  | .error _ p => (p, [])

def call (p : Pool) : Call → Pool × List PoolEvent
  | .reserve n => ((reserve n).after p, [])
  | .reserveIds ids => ((reserveIds ids).after p, [])
  | .resize size => (p.resize size, [])
  | .update id sample => p.update id sample
  | .release id origin => p.told (release id origin)
  | .remove id => p.told (remove id)
  | .setTag id tag => ((setTag id tag).after p, [])
  | .setSteal mode => (p.setSteal mode, [])

/-- The pool after a succession of calls, and all that is told over them. -/
def run (p : Pool) : List Call → Pool × List PoolEvent
  | [] => (p, [])
  | c :: calls => (((p.call c).1.run calls).1, (p.call c).2 ++ ((p.call c).1.run calls).2)

theorem release_steps (p : Pool) (id : UInt64) (origin : ReleaseOrigin) :
    p.Steps (p.told (release id origin)).2 (p.told (release id origin)).1 := by
  simp only [told, release, Attempt.bind_apply, Attempt.current_apply]
  cases found : p.get id with
  | error e => exact .done p
  | ok i =>
      obtain ⟨there, rfl⟩ := mem_of_get? (get_eq_ok_iff.mp found)
      cases active : i.isActive with
      | false => simpa [active] using Steps.done p
      | true => simpa [active, Attempt.bind_apply] using Steps.one (.release there active origin)

theorem remove_steps (ascending : p.Ascending) (id : UInt64) :
    p.Steps (p.told (remove id)).2 (p.told (remove id)).1 := by
  simp only [told, remove, Attempt.bind_apply, Attempt.current_apply]
  cases found : p.get id with
  | error e => exact .done p
  | ok i =>
      obtain ⟨there, rfl⟩ := mem_of_get? (get_eq_ok_iff.mp found)
      cases active : i.isActive with
      | false => simpa [active] using Steps.one (erase_idle ascending there active)
      | true => simpa [active] using Steps.one (.drop there active)

theorem setTag_steps (p : Pool) (id : UInt64) (tag : Option UInt64) :
    p.Steps [] ((setTag id tag).after p) := by
  simp only [setTag, Attempt.after_bind, Attempt.current_apply]
  cases p.get id with
  | error e => exact .done p
  | ok i => exact .one (.tag id tag)

theorem InOrder.call_steps (order : p.InOrder) (c : Call) :
    p.Steps (p.call c).2 (p.call c).1 := by
  cases c with
  | reserve n => exact reserve_steps order.ascending n
  | reserveIds ids => exact reserveIds_steps order.ascending ids
  | resize size => exact resize_steps order.ascending size
  | update id sample => exact update_steps order id sample
  | release id origin => exact release_steps p id origin
  | remove id => exact remove_steps order.ascending id
  | setTag id tag => exact setTag_steps p id tag
  | setSteal mode => exact .one (.setSteal mode)

theorem InOrder.run_steps (order : p.InOrder) (calls : List Call) :
    p.Steps (p.run calls).2 (p.run calls).1 := by
  induction calls generalizing p with
  | nil => exact .done p
  | cons c calls ih =>
      have first := order.call_steps c
      exact first.trans (ih (order.steps first))

theorem run_steps (sound : p.Sound) (calls : List Call) :
    p.Steps (p.run calls).2 (p.run calls).1 := sound.inOrder.run_steps calls

/-! ## New pools -/

/-- Whether a pool is as it is made: empty, or with some instances reserved. -/
def IsNew (capacity : Nat) (p : Pool) : Prop :=
  ∃ steal, p = empty capacity steal ∨ ∃ size, make capacity steal size = .ok p

theorem IsNew.steps {capacity : Nat} (new : p.IsNew capacity) :
    ∃ steal, (empty capacity steal).Steps [] p := by
  obtain ⟨steal, rfl | ⟨size, made⟩⟩ := new
  · exact ⟨steal, .done _⟩
  · refine ⟨steal, ?_⟩
    have reserved := reserve_steps (Sound.empty capacity steal).ascending size
    simp only [make, Attempt.after] at made reserved
    cases same : reserve size (empty capacity steal) with
    | error e q => simp [same] at made
    | ok ids q =>
        simp only [same, Except.ok.injEq] at made reserved
        exact made ▸ reserved

theorem IsNew.sound {capacity : Nat} (new : p.IsNew capacity) : p.Sound := by
  obtain ⟨steal, steps⟩ := new.steps
  exact (Sound.empty capacity steal).steps steps

theorem IsNew.capacity_eq {capacity : Nat} (new : p.IsNew capacity) :
    p.capacity = min capacity maxCapacity := by
  obtain ⟨steal, steps⟩ := new.steps
  exact steps.capacity

end Pool

end SignalGraph
