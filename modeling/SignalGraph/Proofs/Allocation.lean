import SignalGraph.Proofs.GraphPools

/-! # Slots for values

A value goes to the instance that it is for. Where there is none it takes a slot for it: that of an
instance that is not active, else that of one which the steal mode gives up. The rules leave no
choice, so that they say of each value what becomes of the pool, and all other slots stay as they
are.
-/

namespace SignalGraph

theorem Timetag.ticks_injective : Function.Injective Timetag.ticks := by
  intro t u same
  have fraction := t.frac.toNat_lt_size
  have fraction' := u.frac.toNat_lt_size
  simp only [ticks, UInt32.size] at same fraction fraction'
  obtain ⟨sec, frac⟩ := t
  obtain ⟨sec', frac'⟩ := u
  simp only [mk.injEq, ← UInt32.toNat_inj]
  simp only at same fraction fraction'
  omega

/-- Whether a steal mode gives up an instance rather than another: that which became active first,
    or last, and the lower of two that became active at the same time. -/
def StealMode.Prefers (mode : StealMode) (i j : Instance) : Prop :=
  ∃ t u, i.activated = some t ∧ j.activated = some u ∧
    match mode with
    | .none => False
    | .oldest => t < u ∨ (t = u ∧ i.id ≤ j.id)
    | .newest => u < t ∨ (t = u ∧ i.id ≤ j.id)

/-- The time since which an instance has been active, if it ever was. -/
def Instance.since (i : Instance) : Nat := (i.activated.map Timetag.ticks).getD 0

theorem StealMode.prefers_iff {mode : StealMode} {i j : Instance} (some : i.activated.isSome)
    (some' : j.activated.isSome) : mode.Prefers i j ↔ match mode with
      | .none => False
      | .oldest => i.since < j.since ∨ (i.since = j.since ∧ i.id ≤ j.id)
      | .newest => j.since < i.since ∨ (i.since = j.since ∧ i.id ≤ j.id) := by
  obtain ⟨t, since⟩ := Option.isSome_iff_exists.mp some
  obtain ⟨u, since'⟩ := Option.isSome_iff_exists.mp some'
  have earlier (a b : Timetag) : a < b ↔ a.ticks < b.ticks := Iff.rfl
  cases mode <;>
    simp [Prefers, since, since', Instance.since, earlier, Timetag.ticks_injective.eq_iff]

theorem StealMode.Prefers.antisymm {mode : StealMode} {i j : Instance} (first : mode.Prefers i j)
    (second : mode.Prefers j i) : i.id = j.id := by
  obtain ⟨t, u, since, since', order⟩ := first
  obtain ⟨u', t', again', again, order'⟩ := second
  obtain rfl := Option.some.inj (since.symm.trans again)
  obtain rfl := Option.some.inj (since'.symm.trans again')
  cases mode with
  | none => exact order.elim
  | oldest | newest =>
      rcases order with below | ⟨rfl, low⟩ <;> rcases order' with above | ⟨same, low'⟩
      · exact absurd above (Nat.lt_asymm below)
      · subst same
        exact absurd below (Nat.lt_irrefl _)
      · exact absurd above (Nat.lt_irrefl _)
      · exact UInt64.le_antisymm low low'

namespace Pool

variable {p q r : Pool} {old new i : Instance} {id : UInt64} {sample : Sample}
  {state : InstanceState} {told : List PoolEvent}

/-! ## One slot -/

/-- Whether a pool is another in which one slot went from an instance to another, or changed. -/
structure Swaps (p : Pool) (old new : Instance) (q : Pool) : Prop where
  steal : q.steal = p.steal
  capacity : q.capacity = p.capacity
  ascending : q.Ascending
  there : old ∈ p.slots
  slots : q.slots.Perm (new :: p.slots.erase old)

theorem Swaps.size (swaps : p.Swaps old new q) : q.size = p.size := by
  have length := swaps.slots.length_eq
  rw [List.length_cons, List.length_erase_of_mem swaps.there] at length
  have some := List.length_pos_of_mem swaps.there
  simp only [Pool.size]
  omega

/-- Ascending slots are settled by what is among them. -/
theorem Swaps.unique (first : p.Swaps old new q) (second : p.Swaps old new r) : q = r := by
  have slots : q.slots = r.slots :=
    (first.slots.trans second.slots.symm).eq_of_pairwise
      (fun _ _ _ _ below above => absurd below (UInt64.lt_asymm above))
      first.ascending second.ascending
  cases q
  cases r
  exact (Pool.mk.injEq ..).mpr
    ⟨slots, first.steal.trans second.steal.symm, first.capacity.trans second.capacity.symm⟩

theorem Ascending.splits (ascending : p.Ascending) (there : i ∈ p.slots) :
    ∃ low high, p.slots = low ++ i :: high ∧ ∀ j ∈ low ++ high, j.id ≠ i.id := by
  obtain ⟨low, high, slots⟩ := List.append_of_mem there
  rw [Ascending, slots] at ascending
  obtain ⟨-, upper, apart⟩ := List.pairwise_append.mp ascending
  refine ⟨low, high, slots, fun j member same => ?_⟩
  rcases List.mem_append.mp member with early | late
  · exact UInt64.lt_irrefl _ (same ▸ apart j early i List.mem_cons_self)
  · exact UInt64.lt_irrefl _ (same ▸ (List.pairwise_cons.mp upper).1 j late)

theorem erase_of_splits {low high : List Instance} (apart : ∀ j ∈ low ++ high, j.id ≠ i.id) :
    (low ++ i :: high).erase i = low ++ high := by
  have absent : i ∉ low := fun member => apart i (List.mem_append_left high member) rfl
  rw [List.erase_append_right _ absent, List.erase_cons_head]

theorem Ascending.slots_erase (ascending : p.Ascending) (there : i ∈ p.slots) :
    (p.erase i.id).slots = p.slots.erase i := by
  obtain ⟨low, high, slots, apart⟩ := ascending.splits there
  have others : (low ++ high).filter (fun j => j.id != i.id) = low ++ high :=
    List.filter_eq_self.mpr fun j member => bne_iff_ne.mpr (apart j member)
  rw [erase, slots, erase_of_splits apart, ← others, List.filter_append, List.filter_append,
    List.filter_cons_of_neg (by simp)]

theorem Ascending.slots_modify (ascending : p.Ascending) (there : i ∈ p.slots)
    (f : Instance → Instance) : (p.modify i.id f).slots.Perm (f i :: p.slots.erase i) := by
  obtain ⟨low, high, slots, apart⟩ := ascending.splits there
  have others : (low ++ high).map (fun j => if j.id == i.id then f j else j) = low ++ high :=
    (List.map_congr_left fun j member => by simp [apart j member]).trans (List.map_id _)
  rw [Pool.modify, slots, erase_of_splits apart, ← others, List.map_append, List.map_cons,
    List.map_append, if_pos (beq_self_eq_true _)]
  exact List.perm_middle

theorem slots_insert (p : Pool) (i : Instance) : (p.insert i).slots.Perm (i :: p.slots) := by
  have whole := List.take_append_drop (p.place i.id) p.slots
  exact List.perm_middle.trans (.of_eq (congrArg (i :: ·) whole))

theorem Ascending.swaps_modify (ascending : p.Ascending) (there : i ∈ p.slots)
    {f : Instance → Instance} (keeps : ∀ j, (f j).id = j.id) :
    p.Swaps i (f i) (p.modify i.id f) :=
  ⟨rfl, rfl, ascending.modify keeps, there, ascending.slots_modify there f⟩

theorem Ascending.swaps_replace (ascending : p.Ascending) (there : old ∈ p.slots)
    (absent : ∀ j ∈ p.slots, j.id ≠ id) (sample : Sample) :
    p.Swaps old (.started id sample) (p.replace old.id id sample) := by
  have fewer : (p.erase old.id).Ascending := ascending.ofSublist List.filter_sublist
  refine ⟨rfl, rfl, fewer.insert fun j member => absent j (mem_erase.mp member).1, there, ?_⟩
  exact ascending.slots_erase there ▸ slots_insert (p.erase old.id) (.started id sample)

/-! ## Idle instances -/

/-- Whether an instance is the lowest of those in a state. -/
def IsLowest (p : Pool) (state : InstanceState) (old : Instance) : Prop :=
  old ∈ p.slots ∧ old.state = state ∧ ∀ i ∈ p.slots, i.state = state → old.id ≤ i.id

theorem IsLowest.unique (ascending : p.Ascending) (first : p.IsLowest state old)
    (second : p.IsLowest state i) : old = i :=
  ascending.unique first.1 second.1 <|
    UInt64.le_antisymm (first.2.2 i second.1 second.2.1) (second.2.2 old first.1 first.2.1)

/-- What is found first in ascending order is the lowest. -/
theorem Ascending.find?_eq_some_iff (ascending : p.Ascending) :
    p.slots.find? (fun i => i.state == state) = some old ↔ p.IsLowest state old := by
  have lowest {j : Instance} (found : p.slots.find? (fun i => i.state == state) = some j) :
      p.IsLowest state j := by
    obtain ⟨own, low, high, slots, others⟩ := List.find?_eq_some_iff_append.mp found
    have order := ascending
    rw [Ascending, slots] at order
    refine ⟨List.mem_of_find?_eq_some found, by simpa using own, fun i member same => ?_⟩
    rw [slots] at member
    rcases List.mem_append.mp member with early | late
    · simpa [same] using others i early
    · rcases List.mem_cons.mp late with rfl | later
      · exact UInt64.le_refl _
      · have upper := (List.pairwise_append.mp order).2.1
        exact UInt64.le_of_lt ((List.pairwise_cons.mp upper).1 i later)
  refine ⟨lowest, fun isLowest => ?_⟩
  cases found : p.slots.find? (fun i => i.state == state) with
  | none =>
      have other := List.find?_eq_none.mp found old isLowest.1
      exact absurd (beq_iff_eq.mpr isLowest.2.1) other
  | some j => rw [(lowest found).unique ascending isLowest]

theorem find?_state_eq_none_iff :
    p.slots.find? (fun i => i.state == state) = none ↔ ∀ i ∈ p.slots, i.state ≠ state := by
  simp

theorem Ascending.idle?_eq_some_iff (ascending : p.Ascending) :
    p.idle? = some old ↔ p.IsLowest .reserved old ∨
      (∀ i ∈ p.slots, i.state ≠ .reserved) ∧ p.IsLowest .free old := by
  rw [idle?, Option.orElse_eq_orElse, Option.orElse_eq_or, Option.or_eq_some_iff,
    ascending.find?_eq_some_iff, ascending.find?_eq_some_iff, find?_state_eq_none_iff]

theorem idle?_eq_none_iff : p.idle? = none ↔ ∀ i ∈ p.slots, i.isActive := by
  rw [idle?, Option.orElse_eq_orElse, Option.orElse_eq_or, Option.or_eq_none_iff,
    find?_state_eq_none_iff, find?_state_eq_none_iff, ← forall₂_and]
  refine forall₂_congr fun i _ => ?_
  cases state : i.state <;> simp [Instance.isActive, state]

/-! ## Active instances -/

/-- Whether the steal mode gives up an instance. -/
def GivesUp (p : Pool) (old : Instance) : Prop :=
  old ∈ p.slots ∧ old.isActive ∧ ∀ i ∈ p.slots, i.isActive → p.steal.Prefers old i

theorem GivesUp.unique (ascending : p.Ascending) (first : p.GivesUp old) (second : p.GivesUp i) :
    old = i :=
  ascending.unique first.1 second.1
    ((first.2.2 i second.1 second.2.1).antisymm (second.2.2 old first.1 first.2.1))

theorem firstBy_eq_none_iff {before : Instance → Instance → Bool} {is : List Instance} :
    firstBy before is = none ↔ is = [] := by
  cases is with
  | nil => simp [firstBy]
  | cons i is =>
      simp only [firstBy, reduceCtorEq, iff_false]
      split <;> simp

/-- What comes first by a key is before all others by the key, or has the same and is lower. -/
theorem firstBy_least (key : Instance → Int) {before : Instance → Instance → Bool}
    {is : List Instance} (ascending : is.Pairwise fun i j => i.id < j.id)
    (order : ∀ i ∈ is, ∀ j ∈ is, before i j ↔ key i < key j) (first : firstBy before is = some i) :
    ∀ j ∈ is, key i < key j ∨ (key i = key j ∧ i.id ≤ j.id) := by
  induction is generalizing i with
  | nil => cases first
  | cons x rest ih =>
      obtain ⟨below, ascending⟩ := List.pairwise_cons.mp ascending
      have orderRest : ∀ i ∈ rest, ∀ j ∈ rest, before i j ↔ key i < key j := fun i member j other =>
        order i (List.mem_cons_of_mem x member) j (List.mem_cons_of_mem x other)
      simp only [firstBy] at first
      split at first
      · rename_i none
        obtain rfl := Option.some.inj first
        obtain rfl := firstBy_eq_none_iff.mp none
        intro j member
        obtain rfl := List.mem_singleton.mp member
        exact .inr ⟨rfl, UInt64.le_refl _⟩
      · rename_i k later
        have least := ih ascending orderRest later
        have earlier := order k (List.mem_cons_of_mem x (mem_of_firstBy later)) x List.mem_cons_self
        obtain rfl := Option.some.inj first
        intro j member
        by_cases wins : before k x
        · rw [if_pos wins]
          rcases List.mem_cons.mp member with rfl | inRest
          · exact .inl (earlier.mp wins)
          · exact least j inRest
        · rw [if_neg wins]
          have notEarlier : ¬ key k < key x := fun sooner => wins (earlier.mpr sooner)
          rcases List.mem_cons.mp member with rfl | inRest
          · exact .inr ⟨rfl, UInt64.le_refl _⟩
          · have lower := UInt64.le_of_lt (below j inRest)
            rcases least j inRest with before | ⟨same, -⟩
            · exact .inl (by omega)
            · by_cases sooner : key x < key j
              · exact .inl sooner
              · exact .inr ⟨by omega, lower⟩

theorem earlier_iff {i j : Instance} (some : i.activated.isSome) (some' : j.activated.isSome) :
    earlier i.activated j.activated ↔ i.since < j.since := by
  obtain ⟨t, since⟩ := Option.isSome_iff_exists.mp some
  obtain ⟨u, since'⟩ := Option.isSome_iff_exists.mp some'
  simp only [earlier, since, since', Instance.since, Option.map_some, Option.getD_some,
    decide_eq_true_eq]
  exact Iff.rfl

theorem Sound.activated (sound : p.Sound) (there : i ∈ p.slots) (active : i.isActive) :
    i.activated.isSome := by
  have held := sound.instances i there
  have state : i.state = .active := by simpa [Instance.isActive] using active
  simp only [Instance.Sound, state] at held
  exact held.2

theorem Sound.givesUp_of_victim? (sound : p.Sound) (found : p.victim? = some old) :
    p.GivesUp old := by
  obtain ⟨there, active⟩ := mem_of_victim? found
  refine ⟨there, active, fun i member active' => ?_⟩
  rw [StealMode.prefers_iff (sound.activated there active) (sound.activated member active')]
  have activated {j : Instance} (member : j ∈ p.slots.filter Instance.isActive) :
      j.activated.isSome :=
    sound.activated (List.mem_filter.mp member).1 (List.mem_filter.mp member).2
  have ascending : (p.slots.filter Instance.isActive).Pairwise fun i j => i.id < j.id :=
    List.Pairwise.filter _ sound.ascending
  have among := List.mem_filter.mpr ⟨member, active'⟩
  simp only [victim?] at found
  cases mode : p.steal with
  | none => simp [mode] at found
  | oldest =>
      simp only [mode] at found
      have least := firstBy_least (fun i => i.since) ascending
        (fun i member j other => by
          rw [earlier_iff (activated member) (activated other), Int.ofNat_lt]) found i among
      rcases least with sooner | ⟨same, lower⟩
      · exact .inl (Int.ofNat_lt.mp sooner)
      · exact .inr ⟨Int.ofNat_inj.mp same, lower⟩
  | newest =>
      simp only [mode] at found
      have least := firstBy_least (fun i => -i.since) ascending
        (fun i member j other => by
          rw [earlier_iff (activated other) (activated member)]
          omega) found i among
      rcases least with later | ⟨same, lower⟩
      · exact .inl (by omega)
      · exact .inr ⟨by omega, lower⟩

theorem victim?_eq_none_iff : p.victim? = none ↔
    p.steal = .none ∨ ∀ i ∈ p.slots, i.isActive = false := by
  simp only [victim?]
  cases p.steal <;> simp [firstBy_eq_none_iff]

theorem Sound.victim?_eq_some_iff (sound : p.Sound) : p.victim? = some old ↔ p.GivesUp old := by
  refine ⟨sound.givesUp_of_victim?, fun given => ?_⟩
  cases found : p.victim? with
  | none =>
      rcases victim?_eq_none_iff.mp found with mode | silent
      · obtain ⟨_, _, _, _, never⟩ := given.2.2 old given.1 given.2.1
        simp only [mode] at never
      · exact absurd given.2.1 (by simp [silent old given.1])
  | some j => rw [(sound.givesUp_of_victim? found).unique sound.ascending given]

/-! ## Values -/

/-- What becomes of a pool with a value for an instance, and what is told of it. The value goes to
    the instance if it is there, which becomes active if it was not. Else the instance takes a slot,
    without a tag: the lowest that is reserved, or if there is none the lowest that is free, or if
    all are active that of the instance that the steal mode gives up. If there is no slot to be had
    the value is dropped. -/
inductive Allocates (p : Pool) (id : UInt64) (sample : Sample) : List PoolEvent → Pool → Prop
  | goesOn {i : Instance} {q : Pool} (own : i.id = id) (active : i.isActive)
      (swaps : p.Swaps i { i with last := some sample } q) : Allocates p id sample [⟨.update, id⟩] q
  | starts {i : Instance} {q : Pool} (own : i.id = id) (idle : i.isActive = false)
      (swaps : p.Swaps i
        { i with state := .active, activated := some sample.time, last := some sample } q) :
      Allocates p id sample [⟨.new, id⟩] q
  | takesReserved {old : Instance} {q : Pool} (absent : ∀ i ∈ p.slots, i.id ≠ id)
      (lowest : p.IsLowest .reserved old)
      (swaps : p.Swaps old (.started id sample) q) :
      Allocates p id sample [⟨.new, id⟩] q
  | takesFree {old : Instance} {q : Pool} (absent : ∀ i ∈ p.slots, i.id ≠ id)
      (unreserved : ∀ i ∈ p.slots, i.state ≠ .reserved) (lowest : p.IsLowest .free old)
      (swaps : p.Swaps old (.started id sample) q) :
      Allocates p id sample [⟨.new, id⟩] q
  | takesActive {old : Instance} {q : Pool} (absent : ∀ i ∈ p.slots, i.id ≠ id)
      (full : ∀ i ∈ p.slots, i.isActive) (given : p.GivesUp old)
      (swaps : p.Swaps old (.started id sample) q) :
      Allocates p id sample [⟨.releasedHere, old.id⟩, ⟨.new, id⟩] q
  | drops (absent : ∀ i ∈ p.slots, i.id ≠ id) (full : ∀ i ∈ p.slots, i.isActive)
      (kept : p.slots = [] ∨ p.steal = .none) : Allocates p id sample [⟨.overflow, id⟩] p

theorem allocates_update (sound : p.Sound) (id : UInt64) (sample : Sample) :
    p.Allocates id sample (p.update id sample).2 (p.update id sample).1 := by
  cases found : p.get? id with
  | some i =>
      obtain ⟨there, rfl⟩ := mem_of_get? found
      have swaps := sound.ascending.swaps_modify there fun j => j.id_play sample
      simp only [update, found]
      cases active : i.isActive with
      | true =>
          exact .goesOn rfl active (Instance.play_of_active active sample ▸ swaps)
      | false =>
          exact .starts rfl active (Instance.play_of_idle active sample ▸ swaps)
  | none =>
      have absent := sound.ascending.get?_eq_none_iff.mp found
      have swaps {old : Instance} (there : old ∈ p.slots) :=
        sound.ascending.swaps_replace there absent sample
      simp only [update, found]
      cases spare : p.idle? with
      | some old =>
          rcases sound.ascending.idle?_eq_some_iff.mp spare with lowest | ⟨unreserved, lowest⟩
          · exact .takesReserved absent lowest (swaps lowest.1)
          · exact .takesFree absent unreserved lowest (swaps lowest.1)
      | none =>
          have full := idle?_eq_none_iff.mp spare
          cases robbed : p.victim? with
          | some old =>
              have given := sound.givesUp_of_victim? robbed
              exact .takesActive absent full given (swaps given.1)
          | none =>
              refine .drops absent full ?_
              rcases victim?_eq_none_iff.mp robbed with mode | silent
              · exact .inr mode
              · refine .inl (List.eq_nil_iff_forall_not_mem.mpr fun i member => ?_)
                simpa [silent i member] using full i member

/-- The rules leave no choice. -/
theorem Allocates.eq_update (sound : p.Sound) (allocates : p.Allocates id sample told q) :
    p.update id sample = (q, told) := by
  have ascending := sound.ascending
  have missing (absent : ∀ i ∈ p.slots, i.id ≠ id) : p.get? id = none :=
    ascending.get?_eq_none_iff.mpr absent
  have replaced {old : Instance} {r : Pool} (absent : ∀ i ∈ p.slots, i.id ≠ id)
      (swaps : p.Swaps old (.started id sample) r) : p.replace old.id id sample = r :=
    (ascending.swaps_replace swaps.there absent sample).unique swaps
  cases allocates with
  | @goesOn i _ own active swaps =>
      subst own
      have found := ascending.get?_eq_some_iff.mpr ⟨swaps.there, rfl⟩
      have played := ascending.swaps_modify swaps.there fun j => j.id_play sample
      rw [Instance.play_of_active active] at played
      simp only [update, found, active, ↓reduceIte, played.unique swaps]
  | @starts i _ own idle swaps =>
      subst own
      have found := ascending.get?_eq_some_iff.mpr ⟨swaps.there, rfl⟩
      have played := ascending.swaps_modify swaps.there fun j => j.id_play sample
      rw [Instance.play_of_idle idle] at played
      simp only [update, found, idle, Bool.false_eq_true, ↓reduceIte, played.unique swaps]
  | takesReserved absent lowest swaps =>
      have spare := ascending.idle?_eq_some_iff.mpr (.inl lowest)
      simp only [update, missing absent, spare, replaced absent swaps]
  | takesFree absent unreserved lowest swaps =>
      have spare := ascending.idle?_eq_some_iff.mpr (.inr ⟨unreserved, lowest⟩)
      simp only [update, missing absent, spare, replaced absent swaps]
  | takesActive absent full given swaps =>
      have robbed := sound.victim?_eq_some_iff.mpr given
      simp only [update, missing absent, idle?_eq_none_iff.mpr full, robbed, replaced absent swaps]
  | drops absent full kept =>
      have none : p.victim? = none := victim?_eq_none_iff.mpr <| kept.symm.imp_right fun empty => by
        simp [empty]
      simp only [update, missing absent, idle?_eq_none_iff.mpr full, none]

/-- A value is dropped, or one slot becomes that of its instance, which is active then and holds
    it. -/
theorem Allocates.dropped_or_swaps (allocates : p.Allocates id sample told q) :
    (told = [⟨.overflow, id⟩] ∧ q = p ∧ ∀ i ∈ p.slots, i.id ≠ id) ∨
      ∃ old new, p.Swaps old new q ∧ new.id = id ∧ new.isActive ∧ new.last = some sample := by
  cases allocates with
  | goesOn own active swaps => exact .inr ⟨_, _, swaps, own, active, rfl⟩
  | starts own _ swaps => exact .inr ⟨_, _, swaps, own, rfl, rfl⟩
  | takesReserved _ _ swaps | takesFree _ _ _ swaps | takesActive _ _ _ swaps =>
      exact .inr ⟨_, _, swaps, rfl, rfl, rfl⟩
  | drops absent => exact .inl ⟨rfl, rfl, absent⟩

/-- At most one slot changes. -/
theorem Allocates.swaps (allocates : p.Allocates id sample told q) :
    q = p ∨ ∃ old new, p.Swaps old new q := by
  rcases allocates.dropped_or_swaps with ⟨-, same, -⟩ | ⟨old, new, swaps, -⟩
  · exact .inl same
  · exact .inr ⟨old, new, swaps⟩

theorem Swaps.get? (swaps : p.Swaps old new q) : q.get? new.id = some new :=
  swaps.ascending.get?_eq_some_iff.mpr ⟨swaps.slots.mem_iff.mpr List.mem_cons_self, rfl⟩

/-- Unless the value is dropped, the instance is active afterwards and holds it. -/
theorem Allocates.holds (allocates : p.Allocates id sample told q) : told = [⟨.overflow, id⟩] ∨
    ∃ i, q.get? id = some i ∧ i.isActive ∧ i.last = some sample := by
  rcases allocates.dropped_or_swaps with ⟨dropped, -⟩ | ⟨old, new, swaps, rfl, active, last⟩
  · exact .inl dropped
  · exact .inr ⟨new, swaps.get?, active, last⟩

/-- What comes of a value in a pool, whatever was asked of the pool before, is what the rules say
    and nothing else. At most one slot changes and none comes or goes, and unless the value is
    dropped its instance is active and holds it. -/
theorem values_allocated {capacity : Nat} (made : p.Made capacity) (id : UInt64) (sample : Sample) :
    (∀ told q, p.update id sample = (q, told) ↔ p.Allocates id sample told q) ∧
      ((p.update id sample).1 = p ∨ ∃ old new, p.Swaps old new (p.update id sample).1) ∧
      (p.update id sample).1.size = p.size ∧
      ((p.update id sample).2 ≠ [⟨.overflow, id⟩] → ∃ i,
        (p.update id sample).1.get? id = some i ∧ i.isActive ∧ i.last = some sample) := by
  have sound := made.kept.sound
  have allocates := allocates_update sound id sample
  refine ⟨fun told q => ⟨fun same => ?_, fun rules => rules.eq_update sound⟩, allocates.swaps, ?_,
    allocates.holds.resolve_left⟩
  · rwa [same] at allocates
  · rcases allocates.swaps with same | ⟨old, new, swaps⟩
    · rw [same]
    · exact swaps.size

/-- Of two instances that became active at the same time the lower gives up its slot, and the tag
    does not pass on. -/
theorem crowded_allocated :
    let value : Value := ⟨.int32 [1], .inr (by decide)⟩
    let start : Pool := ⟨[.reserved 0, .reserved 1, .reserved 2], .oldest, 3⟩
    let p := (start.run [.update 7 ⟨value, ⟨2, 0⟩⟩, .update 5 ⟨value, ⟨1, 0⟩⟩,
      .update 4 ⟨value, ⟨1, 0⟩⟩, .setTag 4 (some 9)]).1
    p.Made 3 ∧ p.update 8 ⟨value, ⟨3, 0⟩⟩ = (⟨[.started 5 ⟨value, ⟨1, 0⟩⟩,
      .started 7 ⟨value, ⟨2, 0⟩⟩, .started 8 ⟨value, ⟨3, 0⟩⟩], .oldest, 3⟩,
      [⟨.releasedHere, 4⟩, ⟨.new, 8⟩]) ∧ ∃ old, p.GivesUp old ∧ old.id = 4 := by
  intro value start p
  have new : start.IsNew 3 := ⟨.oldest, .inr ⟨3, rfl⟩⟩
  have made : p.Made 3 := ⟨start, new, _, rfl⟩
  have ran : p.update 8 ⟨value, ⟨3, 0⟩⟩ = (⟨[.started 5 ⟨value, ⟨1, 0⟩⟩,
      .started 7 ⟨value, ⟨2, 0⟩⟩, .started 8 ⟨value, ⟨3, 0⟩⟩], .oldest, 3⟩,
      [⟨.releasedHere, 4⟩, ⟨.new, 8⟩]) := by decide +kernel
  refine ⟨made, ran, ?_⟩
  obtain ⟨q, told, same, events⟩ : ∃ q told, p.update 8 ⟨value, ⟨3, 0⟩⟩ = (q, told) ∧
      told = [⟨.releasedHere, 4⟩, ⟨.new, 8⟩] := ⟨_, _, ran, rfl⟩
  have rules := ((values_allocated made 8 ⟨value, ⟨3, 0⟩⟩).1 told q).mp same
  cases rules with
  | @takesActive old _ absent full given swaps =>
      exact ⟨old, given, (PoolEvent.mk.inj (List.cons.inj events).1).2⟩
  | goesOn | starts | takesReserved | takesFree | drops => simp at events

end Pool

end SignalGraph
