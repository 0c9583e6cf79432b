import SignalGraph.Proofs.Allocation
import SignalGraph.Proofs.Conversion

/-! # Total order of values

Values of a kind whose elements are exact are in a total order: that of dictionaries, in which the
first elements that differ decide, and a vector stands before those that it begins. Among numbers
with a point the two zeros are equal, though not the same, and what is not a number has no order.
-/

namespace SignalGraph

open Std

/-- Whether elements of a kind are equal in order only if they are the same, and always have one. -/
def Kind.isExact : Kind → Bool
  | bool | int32 | int64 | string | time => true
  | null | float32 | float64 => false

/-! ## Elements -/

namespace Binary

variable {f : BinaryFormat}

theorem compare?_swap (x y : Binary f) : y.compare? x = (x.compare? y).map Ordering.swap := by
  simp only [compare?, Bool.or_comm y.isNaN]
  split
  · rfl
  · exact congrArg some OrientedOrd.eq_swap

end Binary

namespace Scalar

variable {a b c : Scalar}

theorem compare?_swap (a b : Scalar) : b.compare? a = (a.compare? b).map Ordering.swap := by
  cases a <;> cases b
  case bool.bool | int32.int32 | int64.int64 => exact congrArg some OrientedOrd.eq_swap
  case float32.float32 x y => exact x.compare?_swap y
  case float64.float64 x y => exact x.compare?_swap y
  case string.string s t =>
      have back : compare t s = (compare s t).swap := OrientedOrd.eq_swap
      exact congrArg some back
  case time.time s t =>
      have back : compare t.ticks s.ticks = (compare s.ticks t.ticks).swap := OrientedOrd.eq_swap
      exact congrArg some back
  all_goals rfl

/-- Only elements of one kind have an order. -/
theorem kind_eq_of_compare? {order : Ordering} (ordered : a.compare? b = some order) :
    a.kind = b.kind := by
  cases a <;> cases b
  case bool.bool | int32.int32 | int64.int64 | float32.float32 | float64.float64 | string.string |
    time.time => rfl
  all_goals cases ordered

theorem not_isNaN_of_isExact (exact : a.kind.isExact) : a.isNaN = false := by
  cases a with
  | float32 | float64 => cases exact
  | bool | int32 | int64 | string | time => rfl

theorem compare?_eq_iff (exact : a.kind.isExact) : a.compare? b = some .eq ↔ a = b := by
  constructor
  · intro equal
    have same {κ : Type} [Ord κ] [LawfulEqOrd κ] {x y : κ}
        (equal : some (compare x y) = some .eq) : x = y :=
      LawfulEqOrd.eq_of_compare (Option.some.inj equal)
    have bit : ∀ x y : Bool, x.toNat = y.toNat → x = y := by decide
    have kinds := kind_eq_of_compare? equal
    cases a <;> cases b <;> cases kinds
    case bool.bool.refl x y => exact congrArg bool (bit x y (same equal))
    case int32.int32.refl x y => exact congrArg int32 (Int32.toInt_inj.mp (same equal))
    case int64.int64.refl x y => exact congrArg int64 (Int64.toInt_inj.mp (same equal))
    case string.string.refl x y => exact congrArg string (same equal)
    case time.time.refl x y => exact congrArg time (Timetag.ticks_injective (same equal))
    case float32.float32.refl | float64.float64.refl => cases exact
  · rintro rfl
    exact compare?_self (not_isNaN_of_isExact exact)

theorem compare?_trans (exact : a.kind.isExact) (first : a.compare? b = some .lt)
    (second : b.compare? c = some .lt) : a.compare? c = some .lt := by
  have chain {κ : Type} [Ord κ] [TransOrd κ] {x y z : κ} (first : some (compare x y) = some .lt)
      (second : some (compare y z) = some .lt) : some (compare x z) = some .lt :=
    congrArg some (TransCmp.lt_trans (Option.some.inj first) (Option.some.inj second))
  have kinds := kind_eq_of_compare? first
  have kinds' := kind_eq_of_compare? second
  cases a <;> cases b <;> cases kinds <;> cases c <;> cases kinds'
  case bool | int32 | int64 => exact chain first second
  case string => exact chain (κ := String) first second
  case time => exact chain (κ := Nat) first second
  case float32 | float64 => cases exact

end Scalar

/-! ## Vectors -/

namespace Value

variable {u v w : Value} {as bs cs : List Scalar} {kind : Kind}

theorem compareScalars?_swap (as bs : List Scalar) :
    compareScalars? bs as = (compareScalars? as bs).map Ordering.swap := by
  induction as generalizing bs with
  | nil => cases bs <;> rfl
  | cons a as ih =>
      cases bs with
      | nil => rfl
      | cons b bs =>
          have first := a.compare?_swap b
          simp only [compareScalars?, first]
          cases a.compare? b with
          | none => rfl
          | some order => cases order with
            | lt | gt => rfl
            | eq => exact ih bs

theorem compareScalars?_eq_iff (exact : ∀ a ∈ as, a.kind.isExact) :
    compareScalars? as bs = some .eq ↔ as = bs := by
  induction as generalizing bs with
  | nil => cases bs <;> simp [compareScalars?]
  | cons a as ih =>
      obtain ⟨own, others⟩ := List.forall_mem_cons.mp exact
      cases bs with
      | nil => simp [compareScalars?]
      | cons b bs =>
          rw [compareScalars?_cons_iff, Scalar.compare?_eq_iff own, ih others, List.cons.injEq]

theorem compareScalars?_cons_lt_iff {a b : Scalar} (exact : a.kind.isExact) :
    compareScalars? (a :: as) (b :: bs) = some .lt ↔
      a.compare? b = some .lt ∨ a = b ∧ compareScalars? as bs = some .lt := by
  rw [← Scalar.compare?_eq_iff exact]
  simp only [compareScalars?]
  cases a.compare? b with
  | none => simp
  | some order => cases order <;> simp

/-- Nothing stands before the empty vector. -/
theorem compareScalars?_nil_ne_lt : compareScalars? as [] ≠ some .lt := by
  have none : compare as.length 0 ≠ .lt := by
    intro less
    have below := Nat.compare_eq_lt.mp less
    omega
  cases as <;> exact fun less => none (Option.some.inj less)

theorem compareScalars?_trans (exact : ∀ a ∈ as, a.kind.isExact)
    (first : compareScalars? as bs = some .lt) (second : compareScalars? bs cs = some .lt) :
    compareScalars? as cs = some .lt := by
  induction as generalizing bs cs with
  | nil =>
      cases cs with
      | nil => exact absurd second compareScalars?_nil_ne_lt
      | cons c cs => rfl
  | cons a as ih =>
      obtain ⟨own, others⟩ := List.forall_mem_cons.mp exact
      cases bs with
      | nil => exact absurd first compareScalars?_nil_ne_lt
      | cons b bs =>
          cases cs with
          | nil => exact absurd second compareScalars?_nil_ne_lt
          | cons c cs =>
              rw [compareScalars?_cons_lt_iff own] at first ⊢
              rcases first with below | ⟨rfl, below⟩
              · have kinds := Scalar.kind_eq_of_compare? below
                rw [compareScalars?_cons_lt_iff (kinds ▸ own)] at second
                rcases second with below' | ⟨rfl, -⟩
                · exact .inl (Scalar.compare?_trans own below below')
                · exact .inl below
              · rw [compareScalars?_cons_lt_iff own] at second
                rcases second with below' | ⟨rfl, below'⟩
                · exact .inl below'
                · exact .inr ⟨rfl, ih others below below'⟩

/-- What two vectors begin with alike does not count. -/
theorem compareScalars?_append (front as bs : List Scalar) (clean : ∀ a ∈ front, a.isNaN = false) :
    compareScalars? (front ++ as) (front ++ bs) = compareScalars? as bs := by
  induction front with
  | nil => rfl
  | cons a front ih =>
      obtain ⟨own, others⟩ := List.forall_mem_cons.mp clean
      simp only [List.cons_append, compareScalars?, Scalar.compare?_self own]
      exact ih others

/-! ## Values -/

theorem compare?_of_kind_ne (apart : v.kind ≠ w.kind) : v.compare? w = none := if_pos (.inl apart)

theorem compare?_of_isNull (none : v.isNull) : v.compare? w = Option.none := if_pos (.inr none)

theorem isNull_congr (same : v.kind = w.kind) : v.isNull = w.isNull :=
  congrArg (· == Kind.null) same

theorem compare?_swap (v w : Value) : w.compare? v = (v.compare? w).map Ordering.swap := by
  by_cases same : v.kind = w.kind
  · cases there : v.isNull with
    | true =>
        rw [compare?_of_isNull there, compare?_of_isNull ((isNull_congr same).symm.trans there)]
        rfl
    | false =>
        have there' : w.isNull = false := (isNull_congr same).symm.trans there
        rw [compare?_eq same there, compare?_eq same.symm there', compareScalars?_swap]
  · rw [compare?_of_kind_ne same, compare?_of_kind_ne (Ne.symm same)]
    rfl

section Exact

variable (exact : kind.isExact) (own : v.kind = kind) (own' : w.kind = kind)

include exact own

theorem isNull_of_isExact : v.isNull = false := by
  subst own
  simp only [isNull, beq_eq_false_iff_ne]
  intro none
  rw [none] at exact
  cases exact

theorem isExact_of_mem_scalars : ∀ a ∈ v.scalars, a.kind.isExact := by
  intro a member
  rw [kind_of_mem_scalars member, own]
  exact exact

theorem not_isNaN_of_mem_scalars : ∀ a ∈ v.scalars, a.isNaN = false := by
  intro a member
  exact Scalar.not_isNaN_of_isExact (isExact_of_mem_scalars exact own a member)

include own'

theorem compare?_eq_compareScalars? : v.compare? w = compareScalars? v.scalars w.scalars :=
  compare?_eq (own.trans own'.symm) (isNull_of_isExact exact own)

theorem compare?_eq_iff : v.compare? w = some .eq ↔ v = w := by
  rw [compare?_eq_compareScalars? exact own own',
    compareScalars?_eq_iff (isExact_of_mem_scalars exact own)]
  constructor
  · exact eq_of_scalars (own.trans own'.symm)
  · exact congrArg scalars

theorem compare?_trans_lt (first : u.compare? v = some .lt) (second : v.compare? w = some .lt)
    (own'' : u.kind = kind) : u.compare? w = some .lt := by
  rw [compare?_eq_compareScalars? exact own'' own] at first
  rw [compare?_eq_compareScalars? exact own own'] at second
  rw [compare?_eq_compareScalars? exact own'' own']
  exact compareScalars?_trans (isExact_of_mem_scalars exact own'') first second

theorem compare?_of_scalars {front : List Scalar} (first : v.scalars = front ++ as)
    (second : w.scalars = front ++ bs) : v.compare? w = compareScalars? as bs := by
  have clean := not_isNaN_of_mem_scalars exact own
  rw [compare?_eq_compareScalars? exact own own', first, second, compareScalars?_append]
  intro a member
  exact clean a (first ▸ List.mem_append_left as member)

end Exact

end Value

/-- Whether values of a kind are in the total order of dictionaries. -/
structure Kind.Ordered (k : Kind) : Prop where
  defined : ∀ v w : Value, v.kind = k → w.kind = k → ∃ order, v.compare? w = some order
  swap : ∀ v w : Value, v.kind = k → w.kind = k → w.compare? v = (v.compare? w).map Ordering.swap
  trans : ∀ u v w : Value, u.kind = k → v.kind = k → w.kind = k → ∀ order,
    u.compare? v = some order → v.compare? w = some order → u.compare? w = some order
  eq_iff : ∀ v w : Value, v.kind = k → w.kind = k → (v.compare? w = some .eq ↔ v = w)
  extends_lt : ∀ v w : Value, v.kind = k → w.kind = k → v.scalars <+: w.scalars → v ≠ w →
    v.compare? w = some .lt
  decides : ∀ v w : Value, v.kind = k → w.kind = k → ∀ front a as b bs,
    v.scalars = front ++ a :: as → w.scalars = front ++ b :: bs → a ≠ b →
      v.compare? w = a.compare? b

namespace Kind

variable {k : Kind} {u v w : Value}

open Value

theorem trans_of_isExact (exact : k.isExact) (own : u.kind = k) (own' : v.kind = k)
    (own'' : w.kind = k) {order : Ordering} (first : u.compare? v = some order)
    (second : v.compare? w = some order) : u.compare? w = some order := by
  cases order with
  | lt => exact compare?_trans_lt exact own' own'' first second own
  | eq =>
      rw [(compare?_eq_iff exact own own').mp first]
      exact second
  | gt =>
      -- The other way round, each stands before the one it stood behind.
      have back : w.compare? v = some .lt := by rw [compare?_swap v w, second]; rfl
      have back' : v.compare? u = some .lt := by rw [compare?_swap u v, first]; rfl
      rw [compare?_swap w u, compare?_trans_lt exact own' own back back' own'']
      rfl

theorem lt_of_prefix (exact : k.isExact) (own : v.kind = k) (own' : w.kind = k)
    (longer : v.scalars <+: w.scalars) (apart : v ≠ w) : v.compare? w = some .lt := by
  obtain ⟨rest, parts⟩ := longer
  rw [compare?_of_scalars exact own own' (List.append_nil _).symm parts.symm]
  cases rest with
  | nil => exact absurd (eq_of_scalars (own.trans own'.symm) (by simpa using parts)) apart
  | cons b rest => rfl

theorem decides_of_isExact (exact : k.isExact) (own : v.kind = k) (own' : w.kind = k)
    {front as bs : List Scalar} {a b : Scalar} (first : v.scalars = front ++ a :: as)
    (second : w.scalars = front ++ b :: bs) (apart : a ≠ b) : v.compare? w = a.compare? b := by
  have member : a ∈ v.scalars := by simp [first]
  have differ := mt (Scalar.compare?_eq_iff (isExact_of_mem_scalars exact own a member)).mp apart
  rw [compare?_of_scalars exact own own' first second]
  simp only [compareScalars?]

theorem ordered_of_isExact (exact : k.isExact) : k.Ordered where
  defined v w own own' := by
    rw [compare?_eq_compareScalars? exact own own']
    exact exists_compareScalars?
      (fun a member => ⟨kind_of_mem_scalars member, not_isNaN_of_mem_scalars exact own a member⟩)
      (fun b member => ⟨(kind_of_mem_scalars member).trans (own'.trans own.symm),
        not_isNaN_of_mem_scalars exact own' b member⟩)
  swap v w _ _ := compare?_swap v w
  trans _ _ _ own own' own'' _ := trans_of_isExact exact own own' own''
  eq_iff _ _ := compare?_eq_iff exact
  extends_lt _ _ := lt_of_prefix exact
  decides _ _ own own' _ _ _ _ _ := decides_of_isExact exact own own'

end Kind

namespace Value

/-- Values of each kind whose elements are exact are in the total order of dictionaries. Null has no
order with anything, nor have values of different kinds with each other. -/
theorem exact_kinds_ordered : (∀ k : Kind, k.isExact → k.Ordered) ∧
    ∀ v w : Value, v.kind ≠ w.kind ∨ v = null ∨ w = null → v.compare? w = none := by
  constructor
  · exact fun _ => Kind.ordered_of_isExact
  · intro v w apart
    by_cases same : v.kind = w.kind
    · apply compare?_of_isNull
      rcases apart with differ | rfl | rfl
      · exact absurd same differ
      · rfl
      · rw [isNull_congr same]
        rfl
    · exact compare?_of_kind_ne same

theorem beginning_before_whole :
    (⟨.string ["a"], by decide⟩ : Value).compare? ⟨.string ["a", "b"], by decide⟩ = some .lt ∧
      (only (.bool true)).compare? (only (.int32 1)) = none :=
  ⟨(exact_kinds_ordered.1 .string rfl).extends_lt _ _ rfl rfl ⟨[.string "b"], rfl⟩ (by decide),
    exact_kinds_ordered.2 _ _ (.inl (by decide))⟩

end Value

end SignalGraph
