import SignalGraph.Proofs.Glob
import SignalGraph.Value.Coerce
import SignalGraph.Value.Compare

/-! # Order and matching of values

Where two values have an order and where one matches the other. Values of one kind have an order,
unless they are null or hold what is not a number. A value matches one without stars just if the two
are equal in that order, and it matches itself whatever stars it has.
-/

namespace SignalGraph

/-! ## Elements -/

namespace Binary

variable {f : BinaryFormat} {x y : Binary f}

theorem compare?_of_numbers (first : x.isNaN = false) (second : y.isNaN = false) :
    x.compare? y = some (compare x.rank y.rank) := by
  simp only [compare?, first, second, Bool.or_self, Bool.false_eq_true, ↓reduceIte]

theorem compare?_self (number : x.isNaN = false) : x.compare? x = some .eq := by
  rw [compare?_of_numbers number number, Option.some.injEq, Int.compare_eq_eq]

end Binary

namespace Scalar

variable {a b : Scalar}

/-- Whether an element is not a number where it should be one. -/
def isNaN : Scalar → Bool
  | float32 x => x.isNaN
  | float64 x => x.isNaN
  | _ => false

theorem compare?_string_eq_iff {s t : String} :
    (string s).compare? (string t) = some .eq ↔ s = t := by
  rw [compare?, Option.some.injEq]
  exact compareOfLessAndEq_eq_eq String.le_refl String.not_le

theorem compare?_self (number : a.isNaN = false) : a.compare? a = some .eq := by
  cases a with
  | float32 | float64 => exact Binary.compare?_self number
  | string s => exact compare?_string_eq_iff.mpr rfl
  | time t => exact congrArg some (Nat.compare_eq_eq.mpr rfl)
  | bool | int32 | int64 => simp [compare?]

theorem exists_compare? (same : a.kind = b.kind) (first : a.isNaN = false)
    (second : b.isNaN = false) : ∃ order, a.compare? b = some order := by
  cases a <;> cases b <;> cases same
  case float32 | float64 => exact ⟨_, Binary.compare?_of_numbers first second⟩
  all_goals exact ⟨_, rfl⟩

end Scalar

/-! ## Values -/

namespace Value

variable {v w : Value} {as bs : List Scalar} {kind : Kind}

/-- Whether an element of a value is not a number where it should be one. -/
def hasNaN (v : Value) : Bool := v.scalars.any Scalar.isNaN

/-- Whether no text in a value has a star. -/
def IsLiteral (v : Value) : Prop := ∀ texts, v.toStrings? = some texts → ∀ s ∈ texts, '*' ∉ s.toList

theorem isNull_iff : v.isNull ↔ v = null := by
  constructor
  · intro none
    obtain ⟨payload, valid⟩ := v
    cases payload with
    | null => rfl
    | bool | int32 | int64 | float32 | float64 | string | time => cases none
  · rintro rfl
    rfl

theorem kind_of_mem_scalars {a : Scalar} (member : a ∈ v.scalars) : a.kind = v.kind := by
  obtain ⟨payload, valid⟩ := v
  cases payload with
  | null => cases member
  | bool | int32 | int64 | float32 | float64 | string | time =>
      obtain ⟨x, -, rfl⟩ := List.mem_map.mp member
      rfl

theorem not_isNaN_of_mem {a : Scalar} (clean : v.hasNaN = false) (member : a ∈ v.scalars) :
    a.isNaN = false := by
  simpa using List.any_eq_false.mp clean a member

theorem toStrings?_eq_some_iff {texts : List String} :
    v.toStrings? = some texts ↔ v.payload = .string texts := by
  unfold toStrings?
  split <;> simp_all

theorem kind_eq_string_iff : v.kind = .string ↔ ∃ texts, v.toStrings? = some texts := by
  obtain ⟨payload, valid⟩ := v
  cases payload <;> simp [kind, Payload.kind, toStrings?]

theorem scalars_of_toStrings? {texts : List String} (strings : v.toStrings? = some texts) :
    v.scalars = texts.map .string := by
  rw [scalars, toStrings?_eq_some_iff.mp strings]
  rfl

theorem isLiteral_of_kind_ne (other : v.kind ≠ .string) : v.IsLiteral :=
  fun texts strings => absurd (kind_eq_string_iff.mpr ⟨texts, strings⟩) other

/-! ### Order -/

theorem compare?_eq (same : v.kind = w.kind) (there : v.isNull = false) :
    v.compare? w = compareScalars? v.scalars w.scalars := by
  simp [compare?, same, there]

theorem compareScalars?_cons_iff {a b : Scalar} : compareScalars? (a :: as) (b :: bs) = some .eq ↔
    a.compare? b = some .eq ∧ compareScalars? as bs = some .eq := by
  simp only [compareScalars?]
  split <;> simp_all

theorem compareScalars?_self (clean : ∀ a ∈ as, a.isNaN = false) :
    compareScalars? as as = some .eq := by
  induction as with
  | nil => rfl
  | cons a as ih =>
      obtain ⟨own, others⟩ := List.forall_mem_cons.mp clean
      exact compareScalars?_cons_iff.mpr ⟨Scalar.compare?_self own, ih others⟩

theorem exists_compareScalars? (first : ∀ a ∈ as, a.kind = kind ∧ a.isNaN = false)
    (second : ∀ b ∈ bs, b.kind = kind ∧ b.isNaN = false) :
    ∃ order, compareScalars? as bs = some order := by
  fun_induction compareScalars? as bs with
  | case1 a as b bs equal ih =>
      exact ih (List.forall_mem_cons.mp first).2 (List.forall_mem_cons.mp second).2
  | case2 a as b bs different =>
      obtain ⟨own, -⟩ := List.forall_mem_cons.mp first
      obtain ⟨own', -⟩ := List.forall_mem_cons.mp second
      exact Scalar.exists_compare? (own.1.trans own'.1.symm) own.2 own'.2
  | case3 => exact ⟨_, rfl⟩

theorem compareScalars?_strings_iff {ss ts : List String} :
    compareScalars? (ss.map .string) (ts.map .string) = some .eq ↔ ss = ts := by
  induction ss generalizing ts with
  | nil => cases ts <;> simp [compareScalars?]
  | cons s ss ih =>
      cases ts with
      | nil => simp [compareScalars?]
      | cons t ts =>
          rw [List.map_cons, List.map_cons, compareScalars?_cons_iff, Scalar.compare?_string_eq_iff,
            ih, List.cons.injEq]

/-- A value that is not null and holds only numbers, if any, is equal to itself in order. -/
theorem compare?_self (there : v.isNull = false) (clean : v.hasNaN = false) :
    v.compare? v = some .eq := by
  rw [compare?_eq rfl there]
  exact compareScalars?_self fun _ => not_isNaN_of_mem clean

theorem compare?_null : null.compare? w = none := by
  simp [compare?, isNull, null, kind, Payload.kind]

theorem exists_compare? (same : v.kind = w.kind) (there : v.isNull = false)
    (first : v.hasNaN = false) (second : w.hasNaN = false) :
    ∃ order, v.compare? w = some order := by
  rw [compare?_eq same there]
  exact exists_compareScalars?
    (fun _ member => ⟨kind_of_mem_scalars member, not_isNaN_of_mem first member⟩)
    (fun _ member => ⟨(kind_of_mem_scalars member).trans same.symm, not_isNaN_of_mem second member⟩)

/-! ### Matching -/

theorem matchesGlobs_iff_eq {globs texts : List String}
    (literal : ∀ glob ∈ globs, '*' ∉ glob.toList) : matchesGlobs globs texts ↔ globs = texts := by
  induction globs generalizing texts with
  | nil => cases texts <;> simp [matchesGlobs]
  | cons glob globs ih =>
      cases texts with
      | nil => simp [matchesGlobs]
      | cons text texts =>
          obtain ⟨own, others⟩ := List.forall_mem_cons.mp literal
          rw [matchesGlobs, Bool.and_eq_true, Text.matchesGlob_iff_eq own, ih others,
            List.cons.injEq]

theorem matchesGlobs_self (texts : List String) : matchesGlobs texts texts := by
  induction texts with
  | nil => rfl
  | cons text texts ih => rw [matchesGlobs, Text.matchesGlob_self, Bool.true_and, ih]

theorem isMatchedBy_of_strings {texts globs : List String} (own : v.toStrings? = some texts)
    (other : w.toStrings? = some globs) : v.isMatchedBy w = matchesGlobs globs texts := by
  simp only [isMatchedBy, own, other]

/-- Values of different kinds do not match. -/
theorem isMatchedBy_of_kind_ne (apart : v.kind ≠ w.kind) : v.isMatchedBy w = false := by
  unfold isMatchedBy
  split
  · rename_i own other
    have same := (kind_eq_string_iff.mpr ⟨_, own⟩).trans (kind_eq_string_iff.mpr ⟨_, other⟩).symm
    exact absurd same apart
  · simp [compare?, apart]

/-- Without a star, to match is to be equal in order. -/
theorem isMatchedBy_iff (literal : w.IsLiteral) :
    v.isMatchedBy w ↔ v.compare? w = some .eq := by
  unfold isMatchedBy
  split
  · rename_i texts globs own other
    have first := kind_eq_string_iff.mpr ⟨_, own⟩
    have second := kind_eq_string_iff.mpr ⟨_, other⟩
    have there : v.isNull = false := by simp [isNull, first]
    rw [matchesGlobs_iff_eq (literal globs other), compare?_eq (first.trans second.symm) there,
      scalars_of_toStrings? own, scalars_of_toStrings? other, compareScalars?_strings_iff, eq_comm]
  · exact beq_iff_eq

/-- A value matches itself, unless it is null or holds what is not a number. -/
theorem isMatchedBy_self_iff (clean : v.hasNaN = false) :
    v.isMatchedBy v ↔ v ≠ null := by
  cases strings : v.toStrings? with
  | some texts =>
      rw [isMatchedBy_of_strings strings strings]
      refine iff_of_true (matchesGlobs_self texts) ?_
      rintro rfl
      cases strings
  | none =>
      simp only [isMatchedBy, strings, beq_iff_eq]
      constructor
      · rintro equal rfl
        rw [compare?_null] at equal
        cases equal
      · intro there
        exact compare?_self (Bool.eq_false_iff.mpr (mt isNull_iff.mp there)) clean

/-! ### Coercion -/

theorem coerce_self (v : Value) : v.coerce v.kind = .ok v := if_pos rfl

theorem kind_of_ofPayload {p : Payload} (made : ofPayload p = .ok v) : v.kind = p.kind := by
  unfold ofPayload at made
  split at made
  · cases made
    rfl
  · cases made

end Value

theorem exists_of_map_eq_ok {β γ : Type} {f : β → γ} {x : Except Error β} {c : γ}
    (made : f <$> x = .ok c) : ∃ b, x = .ok b ∧ f b = c := by
  cases x with
  | error => cases made
  | ok b => exact ⟨b, rfl, Except.ok.inj made⟩

theorem Payload.kind_of_ofScalars {as : List Scalar} {kind : Kind} {p : Payload}
    (made : ofScalars as kind = .ok p) : p.kind = kind := by
  cases kind with
  | null =>
      cases made
      rfl
  | bool | int32 | int64 | float32 | float64 | string | time =>
      obtain ⟨xs, -, rfl⟩ := exists_of_map_eq_ok made
      rfl

/-- A value that can be taken as one of a kind is of that kind then. -/
theorem Value.kind_of_coerce {v w : Value} {kind : Kind} (taken : v.coerce kind = .ok w) :
    w.kind = kind := by
  unfold coerce at taken
  split at taken
  · rename_i own
    cases taken
    exact own
  · split at taken
    · cases taken
    · cases made : Payload.ofScalars v.scalars kind with
      | error e =>
          rw [made] at taken
          cases taken
      | ok p =>
          rw [made] at taken
          exact (kind_of_ofPayload taken).trans (Payload.kind_of_ofScalars made)

end SignalGraph
