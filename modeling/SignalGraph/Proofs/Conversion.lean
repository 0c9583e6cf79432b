import Mathlib.Data.List.Forall2
import SignalGraph.Proofs.Comparison
import SignalGraph.Proofs.Numerals

/-! # Conversion of values

A value is taken as one of another kind element by element: it becomes a vector of the same length,
unless one of its elements would be refused alone, and then the first of these says why. Truth values
and integers come back from texts, and narrow ones from wider ones, as they were.
-/

namespace SignalGraph

/-! ## All or the first refusal -/

section Traversal

variable {β γ δ : Type} {f : β → Except Error γ} {xs : List β}

theorem mapM_cons_ok {x : β} {y : γ} (taken : f x = .ok y) :
    (x :: xs).mapM f = (y :: ·) <$> xs.mapM f := by
  simp [List.mapM_cons, taken, bind, Except.bind, Functor.map, Except.map]
  rfl

theorem mapM_cons_error {x : β} {e : Error} (refused : f x = .error e) :
    (x :: xs).mapM f = .error e := by
  simp [List.mapM_cons, refused, bind, Except.bind]

theorem mapM_eq_ok_iff {ys : List γ} :
    xs.mapM f = .ok ys ↔ List.Forall₂ (fun x y => f x = .ok y) xs ys := by
  induction xs generalizing ys with
  | nil => cases ys <;> simp [pure, Except.pure]
  | cons x xs ih =>
      cases first : f x with
      | error e => cases ys <;> simp [mapM_cons_error first, first]
      | ok y =>
          rw [mapM_cons_ok first]
          cases rest : xs.mapM f with
          | error e => cases ys <;> simp [Functor.map, Except.map, ← ih, rest]
          | ok ys' => cases ys <;> simp [Functor.map, Except.map, ← ih, rest, first]

theorem exists_of_mapM_eq_ok {ys : List γ} (taken : xs.mapM f = .ok ys) {x : β} (member : x ∈ xs) :
    ∃ y, f x = .ok y := by
  have pairs := mapM_eq_ok_iff.mp taken
  clear taken
  induction pairs with
  | nil => cases member
  | cons own _ ih =>
      rcases List.mem_cons.mp member with rfl | later
      · exact ⟨_, own⟩
      · exact ih later

/-- The first element that is refused ends it, with its refusal. -/
theorem mapM_eq_error_iff {e : Error} : xs.mapM f = .error e ↔
    ∃ before x after, xs = before ++ x :: after ∧ (∀ y ∈ before, ∃ z, f y = .ok z) ∧
      f x = .error e := by
  induction xs with
  | nil => simp [pure, Except.pure]
  | cons x xs ih =>
      cases first : f x with
      | error own =>
          rw [mapM_cons_error first]
          constructor
          · rintro ⟨⟩
            exact ⟨[], x, xs, rfl, by simp, first⟩
          · rintro ⟨before, x', after, parts, taken, refused⟩
            cases before with
            | nil =>
                obtain ⟨rfl, rfl⟩ := List.cons.inj parts
                cases first.symm.trans refused
                rfl
            | cons y before =>
                obtain ⟨rfl, -⟩ := List.cons.inj parts
                obtain ⟨z, own⟩ := taken x List.mem_cons_self
                cases first.symm.trans own
      | ok y =>
          have rest : (x :: xs).mapM f = .error e ↔ xs.mapM f = .error e := by
            rw [mapM_cons_ok first]
            cases xs.mapM f <;> simp [Functor.map, Except.map]
          rw [rest, ih]
          constructor
          · rintro ⟨before, x', after, rfl, taken, refused⟩
            refine ⟨x :: before, x', after, rfl, ?_, refused⟩
            exact List.forall_mem_cons.mpr ⟨⟨y, first⟩, taken⟩
          · rintro ⟨before, x', after, parts, taken, refused⟩
            cases before with
            | nil =>
                obtain ⟨rfl, rfl⟩ := List.cons.inj parts
                cases first.symm.trans refused
            | cons y' before =>
                obtain ⟨rfl, rest⟩ := List.cons.inj parts
                exact ⟨before, x', after, rest, (List.forall_mem_cons.mp taken).2, refused⟩

theorem mapM_map (g : γ → δ) (xs : List β) :
    (xs.mapM fun x => g <$> f x) = List.map g <$> xs.mapM f := by
  induction xs with
  | nil => rfl
  | cons x xs ih =>
      cases first : f x with
      | error e =>
          rw [mapM_cons_error first, mapM_cons_error (e := e) (by rw [first]; rfl)]
          rfl
      | ok y =>
          rw [mapM_cons_ok first, mapM_cons_ok (y := g y) (by rw [first]; rfl), ih]
          cases xs.mapM f <;> rfl

end Traversal

/-! ## Elements -/

namespace Scalar

variable {x y : Scalar} {target : Kind}

/-- An element as one of another kind. -/
def coerce (target : Kind) (x : Scalar) : Except Error Scalar :=
  match target with
  | .null => refuse x .null
  | .bool => bool <$> x.toBool
  | .int32 => int32 <$> x.toInt32
  | .int64 => int64 <$> x.toInt64
  | .float32 => float32 <$> x.toSingle
  | .float64 => float64 <$> x.toDouble
  | .string => string <$> x.toText
  | .time => time <$> x.toTime

theorem coerce_self (x : Scalar) : x.coerce x.kind = .ok x := by
  cases x <;> rfl

theorem kind_of_coerce (taken : x.coerce target = .ok y) : y.kind = target := by
  cases target with
  | null => cases taken
  | bool | int32 | int64 | float32 | float64 | string | time =>
      obtain ⟨_, -, rfl⟩ := exists_of_map_eq_ok taken
      rfl

/-! ### Integers -/

theorem readBounded?_decimalInt {low high z : Int} (above : low ≤ z) (below : z ≤ high) :
    readBounded? low high (String.ofList (Text.decimalInt z)) = some z := by
  simp [readBounded?, Text.trim_decimalInt, Text.readInt?_decimalInt, Option.filter, above, below]

/-- Whether an element can be taken as one of a kind and from there back to what it was. -/
def Regains (x : Scalar) (via : Kind) : Prop :=
  ∃ y, x.coerce via = .ok y ∧ y.coerce x.kind = .ok x

theorem regains_bool (b : Bool) : (bool b).Regains .string ∧ (bool b).Regains .int32 ∧
    (bool b).Regains .int64 := by
  cases b
  · exact ⟨⟨string "false", rfl, rfl⟩, ⟨int32 0, rfl, rfl⟩, ⟨int64 0, rfl, rfl⟩⟩
  · exact ⟨⟨string "true", rfl, rfl⟩, ⟨int32 1, rfl, rfl⟩, ⟨int64 1, rfl, rfl⟩⟩

theorem regains_int32 (n : Int32) : (int32 n).Regains .string ∧ (int32 n).Regains .int64 := by
  constructor
  · refine ⟨string (String.ofList (Text.decimalInt n.toInt)), rfl, ?_⟩
    have read := readBounded?_decimalInt n.minValue_le_toInt n.toInt_le
    simp only [kind, coerce, toInt32, read, Option.map_some, n.ofInt_toInt, orUnreadable]
    rfl
  · refine ⟨int64 n.toInt64, rfl, ?_⟩
    simp only [kind, coerce, toInt32, n.toInt32_toInt64]
    rfl

theorem regains_int64 (n : Int64) : (int64 n).Regains .string := by
  refine ⟨string (String.ofList (Text.decimalInt n.toInt)), rfl, ?_⟩
  have read := readBounded?_decimalInt n.minValue_le_toInt n.toInt_le
  simp only [kind, coerce, toInt64, read, Option.map_some, n.ofInt_toInt, orUnreadable]
  rfl

def payload : Scalar → Payload
  | bool b => .bool [b]
  | int32 n => .int32 [n]
  | int64 n => .int64 [n]
  | float32 x => .float32 [x]
  | float64 x => .float64 [x]
  | string s => .string [s]
  | time t => .time [t]

theorem scalars_payload (x : Scalar) : x.payload.scalars = [x] := by
  cases x <;> rfl

theorem kind_payload (x : Scalar) : x.payload.kind = x.kind := by
  cases x <;> rfl

end Scalar

/-! ## Vectors -/

/-- Elements taken one by one are those of the payload that they make up. -/
theorem Payload.map_scalars_ofScalars (xs : List Scalar) {target : Kind} (some : target ≠ .null) :
    scalars <$> ofScalars xs target = xs.mapM (Scalar.coerce target) := by
  cases target with
  | null => exact absurd rfl some
  | bool | int32 | int64 | float32 | float64 | string | time =>
      exact (Functor.map_map ..).trans (mapM_map _ xs).symm

theorem Payload.eq_of_scalars {p q : Payload} (kind : p.kind = q.kind)
    (scalars : p.scalars = q.scalars) : p = q := by
  have apart {β : Type} {f : β → Scalar} (injective : ∀ a b, f a = f b → a = b) {xs ys : List β}
      (same : xs.map f = ys.map f) : xs = ys :=
    List.map_injective_iff.mpr (fun a b => injective a b) same
  cases p <;> cases q <;> cases kind
  case null.null => rfl
  all_goals exact congrArg _ (apart (by simp) scalars)

namespace Value

variable {v w : Value} {x : Scalar} {target via : Kind}

theorem eq_of_scalars (kind : v.kind = w.kind) (scalars : v.scalars = w.scalars) : v = w := by
  have same : v.payload = w.payload := Payload.eq_of_scalars kind scalars
  cases v
  cases w
  exact (mk.injEq ..).mpr same

/-- The value that has one element and no other. -/
def only (x : Scalar) : Value := ⟨x.payload, .inr (by
  rw [← x.payload.length_scalars, x.scalars_payload]
  exact Nat.one_ne_zero)⟩

theorem scalars_only (x : Scalar) : (only x).scalars = [x] := x.scalars_payload

theorem kind_only (x : Scalar) : (only x).kind = x.kind := x.kind_payload

theorem length_scalars (v : Value) : v.scalars.length = v.size := v.payload.length_scalars

theorem kind_eq_null_iff : v.kind = .null ↔ v = null := by
  rw [← isNull_iff, isNull, beq_iff_eq]

theorem scalars_ne_nil (there : v ≠ null) : v.scalars ≠ [] := by
  intro none
  rcases v.valid with kind | some
  · exact there (kind_eq_null_iff.mp kind)
  · rw [← v.payload.length_scalars] at some
    exact some (congrArg List.length none)

theorem mapM_coerce_self (v : Value) : v.scalars.mapM (Scalar.coerce v.kind) = .ok v.scalars := by
  apply mapM_eq_ok_iff.mpr
  apply List.forall₂_same.mpr
  intro x member
  rw [← kind_of_mem_scalars member]
  exact x.coerce_self

/-- A value is taken as one of another kind element by element. -/
theorem map_scalars_coerce (there : v ≠ null) (target : Kind) :
    scalars <$> v.coerce target = v.scalars.mapM (Scalar.coerce target) := by
  unfold coerce
  split
  · rename_i own
    rw [← own, mapM_coerce_self]
    rfl
  · rename_i different
    have kind : v.isNull = false := Bool.eq_false_iff.mpr (mt isNull_iff.mp there)
    split
    · rename_i null
      obtain rfl : target = .null := null.resolve_left (by simp [kind])
      cases elements : v.scalars with
      | nil => exact absurd elements (scalars_ne_nil there)
      | cons x xs =>
          have first : x.kind = v.kind := kind_of_mem_scalars (elements ▸ List.mem_cons_self)
          rw [mapM_cons_error (f := Scalar.coerce .null) (x := x) rfl, first]
          rfl
    · rename_i other
      rw [← Payload.map_scalars_ofScalars _ (not_or.mp other).2]
      cases made : Payload.ofScalars v.scalars target with
      | error e => rfl
      | ok p =>
          -- As many elements come out as go in, so what comes out is a value.
          have taken := Payload.map_scalars_ofScalars v.scalars (not_or.mp other).2
          rw [made] at taken
          have size := (mapM_eq_ok_iff.mp taken.symm).length_eq
          have valid : p.Valid := by
            refine .inr fun none => scalars_ne_nil there ?_
            rw [← p.length_scalars, ← size] at none
            exact List.length_eq_zero_iff.mp none
          simp only [Except.bind, ofPayload, valid, ↓reduceDIte]
          rfl

theorem coerce_eq_ok_iff (there : v ≠ null) : v.coerce target = .ok w ↔
    w.kind = target ∧ v.scalars.mapM (Scalar.coerce target) = .ok w.scalars := by
  have elements := map_scalars_coerce there target
  constructor
  · intro taken
    rw [taken] at elements
    exact ⟨kind_of_coerce taken, elements.symm⟩
  · rintro ⟨kind, taken⟩
    obtain ⟨w', taken', same⟩ := exists_of_map_eq_ok (elements.trans taken)
    rw [taken', eq_of_scalars ((kind_of_coerce taken').trans kind.symm) same]

theorem coerce_eq_error_iff (there : v ≠ null) {e : Error} :
    v.coerce target = .error e ↔ v.scalars.mapM (Scalar.coerce target) = .error e := by
  rw [← map_scalars_coerce there]
  cases v.coerce target <;> simp [Functor.map, Except.map]

theorem only_ne_null (x : Scalar) : only x ≠ null := by
  intro none
  have kind := (kind_only x).symm.trans (congrArg kind none)
  cases x <;> cases kind

theorem coerce_only_eq_ok_iff : (only x).coerce target = .ok w ↔
    ∃ y, x.coerce target = .ok y ∧ w = only y := by
  rw [coerce_eq_ok_iff (only_ne_null x), scalars_only, mapM_eq_ok_iff]
  constructor
  · rintro ⟨kind, taken⟩
    obtain ⟨y, rest, first, none, elements⟩ := List.forall₂_cons_left_iff.mp taken
    obtain rfl := List.forall₂_nil_left_iff.mp none
    refine ⟨y, first, eq_of_scalars ?_ (elements.trans (scalars_only y).symm)⟩
    rw [kind, kind_only, Scalar.kind_of_coerce first]
  · rintro ⟨y, first, rfl⟩
    rw [kind_only, scalars_only]
    exact ⟨Scalar.kind_of_coerce first, .cons first .nil⟩

theorem coerce_only_eq_error_iff {e : Error} :
    (only x).coerce target = .error e ↔ x.coerce target = .error e := by
  rw [coerce_eq_error_iff (only_ne_null x), scalars_only]
  cases first : x.coerce target with
  | error own => simp [mapM_cons_error first]
  | ok y => simp [mapM_cons_ok first, Functor.map, Except.map, pure, Except.pure]

/-! ### There and back -/

/-- Whether a value can be taken as one of a kind and from there back to what it was. -/
def Regains (v : Value) (via : Kind) : Prop :=
  ∃ w, v.coerce via = .ok w ∧ w.coerce v.kind = .ok v

/-- What each element allows, the vector allows. -/
theorem regains_of_scalars (there : v ≠ null) (each : ∀ x ∈ v.scalars, x.Regains via) :
    v.Regains via := by
  have elements := map_scalars_coerce there via
  cases taken : v.scalars.mapM (Scalar.coerce via) with
  | error e =>
      obtain ⟨before, x, after, parts, -, refused⟩ := mapM_eq_error_iff.mp taken
      obtain ⟨y, own, -⟩ := each x (by simp [parts])
      cases own.symm.trans refused
  | ok ys =>
      obtain ⟨w, there', rfl⟩ := exists_of_map_eq_ok (elements.trans taken)
      have pairs := mapM_eq_ok_iff.mp taken
      have some : w ≠ null := by
        rintro rfl
        exact scalars_ne_nil there (List.forall₂_nil_right_iff.mp pairs)
      refine ⟨w, there', (coerce_eq_ok_iff some).mpr ⟨rfl, mapM_eq_ok_iff.mpr ?_⟩⟩
      have back : ∀ x ∈ v.scalars, x.Regains via ∧ x.kind = v.kind := fun x member =>
        ⟨each x member, kind_of_mem_scalars member⟩
      apply List.Forall₂.flip
      refine List.Forall₂.imp ?_ ((List.forall₂_and_left _ _).mpr ⟨back, pairs⟩)
      rintro x y ⟨⟨⟨y', own, regained⟩, kind⟩, taken⟩
      obtain rfl : y' = y := Except.ok.inj (own.symm.trans taken)
      exact kind ▸ regained

theorem regains_of_kind {kind : Kind} (own : v.kind = kind) (some : kind ≠ .null)
    (each : ∀ x : Scalar, x.kind = kind → x.Regains via) : v.Regains via := by
  refine regains_of_scalars (fun null => some (own.symm.trans (kind_eq_null_iff.mpr null))) ?_
  intro x member
  exact each x ((kind_of_mem_scalars member).trans own)

/-- Whether taking a value as one of a kind is a matter of its elements alone. -/
structure CoercesByElement (v : Value) (target : Kind) : Prop where
  taken : ∀ w, v.coerce target = .ok w ↔ w.kind = target ∧
    List.Forall₂ (fun x y => (only x).coerce target = .ok (only y)) v.scalars w.scalars
  sized : ∀ w, v.coerce target = .ok w → w.kind = target ∧ w.size = v.size
  refused : (∃ e, v.coerce target = .error e) ↔
    ∃ x ∈ v.scalars, ∃ e, (only x).coerce target = .error e
  first : ∀ e, v.coerce target = .error e ↔ ∃ before x after, v.scalars = before ++ x :: after ∧
    (∀ y ∈ before, ∃ w, (only y).coerce target = .ok w) ∧ (only x).coerce target = .error e

theorem only_injective {x y : Scalar} (same : only x = only y) : x = y := by
  have elements := congrArg scalars same
  rw [scalars_only, scalars_only] at elements
  exact List.singleton_inj.mp elements

theorem coerce_only_eq_ok_only_iff {y : Scalar} :
    (only x).coerce target = .ok (only y) ↔ x.coerce target = .ok y := by
  rw [coerce_only_eq_ok_iff]
  constructor
  · rintro ⟨y', taken, same⟩
    exact only_injective same ▸ taken
  · exact fun taken => ⟨y, taken, rfl⟩

theorem coercesByElement (there : v ≠ null) (target : Kind) : v.CoercesByElement target := by
  have alone (x : Scalar) :
      (∃ w, (only x).coerce target = .ok w) ↔ ∃ y, x.coerce target = .ok y := by
    simp [coerce_only_eq_ok_iff]
  have first (e : Error) : v.coerce target = .error e ↔
      ∃ before x after, v.scalars = before ++ x :: after ∧
        (∀ y ∈ before, ∃ w, (only y).coerce target = .ok w) ∧ (only x).coerce target = .error e := by
    simp only [alone, coerce_only_eq_error_iff]
    rw [coerce_eq_error_iff there, mapM_eq_error_iff]
  constructor
  case taken =>
    intro w
    simp only [coerce_only_eq_ok_only_iff]
    rw [coerce_eq_ok_iff there, mapM_eq_ok_iff]
  case sized =>
    intro w taken
    obtain ⟨kind, elements⟩ := (coerce_eq_ok_iff there).mp taken
    have size := (mapM_eq_ok_iff.mp elements).length_eq
    rw [length_scalars, length_scalars] at size
    exact ⟨kind, size.symm⟩
  case refused =>
    constructor
    · rintro ⟨e, refused⟩
      obtain ⟨before, x, after, parts, -, own⟩ := (first e).mp refused
      exact ⟨x, by simp [parts], e, own⟩
    · rintro ⟨x, member, e, own⟩
      cases outcome : v.coerce target with
      | error e' => exact ⟨e', rfl⟩
      | ok w =>
          obtain ⟨-, elements⟩ := (coerce_eq_ok_iff there).mp outcome
          obtain ⟨y, taken⟩ := exists_of_mapM_eq_ok elements member
          cases (coerce_only_eq_error_iff.mp own).symm.trans taken
  case first => exact first

/-- Truth values and integers, in vectors of any length, come back as they were from texts, truth
    values also from integers, and narrow integers from wide ones. Any value but null is taken as
    one of a kind element by element, so that as many come out as go in; it is refused just if an
    element would be refused alone, and with the refusal of the first such. -/
theorem coercion_lossless :
    (∀ v : Value, v.kind = .bool → v.Regains .string ∧ v.Regains .int32 ∧ v.Regains .int64) ∧
      (∀ v : Value, v.kind = .int32 → v.Regains .string ∧ v.Regains .int64) ∧
      (∀ v : Value, v.kind = .int64 → v.Regains .string) ∧
      ∀ v : Value, v ≠ null → ∀ target, v.CoercesByElement target := by
  refine ⟨?_, ?_, ?_, fun v there => coercesByElement there⟩
  · intro v own
    have each (x : Scalar) (kind : x.kind = .bool) :
        x.Regains .string ∧ x.Regains .int32 ∧ x.Regains .int64 := by
      cases x <;> cases kind
      exact Scalar.regains_bool _
    exact ⟨regains_of_kind own (by decide) fun x kind => (each x kind).1,
      regains_of_kind own (by decide) fun x kind => (each x kind).2.1,
      regains_of_kind own (by decide) fun x kind => (each x kind).2.2⟩
  · intro v own
    have each (x : Scalar) (kind : x.kind = .int32) : x.Regains .string ∧ x.Regains .int64 := by
      cases x <;> cases kind
      exact Scalar.regains_int32 _
    exact ⟨regains_of_kind own (by decide) fun x kind => (each x kind).1,
      regains_of_kind own (by decide) fun x kind => (each x kind).2⟩
  · intro v own
    refine regains_of_kind own (by decide) fun x kind => ?_
    cases x <;> cases kind
    exact Scalar.regains_int64 _

/-- The least 64-bit integer and its neighbour come back from texts; of three texts the first that is
    no number says why they are not taken as integers. -/
theorem extremes_regained :
    let v : Value := ⟨.int64 [Int64.minValue, Int64.minValue + 1], .inr (by decide)⟩
    let texts : Value := ⟨.string [" 7", "x", "y"], .inr (by decide)⟩
    v.kind = .int64 ∧ v.Regains .string ∧ texts ≠ null ∧
      texts.coerce .int32 = .error (.unreadable "x" (.element .int32)) := by
  intro v texts
  have own : v.kind = .int64 := rfl
  have there : texts ≠ null := by decide
  obtain ⟨-, -, regains, byElement⟩ := coercion_lossless
  refine ⟨own, regains v own, there, ((byElement texts there .int32).first _).mpr ?_⟩
  refine ⟨[.string " 7"], .string "x", [.string "y"], rfl, ?_, by decide +kernel⟩
  exact List.forall_mem_singleton.mpr ⟨only (.int32 7), by decide +kernel⟩

end Value

end SignalGraph
