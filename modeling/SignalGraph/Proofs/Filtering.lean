import Mathlib.Algebra.Order.Ring.Int
import SignalGraph.Proofs.Comparison
import SignalGraph.Proofs.Reference
import SignalGraph.Query.Evaluate

/-! # What filters let pass

A filter takes its value as one of the property's kind. Unless a star is in it, its operators then
agree on how the property stands to it: none of them knows another order. A property passes the
filter for its own value, unless it is null. Integers are taken by their numbers, but a filter for
a wider integer than the property is narrowed first.
-/

namespace SignalGraph

/-! ## Operators and orders -/

namespace FilterOp

variable {property value target : Value} {holds : FilterOp → Prop} {op : FilterOp}

/-- Whether an operator lets two values pass whose order, if there is one, is given. -/
def allows (order : Option Ordering) : FilterOp → Bool
  | present => true
  | absent => false
  | equal => order == some .eq
  | notEqual => order != some .eq
  | greater => order == some .gt
  | greaterOrEqual => order == some .gt || order == some .eq
  | less => order == some .lt
  | lessOrEqual => order == some .lt || order == some .eq

/-- The three ways in which two values in order can stand to each other. -/
def senses : List FilterOp := [greater, equal, less]

/-- Operators that mean to each other what their names say. -/
structure Coherent (holds : FilterOp → Prop) : Prop where
  notEqual_iff : holds notEqual ↔ ¬holds equal
  greaterOrEqual_iff : holds greaterOrEqual ↔ holds greater ∨ holds equal
  lessOrEqual_iff : holds lessOrEqual ↔ holds less ∨ holds equal
  /-- No two of the senses at once. -/
  exclusive : ∀ a ∈ senses, ∀ b ∈ senses, holds a → holds b → a = b

theorem coherent_allows (order : Option Ordering) : Coherent fun op => op.allows order where
  notEqual_iff := by simp [allows]
  greaterOrEqual_iff := by simp [allows]
  lessOrEqual_iff := by simp [allows]
  exclusive := by
    match order with
    | none | some .lt | some .eq | some .gt => decide

theorem exists_sense_allows (order : Ordering) : ∃ op ∈ senses, op.allows (some order) := by
  cases order with
  | lt => exact ⟨less, by decide, rfl⟩
  | eq => exact ⟨equal, by decide, rfl⟩
  | gt => exact ⟨greater, by decide, rfl⟩

/-- Of operators that are coherent, exactly one sense holds if any does. -/
theorem Coherent.existsUnique (coherent : Coherent holds) (some : ∃ op ∈ senses, holds op) :
    ∃! op, op ∈ senses ∧ holds op := by
  obtain ⟨op, sense, own⟩ := some
  refine ⟨op, ⟨sense, own⟩, ?_⟩
  rintro other ⟨sense', own'⟩
  exact coherent.exclusive other sense' op sense own' own

/-! ## What an operator accepts -/

/-- The value as it is matches no more than the value taken as one of the property's kind: unless it
    is of that kind already, it matches nothing. -/
theorem isMatchedBy_or (taken : value.coerce property.kind = .ok target) :
    (property.isMatchedBy value || property.isMatchedBy target) = property.isMatchedBy target := by
  by_cases same : value.kind = property.kind
  · rw [← same, Value.coerce_self] at taken
    cases taken
    exact Bool.or_self _
  · rw [Value.isMatchedBy_of_kind_ne (Ne.symm same), Bool.false_or]

theorem accepts_equal (taken : value.coerce property.kind = .ok target) :
    equal.accepts property value = property.isMatchedBy target := by
  simp only [accepts, taken, isMatchedBy_or taken]

theorem accepts_notEqual (taken : value.coerce property.kind = .ok target) :
    notEqual.accepts property value = !property.isMatchedBy target := by
  simp only [accepts, taken, isMatchedBy_or taken]

/-- Without a star, what an operator accepts depends on nothing but the order of the two. -/
theorem accepts_eq_allows (taken : value.coerce property.kind = .ok target)
    (literal : target.IsLiteral) :
    op.accepts property value = op.allows (property.compare? target) := by
  have matched : property.isMatchedBy target = (property.compare? target == some .eq) := by
    rw [Bool.eq_iff_iff, beq_iff_eq]
    exact Value.isMatchedBy_iff literal
  cases op with
  | equal => rw [accepts_equal taken, matched, allows]
  | notEqual => rw [accepts_notEqual taken, matched, allows, bne]
  | present | absent => rfl
  | greater | greaterOrEqual | less | lessOrEqual => simp only [accepts, taken, allows]

theorem eq_present_of_accepts {e : Error} (refused : value.coerce property.kind = .error e)
    (accepted : op.accepts property value) : op = present := by
  cases op with
  | present => rfl
  | absent => cases accepted
  | equal | notEqual | greater | greaterOrEqual | less | lessOrEqual =>
      simp [accepts, refused] at accepted

end FilterOp

/-! ## A graph to filter -/

namespace Graph

/-- A graph that has heard of device 1 and of its gain. -/
def heardOfGain (gain : Value) : Graph Unit :=
  (make (.quiet ⟨0, 0⟩) .standard).call
    (.apply .announce ((Delta.empty .device ⟨1⟩).set (.named "gain") gain))

/-- The devices whose gain passes a filter. -/
def withGain (op : FilterOp) (value : Value) : Query :=
  .filter (.all .device) (.named "gain") op value

theorem heardOfGain_reachable (gain : Value) : Reachable .standard (heardOfGain gain) :=
  .call (.make _ _) _

theorem exists_heardOfGain (gain : Value) : ∃ r, (heardOfGain gain).store.find? ⟨1⟩ = some r ∧
    r.property? (.named "gain") = some gain := ⟨_, rfl, rfl⟩

end Graph

/-! ## What a record passes -/

namespace Record

variable {r : Record} {key : Key} {v : Value}

theorem passes_of_property? (held : r.property? key = some v) (op : FilterOp) (value : Value) :
    r.passes key op value = op.accepts v value := by
  simp only [passes, held]

theorem passes_of_missing (missing : r.property? key = none) (op : FilterOp) (value : Value) :
    r.passes key op value ↔ op = .absent := by
  simp only [passes, missing, beq_iff_eq]

/-- The operators of a filter go together. Without the property, only its absence passes. With it,
    its presence passes and not its absence, nor anything else if the filter's value cannot be taken
    as one of the property's kind. If it can, and has no star then, the operators are coherent, and
    exactly one sense holds unless the property is null or either is not a number. -/
theorem passes_coherent (r : Record) (key : Key) (value : Value) :
    match r.property? key with
    | none => ∀ op, r.passes key op value ↔ op = .absent
    | some property =>
      r.passes key .present value ∧ ¬r.passes key .absent value ∧
        match value.coerce property.kind with
        | .error _ => ∀ op, r.passes key op value → op = .present
        | .ok target => target.IsLiteral →
            FilterOp.Coherent (fun op => r.passes key op value) ∧
              (property ≠ .null → property.hasNaN = false → target.hasNaN = false →
                ∃! op, op ∈ FilterOp.senses ∧ r.passes key op value) := by
  cases held : r.property? key with
  | none => exact fun op => passes_of_missing held op value
  | some property =>
      simp only [passes_of_property? held]
      refine ⟨rfl, Bool.false_ne_true, ?_⟩
      cases taken : value.coerce property.kind with
      | error e => exact fun op => FilterOp.eq_present_of_accepts taken
      | ok target =>
          intro literal
          simp only [FilterOp.accepts_eq_allows taken literal]
          have coherent := FilterOp.coherent_allows (property.compare? target)
          refine ⟨coherent, fun there first second => coherent.existsUnique ?_⟩
          -- both are of one kind by now, so nothing else can keep them from having an order
          obtain ⟨order, ordered⟩ := Value.exists_compare? (Value.kind_of_coerce taken).symm
            (Bool.eq_false_iff.mpr (mt Value.isNull_iff.mp there)) first second
          rw [ordered]
          exact FilterOp.exists_sense_allows order

/-- A gain of 2 and 5 is less than one that is written "2" and " +10", and neither equal to it nor
    greater, so the other operators are settled. -/
theorem gain_below_text :
    let gain : Value := ⟨.int32 [2, 5], by decide⟩
    let text : Value := ⟨.string ["2", " +10"], by decide⟩
    ∃ r, (Graph.heardOfGain gain).store.find? ⟨1⟩ = some r ∧
      FilterOp.Coherent (fun op => r.passes (.named "gain") op text) ∧
      (∃! op, op ∈ FilterOp.senses ∧ r.passes (.named "gain") op text) ∧
      r.passes (.named "gain") .less text := by
  intro gain text
  obtain ⟨r, found, held⟩ := Graph.exists_heardOfGain gain
  have taken : text.coerce gain.kind = .ok ⟨.int32 [2, 10], by decide⟩ := by decide +kernel
  have coherent := r.passes_coherent (.named "gain") text
  simp only [held, taken] at coherent
  obtain ⟨laws, exactly⟩ := coherent.2.2 (Value.isLiteral_of_kind_ne (by decide))
  refine ⟨r, found, laws, exactly (by decide) (by decide) (by decide), ?_⟩
  rw [passes_of_property? held]
  decide +kernel

/-- A record passes the filter for the value that its property has, and not the one for other
    values. For null it is the other way round, as null has no order, not even to itself. -/
theorem passes_own_value (held : r.property? key = some v) (clean : v.hasNaN = false) :
    (r.passes key .equal v ↔ v ≠ .null) ∧ (r.passes key .notEqual v ↔ v = .null) := by
  have matched := Value.isMatchedBy_self_iff clean
  rw [passes_of_property? held, passes_of_property? held,
    FilterOp.accepts_equal (Value.coerce_self v), FilterOp.accepts_notEqual (Value.coerce_self v)]
  refine ⟨matched, ?_⟩
  rw [Bool.not_eq_true', Bool.eq_false_iff, Ne, matched, not_not]

/-- A text passes the filter for itself also where it has a star. -/
theorem starred_gain_kept : ∃ r, (Graph.heardOfGain (.ofString "a*b")).store.find? ⟨1⟩ = some r ∧
    r.passes (.named "gain") .equal (.ofString "a*b") ∧
    ¬r.passes (.named "gain") .notEqual (.ofString "a*b") := by
  obtain ⟨r, found, held⟩ := Graph.exists_heardOfGain (.ofString "a*b")
  obtain ⟨kept, dropped⟩ := passes_own_value held rfl
  exact ⟨r, found, kept.mpr (by decide), mt dropped.mp (by decide)⟩

/-- A gain of null is found by the filter for gains other than null, and not by the one for null. -/
theorem null_gain_dropped :
    let g := Graph.heardOfGain .null
    Graph.Reachable .standard g ∧
      (∃ r, g.store.find? ⟨1⟩ = some r ∧ r.property? (.named "gain") = some .null) ∧
      Value.null.hasNaN = false ∧ (Graph.withGain .equal .null).evaluate g.store = [] ∧
      (Graph.withGain .notEqual .null).evaluate g.store = [⟨1⟩] :=
  ⟨Graph.heardOfGain_reachable _, Graph.exists_heardOfGain _, rfl, by decide, by decide⟩

end Record

/-! ## Integers -/

theorem Payload.valid_int32 (n : Int32) : (int32 [n]).Valid := .inr Nat.one_ne_zero

theorem Payload.valid_int64 (n : Int64) : (int64 [n]).Valid := .inr Nat.one_ne_zero

namespace Value

def ofInt32 (n : Int32) : Value := ⟨.int32 [n], Payload.valid_int32 n⟩

def ofInt64 (n : Int64) : Value := ⟨.int64 [n], Payload.valid_int64 n⟩

theorem compareScalars?_singleton (a b : Scalar) : compareScalars? [a] [b] = a.compare? b := by
  rw [compareScalars?]
  split
  · rename_i equal
    rw [equal]
    rfl
  · rfl

theorem compare?_ofInt32 (p n : Int32) :
    (ofInt32 p).compare? (ofInt32 n) = some (compare p.toInt n.toInt) := by
  have same : (ofInt32 p).kind = (ofInt32 n).kind := rfl
  rw [compare?_eq same rfl]
  exact compareScalars?_singleton (.int32 p) (.int32 n)

theorem compare?_ofInt64 (p n : Int64) :
    (ofInt64 p).compare? (ofInt64 n) = some (compare p.toInt n.toInt) := by
  have same : (ofInt64 p).kind = (ofInt64 n).kind := rfl
  rw [compare?_eq same rfl]
  exact compareScalars?_singleton (.int64 p) (.int64 n)

theorem isLiteral_ofInt32 (n : Int32) : (ofInt32 n).IsLiteral :=
  isLiteral_of_kind_ne Kind.noConfusion

theorem isLiteral_ofInt64 (n : Int64) : (ofInt64 n).IsLiteral :=
  isLiteral_of_kind_ne Kind.noConfusion

theorem coerce_ofInt64 (n : Int64) : (ofInt64 n).coerce .int32 = .ok (ofInt32 n.toInt32) := rfl

theorem coerce_ofInt32 (n : Int32) : (ofInt32 n).coerce .int64 = .ok (ofInt64 n.toInt64) := rfl

end Value

namespace FilterOp

/-- The relation of integers that an operator stands for. -/
def Relates (p n : Int) : FilterOp → Prop
  | present => True
  | absent => False
  | equal => p = n
  | notEqual => p ≠ n
  | greater => p > n
  | greaterOrEqual => p ≥ n
  | less => p < n
  | lessOrEqual => p ≤ n

instance (p n : Int) : (op : FilterOp) → Decidable (op.Relates p n)
  | present => inferInstanceAs (Decidable True)
  | absent => inferInstanceAs (Decidable False)
  | equal => inferInstanceAs (Decidable (p = n))
  | notEqual => inferInstanceAs (Decidable (p ≠ n))
  | greater => inferInstanceAs (Decidable (p > n))
  | greaterOrEqual => inferInstanceAs (Decidable (p ≥ n))
  | less => inferInstanceAs (Decidable (p < n))
  | lessOrEqual => inferInstanceAs (Decidable (p ≤ n))

theorem allows_compare_iff (op : FilterOp) (p n : Int) :
    op.allows (some (compare p n)) ↔ op.Relates p n := by
  rcases Int.lt_trichotomy p n with less | rfl | greater
  · rw [Int.compare_eq_lt.mpr less]
    cases op <;> simp [allows, Relates] <;> omega
  · rw [Int.compare_eq_eq.mpr rfl]
    cases op <;> simp [allows, Relates]
  · rw [Int.compare_eq_gt.mpr greater]
    cases op <;> simp [allows, Relates] <;> omega

theorem accepts_ofInt32_iff (op : FilterOp) (p : Int32) (n : Int64) :
    op.accepts (.ofInt32 p) (.ofInt64 n) ↔ op.Relates p.toInt (n.toInt.bmod (2 ^ 32)) := by
  rw [accepts_eq_allows (Value.coerce_ofInt64 n) (Value.isLiteral_ofInt32 _),
    Value.compare?_ofInt32, allows_compare_iff, Int64.toInt_toInt32]

theorem accepts_ofInt64_iff (op : FilterOp) (p : Int64) (n : Int32) :
    op.accepts (.ofInt64 p) (.ofInt32 n) ↔ op.Relates p.toInt n.toInt := by
  rw [accepts_eq_allows (Value.coerce_ofInt32 n) (Value.isLiteral_ofInt64 _),
    Value.compare?_ofInt64, allows_compare_iff, Int32.toInt_toInt64]

end FilterOp

/-- Filters compare integers. That of a property of 32 bits takes the last 32 bits of the filter's
    number, with their sign, which are all of it if it fits. -/
theorem Record.passes_integers (r : Record) (key : Key) (op : FilterOp) :
    (∀ (p : Int32) (n : Int64), r.property? key = some (.ofInt32 p) →
      (r.passes key op (.ofInt64 n) ↔ op.Relates p.toInt (n.toInt.bmod (2 ^ 32))) ∧
        (-2 ^ 31 ≤ n.toInt → n.toInt < 2 ^ 31 →
          (r.passes key op (.ofInt64 n) ↔ op.Relates p.toInt n.toInt))) ∧
      ∀ (p : Int64) (n : Int32), r.property? key = some (.ofInt64 p) →
        (r.passes key op (.ofInt32 n) ↔ op.Relates p.toInt n.toInt) := by
  refine ⟨fun p n held => ?_, fun p n held => ?_⟩
  · have narrowed := FilterOp.accepts_ofInt32_iff op p n
    rw [passes_of_property? held]
    refine ⟨narrowed, fun low high => ?_⟩
    have kept : n.toInt.bmod (2 ^ 32) = n.toInt := Int.bmod_eq_of_le (by omega) (by omega)
    rw [narrowed, kept]
  · rw [passes_of_property? held]
    exact FilterOp.accepts_ofInt64_iff op p n

/-- A gain of -3 is less than 2 ^ 32 + 5, which is taken as 5, and than 2; one of 2 ^ 40 is greater
    than -1. -/
theorem Record.gains_compared :
    (∃ r, (Graph.heardOfGain (.ofInt32 (-3))).store.find? ⟨1⟩ = some r ∧
      r.passes (.named "gain") .less (.ofInt64 4294967301) ∧
      r.passes (.named "gain") .less (.ofInt64 2)) ∧
      ∃ r, (Graph.heardOfGain (.ofInt64 1099511627776)).store.find? ⟨1⟩ = some r ∧
        r.passes (.named "gain") .greater (.ofInt32 (-1)) := by
  obtain ⟨r, found, held⟩ := Graph.exists_heardOfGain (.ofInt32 (-3))
  obtain ⟨r', found', held'⟩ := Graph.exists_heardOfGain (.ofInt64 1099511627776)
  have less := (r.passes_integers (.named "gain") .less).1 (-3)
  have greater := (r'.passes_integers (.named "gain") .greater).2 1099511627776 (-1) held'
  refine ⟨⟨r, found, ?_, ?_⟩, r', found', greater.mpr (by decide)⟩
  · exact (less 4294967301 held).1.mpr (by decide)
  · exact ((less 2 held).2 (by decide) (by decide)).mpr (by decide)

/-- A gain of 5 passes for 2 ^ 32 + 5, and not for less. -/
theorem Record.gain_taken_for_wider :
    let g := Graph.heardOfGain (.ofInt32 5)
    let n : Int64 := 4294967301
    Graph.Reachable .standard g ∧ (5 : Int32).toInt < n.toInt ∧
      (Graph.withGain .equal (.ofInt64 n)).evaluate g.store = [⟨1⟩] ∧
      (Graph.withGain .less (.ofInt64 n)).evaluate g.store = [] :=
  ⟨Graph.heardOfGain_reachable _, by decide, by decide, by decide⟩

end SignalGraph
