import Mathlib.Algebra.Order.Ring.Int
import SignalGraph.Binary.Arithmetic

/-! # Magnitudes of binary numbers

A number is its sign and its magnitude, in each format. The magnitude nearest to a count of units
is that of the count itself wherever there is one, so that nothing is lost where a number goes
through a format that can tell it.
-/

namespace SignalGraph

/-! ## The nearest integer -/

section

variable {n d k c : Nat}

theorem roundHalfEven_mul (pos : 0 < d) : roundHalfEven (k * d) d = k := by
  simp [roundHalfEven, Nat.mul_div_cancel k pos, pos]

theorem roundHalfEven_mul_mul (pos : 0 < c) :
    roundHalfEven (n * c) (d * c) = roundHalfEven n d := by
  have less (a b : Nat) : a * c < b * c ↔ a < b := Nat.mul_lt_mul_right pos
  simp only [roundHalfEven, Nat.mul_div_mul_right n d pos, Nat.mul_mod_mul_right, ← Nat.mul_assoc,
    less]

theorem div_le_roundHalfEven : n / d ≤ roundHalfEven n d := by
  simp only [roundHalfEven]
  split <;> (try split) <;> omega

theorem roundHalfEven_le : roundHalfEven n d ≤ n / d + 1 := by
  simp only [roundHalfEven]
  split <;> (try split) <;> omega

/-- What is no more than a whole number of parts is not rounded beyond them. -/
theorem roundHalfEven_le_of_le_mul (pos : 0 < d) (le : n ≤ k * d) : roundHalfEven n d ≤ k := by
  rcases Nat.lt_or_eq_of_le (Nat.div_le_of_le_mul (Nat.mul_comm k d ▸ le)) with below | whole
  · exact Nat.le_trans roundHalfEven_le below
  · have exact : n = k * d := Nat.le_antisymm le (whole ▸ Nat.div_mul_le_self n d)
    rw [exact, roundHalfEven_mul pos]

theorem roundHalfEven_mono {m : Nat} (le : n ≤ m) : roundHalfEven n d ≤ roundHalfEven m d := by
  rcases Nat.lt_or_eq_of_le (Nat.div_le_div_right (c := d) le) with below | same
  · calc roundHalfEven n d
      _ ≤ n / d + 1 := roundHalfEven_le
      _ ≤ m / d := below
      _ ≤ roundHalfEven m d := div_le_roundHalfEven
  · have parts := Nat.div_add_mod n d
    have parts' := Nat.div_add_mod m d
    rw [same] at parts
    have rest : n % d ≤ m % d := by omega
    simp only [roundHalfEven, same]
    split <;> split <;> (try split) <;> (try split) <;> omega

/-- Less than half a part is dropped. -/
theorem roundHalfEven_add {r : Nat} (less : 2 * r < d) : roundHalfEven (k * d + r) d = k := by
  have whole : (k * d + r) / d = k := by
    rw [Nat.add_comm, Nat.add_mul_div_right r k (by omega), Nat.div_eq_of_lt (by omega),
      Nat.zero_add]
  have rest : (k * d + r) % d = r := by
    rw [Nat.add_comm, Nat.add_mul_mod_self_right, Nat.mod_eq_of_lt (by omega)]
  simp only [roundHalfEven, whole, rest, less, ↓reduceIte]

/-- The nearest whole number of parts is at most half a part away. -/
theorem le_roundHalfEven_mul (pos : 0 < d) : n ≤ roundHalfEven n d * d + d / 2 := by
  have parts := Nat.div_add_mod' n d
  have rest := Nat.mod_lt n pos
  have up : (n / d + 1) * d = n / d * d + d := Nat.succ_mul ..
  simp only [roundHalfEven]
  split
  · omega
  · split
    · omega
    · have grown : n / d * d ≤ (n / d + n / d % 2) * d := Nat.mul_le_mul_right d (by omega)
      omega

end

/-! ## Signs and magnitudes -/

section

variable {f : BinaryFormat}

namespace BinaryFormat

theorem infinity_lt : f.infinity < 2 ^ f.magnitudeBits := by
  have binades := Nat.two_pow_pos f.exponentBits
  rw [infinity, magnitudeBits, Nat.pow_eq, Nat.pow_eq, Nat.pow_add]
  exact Nat.mul_lt_mul_of_pos_right (by omega) (Nat.two_pow_pos f.fractionBits)

end BinaryFormat

namespace Binary

variable {s : Bool} {m : Nat}

theorem toNat_ofMagnitude (low : m < 2 ^ f.magnitudeBits) :
    (ofMagnitude s m : Binary f).bits.toNat = m + if s then 2 ^ f.magnitudeBits else 0 := by
  have fits : (m + if s then 2 ^ f.magnitudeBits else 0) < 2 ^ (f.magnitudeBits + 1) := by
    rw [Nat.pow_succ]
    split <;> omega
  rw [ofMagnitude, BitVec.toNat_ofNat, Nat.pow_eq, Nat.mod_eq_of_lt fits]

theorem isNegative_ofMagnitude (low : m < 2 ^ f.magnitudeBits) :
    (ofMagnitude s m : Binary f).isNegative = s := by
  rw [isNegative, toNat_ofMagnitude low, Nat.pow_eq]
  cases s with
  | true => simp
  | false => simpa using low

theorem magnitude_ofMagnitude (low : m < 2 ^ f.magnitudeBits) :
    (ofMagnitude s m : Binary f).magnitude = m := by
  rw [magnitude, toNat_ofMagnitude low, Nat.pow_eq]
  cases s <;> simpa using Nat.mod_eq_of_lt low

theorem ofMagnitude_self (x : Binary f) : ofMagnitude x.isNegative x.magnitude = x := by
  have width := x.bits.isLt
  rw [Nat.pow_succ] at width
  have whole : x.magnitude + (if x.isNegative then Nat.pow 2 f.magnitudeBits else 0) =
      x.bits.toNat := by
    have parts := Nat.div_add_mod x.bits.toNat (2 ^ f.magnitudeBits)
    simp only [magnitude, isNegative, Nat.pow_eq, decide_eq_true_eq]
    split
    · rename_i negative
      have once : x.bits.toNat / 2 ^ f.magnitudeBits = 1 := by
        rw [Nat.div_eq_iff (by omega)]
        omega
      rw [once] at parts
      omega
    · rename_i positive
      exact Nat.mod_eq_of_lt (Nat.not_le.mp positive)
  rw [ofMagnitude, whole, BitVec.ofNat_toNat, BitVec.setWidth_eq]

theorem datum_ofMagnitude (finite : m < f.infinity) :
    (ofMagnitude s m : Binary f).datum = .finite s (f.units m) := by
  have low := Nat.lt_trans finite f.infinity_lt
  simp only [datum, isNaN, isFinite, magnitude_ofMagnitude low, isNegative_ofMagnitude low, finite,
    Nat.not_lt.mpr (Nat.le_of_lt finite), decide_false, decide_true, Bool.false_eq_true, ↓reduceIte]

theorem datum_of_isFinite {x : Binary f} (finite : x.isFinite) :
    x.datum = .finite x.isNegative (f.units x.magnitude) := by
  rw [isFinite, decide_eq_true_eq] at finite
  have own := datum_ofMagnitude (s := x.isNegative) finite
  rwa [ofMagnitude_self] at own

/-! ## Nearest magnitudes -/

theorem log2_mul_two_pow {k e : Nat} (some : k ≠ 0) : (k * 2 ^ e).log2 = k.log2 + e := by
  have kept : k * 2 ^ e ≠ 0 := Nat.mul_ne_zero some (Nat.two_pow_pos e).ne'
  refine (Nat.log2_eq_iff kept).mpr ⟨?_, ?_⟩
  · rw [Nat.pow_add]
    exact Nat.mul_le_mul_right _ (Nat.log2_self_le some)
  · rw [Nat.add_right_comm, Nat.pow_add]
    exact Nat.mul_lt_mul_of_pos_right Nat.lt_log2_self (Nat.two_pow_pos e)

theorem log2_two_pow_add {p r : Nat} (short : r < 2 ^ p) : (2 ^ p + r).log2 = p := by
  have pos := Nat.two_pow_pos p
  rw [Nat.log2_eq_iff (by omega), Nat.pow_succ]
  omega

end Binary

namespace BinaryFormat

theorem nearest_mul {n d : Nat} (pos : 0 < d) : f.nearest (n * d) d = f.nearest n 1 := by
  have scaled (s : Nat) :
      roundHalfEven (n * d) (d * Nat.pow 2 s) = roundHalfEven n (Nat.pow 2 s) := by
    rw [Nat.mul_comm d, roundHalfEven_mul_mul pos]
  simp only [nearest, Nat.mul_div_cancel n pos, scaled, Nat.div_one, Nat.one_mul]

/-- A magnitude is the nearest to the count of units that it stands for. -/
theorem nearest_units {m : Nat} (finite : m ≤ f.infinity) : f.nearest (f.units m) 1 = m := by
  have parts := Nat.div_add_mod' m (2 ^ f.fractionBits)
  have short := Nat.mod_lt m (Nat.two_pow_pos f.fractionBits)
  have twice := Nat.pow_succ 2 f.fractionBits
  simp only [nearest, units, Nat.pow_eq, Nat.div_one, Nat.one_mul]
  generalize m / 2 ^ f.fractionBits = e at parts
  generalize m % 2 ^ f.fractionBits = r at parts short
  have exact (k s : Nat) : roundHalfEven (k * 2 ^ s) (2 ^ s) = k :=
    roundHalfEven_mul (Nat.two_pow_pos s)
  match e with
  | 0 =>
      have low : r < 2 ^ (f.fractionBits + 1) := by omega
      have same := exact r 0
      simp only [↓reduceIte, low, Nat.zero_mul, Nat.zero_add, Nat.pow_zero,
        Nat.mul_one] at parts same ⊢
      omega
  | 1 =>
      have low : 2 ^ f.fractionBits + r < 2 ^ (f.fractionBits + 1) := by omega
      have same := exact (2 ^ f.fractionBits + r) 0
      simp only [Nat.one_ne_zero, Nat.sub_self, ↓reduceIte, low, Nat.zero_mul, Nat.zero_add,
        Nat.pow_zero, Nat.mul_one, Nat.one_mul] at parts same ⊢
      omega
  | e + 2 =>
      have some : 2 ^ f.fractionBits + r ≠ 0 := by omega
      have bits : ((2 ^ f.fractionBits + r) * 2 ^ (e + 1)).log2 = f.fractionBits + (e + 1) := by
        rw [Binary.log2_mul_two_pow some, Binary.log2_two_pow_add short]
      have large : ¬(2 ^ f.fractionBits + r) * 2 ^ (e + 1) < 2 ^ (f.fractionBits + 1) := by
        rw [← Nat.log2_lt (Nat.mul_ne_zero some (Nat.two_pow_pos _).ne'), bits]
        omega
      have step : f.fractionBits + (e + 1) - f.fractionBits = e + 1 := by omega
      have carried : (e + 2) * 2 ^ f.fractionBits =
          (e + 1) * 2 ^ f.fractionBits + 2 ^ f.fractionBits := Nat.succ_mul ..
      have shift : e + 2 - 1 = e + 1 := rfl
      have normal : ¬e + 2 = 0 := Nat.add_one_ne_zero (e + 1)
      simp only [normal, shift, ↓reduceIte, large, bits, step, exact]
      omega

end BinaryFormat

/-! ## Formats that are wide enough -/

namespace Binary

variable {g : BinaryFormat} {x : Binary f}

/-- A number that another format can tell comes back from it as it was. -/
theorem convert_convert (finite : x.isFinite) {m : Nat} (wide : m < g.infinity)
    (told : g.units m * f.unitsInOne = f.units x.magnitude * g.unitsInOne) :
    (x.convert : Binary g).isFinite ∧ (x.convert : Binary g).convert = x := by
  have pos : 0 < f.unitsInOne := by
    rw [BinaryFormat.unitsInOne, Nat.pow_eq]
    exact Nat.two_pow_pos _
  have pos' : 0 < g.unitsInOne := by
    rw [BinaryFormat.unitsInOne, Nat.pow_eq]
    exact Nat.two_pow_pos _
  have there : (x.convert : Binary g) = ofMagnitude x.isNegative m := by
    simp only [convert, datum_of_isFinite finite, ofUnits]
    rw [← told, BinaryFormat.nearest_mul pos, BinaryFormat.nearest_units (Nat.le_of_lt wide)]
  have within := Nat.lt_trans wide g.infinity_lt
  constructor
  · rw [there, isFinite, magnitude_ofMagnitude within]
    exact decide_eq_true wide
  · have own := finite
    rw [isFinite, decide_eq_true_eq] at own
    rw [there, convert, datum_ofMagnitude wide]
    simp only [ofUnits]
    rw [told, BinaryFormat.nearest_mul pos', BinaryFormat.nearest_units (Nat.le_of_lt own),
      ofMagnitude_self]

end Binary

end

end SignalGraph
