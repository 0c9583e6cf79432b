import SignalGraph.Proofs.Rounding
import SignalGraph.Timetag

/-! # Arithmetic of times

Times are compared exactly, although their distance is counted in double numbers. To go forth rounds
a time as numbers are rounded; to go back from a time that numbers can tell is exact.
-/

namespace SignalGraph

/-! ## Ticks -/

/-- The exponent of a tick as a power of two units. -/
@[irreducible]
def tickExponent : Nat := 1042

/-- The count of units in the smallest step of the clock. -/
def tick : Nat := 2 ^ tickExponent

theorem tick_pos : 0 < tick := Nat.two_pow_pos _

theorem tick_mul : tick * 2 ^ 32 = BinaryFormat.double.unitsInOne := by
  have exponent : tickExponent + 32 = BinaryFormat.double.unitExponent := by
    rw [tickExponent]
    rfl
  rw [tick, ← Nat.pow_add, exponent, BinaryFormat.unitsInOne, Nat.pow_eq]

theorem unitsInOne_pos : 0 < BinaryFormat.double.unitsInOne :=
  tick_mul ▸ Nat.mul_pos tick_pos (Nat.two_pow_pos 32)

theorem unitsInOne_eq : BinaryFormat.double.unitsInOne = 2 ^ (tickExponent + 32) := by
  rw [← tick_mul, tick, Nat.pow_add]

theorem div_unitsInOne (n : Nat) : n / BinaryFormat.double.unitsInOne = n / tick / 2 ^ 32 := by
  rw [← tick_mul, Nat.div_div_eq_div_mul]

/-- The fraction of a second in ticks, those that are not whole cut off. -/
theorem mod_unitsInOne_div (n : Nat) :
    n % BinaryFormat.double.unitsInOne * 2 ^ 32 / BinaryFormat.double.unitsInOne =
      n / tick % 2 ^ 32 := by
  rw [← tick_mul, Nat.mul_div_mul_right _ _ (Nat.two_pow_pos 32), Nat.mod_mul_right_div_self]

theorem lt_two_pow_of_lt {n e : Nat} (low : n < 2 ^ e) : n * tick < 2 ^ (e + tickExponent) := by
  rw [tick, Nat.pow_add]
  exact Nat.mul_lt_mul_of_pos_right low (Nat.two_pow_pos _)

theorem rounded_mul_tick_lt {n : Nat} (low : n < 2 ^ 100) :
    Binary.rounded (n * tick) < Binary.limit :=
  Binary.rounded_lt_limit (lt_two_pow_of_lt low) (by
    rw [tickExponent, Binary.lastExponent]
    decide)

namespace Binary

variable {x y : Double} {a b : Int} {n : Nat}

theorem nearby_mul_tick (z : Int) : nearby (z * tick) = nearby z * tick := by
  have scaled := nearby_mul_two_pow z tickExponent
  have same : ((2 : Int) ^ tickExponent) = (tick : Nat) := by
    rw [tick, Nat.cast_pow]
    rfl
  rwa [same] at scaled

/-- Whether a number is finite and stands for a count of ticks. -/
def IsTicks (x : Double) (z : Int) : Prop := x.Counts (z * tick)

namespace IsTicks

theorem congr (ticks : x.IsTicks a) (same : a = b) : x.IsTicks b := same ▸ ticks

theorem neg (ticks : x.IsTicks a) : x.neg.IsTicks (-a) := by
  have negated := Counts.neg ticks
  rwa [← Int.neg_mul] at negated

theorem add (first : x.IsTicks a) (second : y.IsTicks b) (low : (a + b).natAbs < 2 ^ 100) :
    (x.add y).IsTicks (nearby (a + b)) := by
  have sum : a * tick + b * tick = (a + b) * tick := (Int.add_mul a b tick).symm
  have bound : rounded ((a + b) * tick).natAbs < limit := by
    rw [Int.natAbs_mul, Int.natAbs_natCast]
    exact rounded_mul_tick_lt low
  have added := Counts.add first second (sum ▸ bound)
  rwa [sum, nearby_mul_tick] at added

theorem sub (first : x.IsTicks a) (second : y.IsTicks b) (low : (a - b).natAbs < 2 ^ 100) :
    (x.sub y).IsTicks (nearby (a - b)) := first.add second.neg low

theorem isAbove_iff (first : x.IsTicks a) (second : y.IsTicks b) : x.isAbove y ↔ b < a :=
  (Counts.isAbove_iff first second).trans
    (mul_lt_mul_iff_of_pos_right (by exact_mod_cast tick_pos))

theorem ofUnits {s : Bool} {k d : Nat} (pos : 0 < d) (low : k < 2 ^ 100) (sign : signed s k = a) :
    IsTicks (Binary.ofUnits s (k * tick * d) d) (nearby a) := by
  have counts := Counts.ofUnits (s := s) pos (rounded_mul_tick_lt low)
  have scaled : signed s (k * tick) = a * tick := by
    rw [← sign]
    cases s <;> simp [signed]
  rw [signed_rounded scaled, nearby_mul_tick] at counts
  exact counts

theorem ofInt (small : n < 2 ^ 53) : IsTicks (Binary.ofInt n) (n * 2 ^ 32 : Nat) := by
  have short : IsShort (n * 2 ^ 32) := (isShort_of_lt small).mul 32
  have ticks := ofUnits (a := (n * 2 ^ 32 : Nat)) (s := false) Nat.one_pos (by omega) rfl
  have whole : n * 2 ^ 32 * tick * 1 = n * BinaryFormat.double.unitsInOne := by
    rw [← tick_mul, Nat.mul_one, Nat.mul_assoc, Nat.mul_comm tick]
  have sign : decide ((n : Int) < 0) = false := decide_eq_false (by omega)
  rw [short.nearby, whole] at ticks
  rw [Binary.ofInt, sign, Int.natAbs_natCast]
  exact ticks

theorem datum (ticks : x.IsTicks a) : ∃ s k, x.datum = .finite s (k * tick) ∧ signed s k = a := by
  obtain ⟨s, m, same, count⟩ := Counts.datum ticks
  obtain ⟨k, rfl, sign⟩ := exists_of_signed_mul count tick_pos
  exact ⟨s, k, same, sign⟩

theorem counts (ticks : x.IsTicks n) : x.Counts (n * tick : Nat) := by
  rw [Int.natCast_mul]
  exact ticks

theorem datum_fractionScale :
    Timetag.fractionScale.datum = .finite false (2 ^ 32 * BinaryFormat.double.unitsInOne) := by
  have scale := (ofInt (n := UInt32.size) (by decide)).counts.datum_of_pos
    (Nat.mul_pos (by decide) tick_pos)
  rw [← tick_mul, Nat.mul_comm tick, ← Nat.mul_assoc]
  exact scale

theorem div_fractionScale (ticks : x.IsTicks (a * 2 ^ 32)) (low : a.natAbs < 2 ^ 68) :
    (x.div Timetag.fractionScale).IsTicks (nearby a) := by
  obtain ⟨s, k, same, sign⟩ := ticks.datum
  have scale : ((2 : Int) ^ 32) = (2 ^ 32 : Nat) := rfl
  rw [scale] at sign
  obtain ⟨k, rfl, half⟩ := exists_of_signed_mul sign (by decide)
  have size : k = a.natAbs := by
    rw [← half]
    cases s <;> simp [signed]
  have pos : 0 < 2 ^ 32 * BinaryFormat.double.unitsInOne :=
    Nat.mul_pos (by decide) unitsInOne_pos
  have quotient : k * 2 ^ 32 * tick * BinaryFormat.double.unitsInOne =
      k * tick * (2 ^ 32 * BinaryFormat.double.unitsInOne) := by
    rw [Nat.mul_right_comm k, Nat.mul_assoc]
  simp only [Binary.div, same, datum_fractionScale, Nat.ne_of_gt pos, ↓reduceIte, quotient,
    Bool.bne_false]
  exact ofUnits pos (by omega) half

end IsTicks

namespace Counts

/-- The whole seconds of a number are a number. -/
theorem floor (counts : x.Counts n) (pos : 0 < n) :
    x.floor.Counts (n / BinaryFormat.double.unitsInOne * BinaryFormat.double.unitsInOne : Nat) := by
  have short : IsShort
      (n / BinaryFormat.double.unitsInOne * BinaryFormat.double.unitsInOne) := by
    rw [unitsInOne_eq]
    exact counts.isShort.div_mul _
  have low := Nat.lt_of_le_of_lt (Nat.div_mul_le_self n BinaryFormat.double.unitsInOne)
    counts.lt_limit
  have whole := ofUnits_of_short Nat.one_pos short low
  rw [Nat.mul_one] at whole
  simp only [Binary.floor, counts.datum_of_pos pos, Bool.false_and, Bool.false_eq_true, ↓reduceIte]
  exact whole

/-- What is above the whole seconds of a number is a number. -/
theorem sub_floor (counts : x.Counts n) (pos : 0 < n) :
    (x.sub x.floor).Counts (n % BinaryFormat.double.unitsInOne : Nat) := by
  have left : (n : Int) -
      (n / BinaryFormat.double.unitsInOne * BinaryFormat.double.unitsInOne : Nat) =
      (n % BinaryFormat.double.unitsInOne : Nat) := by
    have parts := Nat.div_add_mod' n BinaryFormat.double.unitsInOne
    omega
  have short : IsShort (n % BinaryFormat.double.unitsInOne) := by
    rw [unitsInOne_eq]
    exact counts.isShort.mod _
  have low := Nat.lt_of_le_of_lt (Nat.mod_le n BinaryFormat.double.unitsInOne) counts.lt_limit
  have exact := counts.sub_of_short (counts.floor pos) (by rwa [left]) (by rwa [left])
  rwa [left] at exact

/-- A fraction of a second is scaled exactly. -/
theorem mul_fractionScale (counts : x.Counts n) (small : n < BinaryFormat.double.unitsInOne) :
    (x.mul Timetag.fractionScale).Counts (n * 2 ^ 32 : Nat) := by
  obtain ⟨s, m, same, sign⟩ := counts.datum
  have size : m = n := by cases s <;> simp [signed] at sign <;> omega
  subst size
  have short : IsShort (m * 2 ^ 32) := counts.isShort.mul 32
  have scaled : signed s (m * 2 ^ 32) = (m * 2 ^ 32 : Nat) := by
    rw [Int.natCast_mul, ← sign]
    cases s <;> simp [signed]
  have low : m * 2 ^ 32 < 2 ^ (tickExponent + 32 + 32) := by
    rw [Nat.pow_add 2 (tickExponent + 32) 32, ← unitsInOne_eq]
    generalize BinaryFormat.double.unitsInOne = one at small
    omega
  have within : tickExponent + 32 + 32 ≤ lastExponent := by
    rw [tickExponent, lastExponent]
    decide
  have product := ofUnits (s := s) unitsInOne_pos (rounded_lt_limit low within)
  rw [signed_rounded scaled, short.nearby, Nat.mul_assoc] at product
  simpa only [Binary.mul, same, IsTicks.datum_fractionScale, Bool.bne_false] using product

theorem toUInt32 (counts : x.Counts n) :
    x.toUInt32.toNat = min (2 ^ 32 - 1) (n / BinaryFormat.double.unitsInOne) := by
  obtain ⟨s, m, same, sign⟩ := counts.datum
  have size : m = n := by cases s <;> simp [signed] at sign <;> omega
  subst size
  have cut : signed s (m / BinaryFormat.double.unitsInOne) =
      (m / BinaryFormat.double.unitsInOne : Nat) := by
    cases s with
    | false => rfl
    | true =>
        obtain rfl : m = 0 := by
          simp only [signed, ↓reduceIte] at sign
          omega
        simp [signed]
  rw [Binary.toUInt32, truncate, same]
  simp only [cut]
  generalize m / BinaryFormat.double.unitsInOne = q
  have bound : (UInt32.size : Int) - 1 = (2 ^ 32 - 1 : Nat) := rfl
  have stopped : max (0 : Int) (min ((2 ^ 32 - 1 : Nat) : Int) q) =
      (min (2 ^ 32 - 1) q : Nat) := by omega
  have within : min (2 ^ 32 - 1) q < 2 ^ 32 := by omega
  rw [bound, stopped, Int.toNat_natCast]
  exact UInt32.toNat_ofNat_of_lt within

end Counts

end Binary

namespace Timetag

open Binary

variable {t earlier : Timetag} {x : Double} {n : Nat}

/-! ## Distances -/

theorem ofWord_isTicks (n : UInt32) : (ofWord n).IsTicks (n.toNat * 2 ^ 32 : Nat) :=
  .ofInt (Nat.lt_trans n.toNat_lt (by decide))

theorem sec_lt (t : Timetag) : t.sec.toNat < 2 ^ 32 := t.sec.toNat_lt

theorem frac_lt (t : Timetag) : t.frac.toNat < 2 ^ 32 := t.frac.toNat_lt

theorem ticks_eq (t : Timetag) : t.ticks = t.sec.toNat * 2 ^ 32 + t.frac.toNat := rfl

theorem ticks_lt (t : Timetag) : t.ticks < 2 ^ 64 := by
  have whole := t.sec_lt
  have part := t.frac_lt
  rw [ticks_eq]
  omega

/-- The seconds since the first time are those that a number can tell. -/
theorem seconds_isTicks (t : Timetag) : t.seconds.IsTicks (rounded t.ticks : Nat) := by
  have whole := t.sec_lt
  have part := t.frac_lt
  have fraction : ((ofWord t.frac).div fractionScale).IsTicks t.frac.toNat := by
    have scaled := ((ofWord_isTicks t.frac).congr (Int.natCast_mul ..)).div_fractionScale (by omega)
    rwa [(isShort_of_lt (by omega)).nearby] at scaled
  have total : ((t.sec.toNat * 2 ^ 32 : Nat) : Int) + t.frac.toNat = t.ticks := by
    rw [ticks_eq]
    omega
  have sum := (ofWord_isTicks t.sec).add fraction (by omega)
  rwa [total, nearby_natCast] at sum

/-- The seconds from one time to another are those that a number can tell of them. -/
theorem since_isTicks (t earlier : Timetag) :
    (t.since earlier).IsTicks (nearby (t.ticks - earlier.ticks)) := by
  have bounds := And.intro (And.intro t.sec_lt t.frac_lt) (And.intro earlier.sec_lt earlier.frac_lt)
  -- Seconds and fractions have short differences each, and only the sum of the two is rounded.
  have words (n m : UInt32) :
      ((ofWord n).sub (ofWord m)).IsTicks ((n.toNat - m.toNat) * 2 ^ 32) := by
    have low := n.toNat_lt
    have low' := m.toNat_lt
    have short : IsShort ((n.toNat * 2 ^ 32 : Nat) - (m.toNat * 2 ^ 32 : Nat) : Int).natAbs := by
      have scaled : ((n.toNat * 2 ^ 32 : Nat) - (m.toNat * 2 ^ 32 : Nat) : Int).natAbs =
          (n.toNat - m.toNat : Int).natAbs * 2 ^ 32 := by omega
      rw [scaled]
      exact (isShort_of_lt (by omega)).mul 32
    have exact := (ofWord_isTicks n).sub (ofWord_isTicks m) (by omega)
    rw [nearby_eq_self short] at exact
    exact exact.congr (by omega)
  have part := (words t.frac earlier.frac).div_fractionScale (by omega)
  rw [nearby_eq_self (isShort_of_lt (by omega))] at part
  have total : ((t.sec.toNat : Int) - earlier.sec.toNat) * 2 ^ 32 +
      (t.frac.toNat - earlier.frac.toNat) = t.ticks - earlier.ticks := by
    rw [ticks_eq, ticks_eq]
    omega
  have sum := (words t.sec earlier.sec).add part (by omega)
  rwa [total] at sum

theorem le_iff_ticks_le : earlier ≤ t ↔ earlier.ticks ≤ t.ticks := Iff.rfl

/-- Whether more than some whole seconds lie between two times is told by their distance as it is
    rounded. -/
theorem since_isAbove_iff (t earlier : Timetag) (n : UInt32) :
    (t.since earlier).isAbove (Binary.ofInt n.toNat) ↔
      n.toNat * 2 ^ 32 < rounded (t.ticks - earlier.ticks) := by
  refine ((since_isTicks t earlier).isAbove_iff (ofWord_isTicks n)).trans ?_
  rcases Nat.le_total earlier.ticks t.ticks with before | after
  · have span : (t.ticks : Int) - earlier.ticks = (t.ticks - earlier.ticks : Nat) := by omega
    rw [span, nearby_natCast, Int.ofNat_lt]
  · have nonpos := nearby_nonpos (z := t.ticks - earlier.ticks) (by omega)
    have none : rounded (t.ticks - earlier.ticks) = 0 := by
      rw [Nat.sub_eq_zero_of_le after]
      rfl
    omega

/-! ## Shifts -/

/-- A count of ticks with the seconds stopped at the last one that there is. -/
def saturated (n : Nat) : Nat := min (2 ^ 32 - 1) (n / 2 ^ 32) * 2 ^ 32 + n % 2 ^ 32

theorem saturated_of_lt (low : n < 2 ^ 64) : saturated n = n := by
  rw [saturated]
  omega

theorem isShort_saturated (short : IsShort n) : IsShort (saturated n) := by
  rcases Nat.lt_or_ge n (2 ^ 64) with low | high
  · exact (saturated_of_lt low).symm ▸ short
  · obtain ⟨k, e, rfl, small⟩ := short
    have coarse : 11 ≤ e := by
      by_contra fine
      have few : 2 ^ e ≤ 2 ^ 10 := Nat.pow_le_pow_right Nat.two_pos (by omega)
      have less := Nat.mul_le_mul (Nat.le_of_lt small) few
      omega
    have steps : k * 2 ^ e = k * 2 ^ (e - 11) * 2 ^ 11 := by
      rw [Nat.mul_assoc, ← Nat.pow_add, Nat.sub_add_cancel coarse]
    rw [steps] at high ⊢
    generalize k * 2 ^ (e - 11) = c at *
    refine ⟨(2 ^ 32 - 1) * 2 ^ 21 + c % 2 ^ 21, 11, ?_, by omega⟩
    rw [saturated]
    omega

/-- The time that a number of seconds comes to is exact, its last fraction of a tick cut off. -/
theorem ticks_ofSeconds {z : Int} (counts : x.Counts z) :
    (ofSeconds x).ticks = saturated (z.toNat / tick) := by
  have above := counts.isAbove_zero_iff
  rcases lt_or_ge 0 z with pos | none
  · obtain ⟨n, rfl⟩ := Int.eq_ofNat_of_zero_le (Int.le_of_lt pos)
    have some : 0 < n := by omega
    have whole := (counts.floor some).toUInt32
    have rest := ((counts.sub_floor some).mul_fractionScale (Nat.mod_lt _ unitsInOne_pos)).toUInt32
    rw [Nat.mul_div_cancel _ unitsInOne_pos, div_unitsInOne] at whole
    rw [mod_unitsInOne_div] at rest
    simp only [ofSeconds, above.mpr pos, Bool.not_true, Bool.false_eq_true, ↓reduceIte, ticks_eq,
      whole, rest, saturated, Int.toNat_natCast]
    omega
  · have stopped : ofSeconds x = zero := by
      have notAbove : x.isAbove .zero = false :=
        Bool.eq_false_iff.mpr fun positive => absurd (above.mp positive) (Int.not_lt.mpr none)
      simp [ofSeconds, notAbove]
    rw [stopped, Int.toNat_of_nonpos none, Nat.zero_div]
    rfl

theorem ticks_ofSeconds_of_isTicks {a : Int} (ticks : x.IsTicks a) :
    (ofSeconds x).ticks = saturated a.toNat := by
  have scaled : (a * tick).toNat / tick = a.toNat := by
    rcases Int.le_total 0 a with above | below
    · obtain ⟨n, rfl⟩ := Int.eq_ofNat_of_zero_le above
      rw [← Int.natCast_mul, Int.toNat_natCast, Nat.mul_div_cancel _ tick_pos, Int.toNat_natCast]
    · have product := Int.mul_nonpos_of_nonpos_of_nonneg below (Int.natCast_nonneg tick)
      rw [Int.toNat_of_nonpos product, Int.toNat_of_nonpos below, Nat.zero_div]
  rw [ticks_ofSeconds ticks, scaled]

/-- A time goes forth by whole seconds as numbers do, each sum rounded. -/
theorem ticks_shift (t : Timetag) (n : UInt32) : (t.shift (Binary.ofInt n.toNat)).ticks =
    saturated (rounded (rounded t.ticks + n.toNat * 2 ^ 32)) := by
  have bound := t.ticks_lt
  have low := n.toNat_lt
  have near := rounded_le t.ticks
  have moved := t.seconds_isTicks.add (ofWord_isTicks n) (by omega)
  have sum : (rounded t.ticks : Int) + (n.toNat * 2 ^ 32 : Nat) =
      (rounded t.ticks + n.toNat * 2 ^ 32 : Nat) := by omega
  rw [sum, nearby_natCast] at moved
  have nearSum := rounded_le (rounded t.ticks + n.toNat * 2 ^ 32)
  change (ofSeconds (t.seconds.add (ofWord n))).ticks = _
  rw [ticks_ofSeconds_of_isTicks moved, Int.toNat_natCast]

theorem isShort_shift (t : Timetag) (n : UInt32) :
    IsShort (t.shift (Binary.ofInt n.toNat)).ticks := by
  rw [ticks_shift t n]
  exact isShort_saturated (isShort_rounded _)

end Timetag

end SignalGraph
