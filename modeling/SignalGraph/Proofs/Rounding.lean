import Mathlib.Algebra.Order.Ring.Int
import SignalGraph.Proofs.Magnitudes

/-! # Rounding of double numbers

A count of units is that of a number if its fraction is not longer than those of numbers are. Such
counts are not rounded, so that sums of numbers are exact where they are short. Whatever is rounded
keeps its sign, and counts are rounded in the same way on each scale.
-/

namespace SignalGraph

namespace Binary

/-! ## Counts of units -/

/-- How far apart numbers stand at a count of units, as a power of two. -/
def grid (n : Nat) : Nat := if n < 2 ^ 53 then 0 else n.log2 - 52

/-- The count of units of the number that is nearest to a count. -/
def rounded (n : Nat) : Nat := roundHalfEven n (2 ^ grid n) * 2 ^ grid n

/-- Whether a count of units is short enough to be that of a number. -/
def IsShort (n : Nat) : Prop := ∃ k e, n = k * 2 ^ e ∧ k < 2 ^ 53

section

variable {n k e : Nat}

theorem isShort_of_lt (small : n < 2 ^ 53) : IsShort n := ⟨n, 0, (Nat.mul_one n).symm, small⟩

theorem IsShort.mul (short : IsShort n) (e : Nat) : IsShort (n * 2 ^ e) := by
  obtain ⟨k, e', rfl, small⟩ := short
  exact ⟨k, e' + e, by rw [Nat.pow_add, Nat.mul_assoc], small⟩

/-- What is left of a short count without its last digits. -/
theorem IsShort.div_mul (short : IsShort n) (e : Nat) : IsShort (n / 2 ^ e * 2 ^ e) := by
  obtain ⟨k, f, rfl, short⟩ := short
  rcases Nat.le_total e f with fine | coarse
  · have steps : 2 ^ f = 2 ^ (f - e) * 2 ^ e := by rw [← Nat.pow_add, Nat.sub_add_cancel fine]
    exact ⟨k, f, by rw [steps, ← Nat.mul_assoc, Nat.mul_div_cancel _ (Nat.two_pow_pos e)], short⟩
  · have steps : 2 ^ e = 2 ^ (e - f) * 2 ^ f := by rw [← Nat.pow_add, Nat.sub_add_cancel coarse]
    refine ⟨k / 2 ^ (e - f), e, ?_, Nat.lt_of_le_of_lt (Nat.div_le_self ..) short⟩
    rw [steps, Nat.mul_div_mul_right _ _ (Nat.two_pow_pos f)]

/-- The last digits of a short count. -/
theorem IsShort.mod (short : IsShort n) (e : Nat) : IsShort (n % 2 ^ e) := by
  obtain ⟨k, f, rfl, short⟩ := short
  rcases Nat.le_total e f with fine | coarse
  · have steps : 2 ^ f = 2 ^ (f - e) * 2 ^ e := by rw [← Nat.pow_add, Nat.sub_add_cancel fine]
    rw [steps, ← Nat.mul_assoc, Nat.mul_mod_left]
    exact isShort_of_lt (by decide)
  · have steps : 2 ^ e = 2 ^ (e - f) * 2 ^ f := by rw [← Nat.pow_add, Nat.sub_add_cancel coarse]
    rw [steps, Nat.mul_mod_mul_right]
    exact ⟨_, f, rfl, Nat.lt_of_le_of_lt (Nat.mod_le ..) short⟩

theorem grid_of_lt (small : n < 2 ^ 53) : grid n = 0 := if_pos small

theorem grid_of_le (large : 2 ^ 53 ≤ n) : grid n + 52 = n.log2 := by
  have lower : 53 ≤ n.log2 := (Nat.le_log2 (by omega)).mpr large
  rw [grid, if_neg (Nat.not_lt.mpr large)]
  omega

theorem two_pow_grid_le (large : 2 ^ 53 ≤ n) : 2 ^ grid n ≤ n := by
  have exponent := grid_of_le large
  exact Nat.le_trans (Nat.pow_le_pow_right Nat.two_pos (by omega)) (Nat.log2_self_le (by omega))

theorem IsShort.grid_dvd (short : IsShort n) : 2 ^ grid n ∣ n := by
  obtain ⟨k, e, rfl, short⟩ := short
  rcases Nat.lt_or_ge (k * 2 ^ e) (2 ^ 53) with small | large
  · rw [grid_of_lt small]
    exact Nat.one_dvd _
  · have some : k * 2 ^ e ≠ 0 := by omega
    have upper : (k * 2 ^ e).log2 < 53 + e := by
      rw [Nat.log2_lt some, Nat.pow_add]
      exact Nat.mul_lt_mul_of_pos_right short (Nat.two_pow_pos e)
    have exponent := grid_of_le large
    exact Nat.dvd_trans (Nat.pow_dvd_pow 2 (by omega)) (Nat.dvd_mul_left _ k)

/-- What is short enough is not rounded. -/
theorem IsShort.rounded (short : IsShort n) : Binary.rounded n = n := by
  obtain ⟨k, same⟩ := short.grid_dvd
  have exact : n = k * 2 ^ grid n := same.trans (Nat.mul_comm _ _)
  calc Binary.rounded n
    _ = roundHalfEven (k * 2 ^ grid n) (2 ^ grid n) * 2 ^ grid n := by
      rw [Binary.rounded, ← exact]
    _ = k * 2 ^ grid n := by rw [roundHalfEven_mul (Nat.two_pow_pos _)]
    _ = n := exact.symm

/-- A large count comes down to a fraction with its leading bit, which may have been carried. -/
theorem roundHalfEven_grid (large : 2 ^ 53 ≤ n) :
    2 ^ 52 ≤ roundHalfEven n (2 ^ grid n) ∧ roundHalfEven n (2 ^ grid n) ≤ 2 ^ 53 := by
  have exponent := grid_of_le large
  have some : n ≠ 0 := by omega
  have lower : 2 ^ 52 ≤ n / 2 ^ grid n := by
    rw [Nat.le_div_iff_mul_le (Nat.two_pow_pos _), ← Nat.pow_add, Nat.add_comm, exponent]
    exact Nat.log2_self_le some
  have upper : n / 2 ^ grid n < 2 ^ 53 := by
    rw [Nat.div_lt_iff_lt_mul (Nat.two_pow_pos _), ← Nat.pow_add, ← Nat.log2_lt some]
    omega
  exact ⟨Nat.le_trans lower div_le_roundHalfEven, Nat.le_trans roundHalfEven_le upper⟩

theorem isShort_rounded (n : Nat) : IsShort (Binary.rounded n) := by
  rcases Nat.lt_or_ge n (2 ^ 53) with small | large
  · exact (isShort_of_lt small).rounded.symm ▸ isShort_of_lt small
  · obtain ⟨-, upper⟩ := roundHalfEven_grid large
    rw [Binary.rounded]
    rcases Nat.lt_or_eq_of_le upper with within | carried
    · exact ⟨_, grid n, rfl, within⟩
    · rw [carried]
      exact ((isShort_of_lt (by decide : 1 < 2 ^ 53)).mul 53).mul (grid n)

theorem rounded_le (n : Nat) : Binary.rounded n ≤ 2 * n := by
  rcases Nat.lt_or_ge n (2 ^ 53) with small | large
  · rw [(isShort_of_lt small).rounded]
    omega
  · calc Binary.rounded n
      _ ≤ (n / 2 ^ grid n + 1) * 2 ^ grid n := Nat.mul_le_mul_right _ roundHalfEven_le
      _ = n / 2 ^ grid n * 2 ^ grid n + 2 ^ grid n := Nat.succ_mul ..
      _ ≤ n + n := Nat.add_le_add (Nat.div_mul_le_self ..) (two_pow_grid_le large)
      _ = 2 * n := (Nat.two_mul n).symm

theorem rounded_pos (pos : 0 < n) : 0 < Binary.rounded n := by
  rcases Nat.lt_or_ge n (2 ^ 53) with small | large
  · exact (isShort_of_lt small).rounded.symm ▸ pos
  · obtain ⟨lower, -⟩ := roundHalfEven_grid large
    exact Nat.mul_pos (Nat.lt_of_lt_of_le (Nat.two_pow_pos 52) lower) (Nat.two_pow_pos _)

/-- Counts are rounded in the same way on each scale. -/
theorem rounded_mul_two_pow (k e : Nat) :
    Binary.rounded (k * 2 ^ e) = Binary.rounded k * 2 ^ e := by
  rcases Nat.lt_or_ge k (2 ^ 53) with small | large
  · have short := isShort_of_lt small
    rw [(short.mul e).rounded, short.rounded]
  · have larger : 2 ^ 53 ≤ k * 2 ^ e :=
      Nat.le_trans large (Nat.le_mul_of_pos_right k (Nat.two_pow_pos e))
    have scaled : grid (k * 2 ^ e) = grid k + e := by
      have coarse := grid_of_le larger
      have fine := grid_of_le large
      rw [log2_mul_two_pow (by omega)] at coarse
      omega
    rw [Binary.rounded, Binary.rounded, scaled, Nat.pow_add,
      roundHalfEven_mul_mul (Nat.two_pow_pos e), Nat.mul_assoc]

theorem grid_mono {m : Nat} (le : n ≤ m) : grid n ≤ grid m := by
  rcases Nat.lt_or_ge n (2 ^ 53) with small | large
  · rw [grid_of_lt small]
    exact Nat.zero_le _
  · have fine := grid_of_le large
    have coarse := grid_of_le (Nat.le_trans large le)
    have lower : n.log2 ≤ m.log2 :=
      (Nat.le_log2 (by omega)).mpr (Nat.le_trans (Nat.log2_self_le (by omega)) le)
    omega

/-- Nothing is rounded beyond a count that is short enough. -/
theorem IsShort.rounded_le {m : Nat} (short : IsShort m) (le : n ≤ m) : Binary.rounded n ≤ m := by
  obtain ⟨k, same⟩ := Nat.dvd_trans (Nat.pow_dvd_pow 2 (grid_mono le)) short.grid_dvd
  have steps : m = k * 2 ^ grid n := same.trans (Nat.mul_comm _ _)
  rw [steps] at le ⊢
  exact Nat.mul_le_mul_right _ (roundHalfEven_le_of_le_mul (Nat.two_pow_pos _) le)

theorem rounded_mono {m : Nat} (le : n ≤ m) : Binary.rounded n ≤ Binary.rounded m := by
  rcases Nat.lt_or_ge m (2 ^ 53) with small | large
  · rw [(isShort_of_lt small).rounded, (isShort_of_lt (Nat.lt_of_le_of_lt le small)).rounded]
    exact le
  · rcases Nat.lt_or_eq_of_le (grid_mono le) with finer | same
    · -- All fractions of a lower binade come before those of a higher one.
      have upper : roundHalfEven n (2 ^ grid n) ≤ 2 ^ 53 := by
        rcases Nat.lt_or_ge n (2 ^ 53) with low | high
        · refine Nat.le_of_lt (Nat.lt_of_le_of_lt ?_ low)
          exact roundHalfEven_le_of_le_mul (Nat.two_pow_pos _)
            (Nat.le_mul_of_pos_right n (Nat.two_pow_pos _))
        · exact (roundHalfEven_grid high).2
      obtain ⟨lower, -⟩ := roundHalfEven_grid large
      calc Binary.rounded n
        _ ≤ 2 ^ 53 * 2 ^ grid n := Nat.mul_le_mul_right _ upper
        _ = 2 ^ 52 * 2 ^ (grid n + 1) := by rw [← Nat.pow_add, ← Nat.pow_add]; congr 1; omega
        _ ≤ 2 ^ 52 * 2 ^ grid m := Nat.mul_le_mul_left _ (Nat.pow_le_pow_right Nat.two_pos finer)
        _ ≤ Binary.rounded m := Nat.mul_le_mul_right _ lower
    · rw [Binary.rounded, Binary.rounded, same]
      exact Nat.mul_le_mul_right _ (roundHalfEven_mono le)

/-- A number with its leading bit stays as it is when less than half its last digit is added. -/
theorem rounded_add {r : Nat} (leading : 2 ^ 52 ≤ k) (short : k < 2 ^ 53) (less : 2 * r < 2 ^ e) :
    Binary.rounded (k * 2 ^ e + r) = k * 2 ^ e := by
  rcases Nat.eq_zero_or_pos e with rfl | pos
  · have none : r = 0 := by
      rw [Nat.pow_zero] at less
      omega
    rw [none, Nat.add_zero]
    exact ((isShort_of_lt short).mul 0).rounded
  · have lower : 2 ^ 52 * 2 ^ e ≤ k * 2 ^ e := Nat.mul_le_mul_right _ leading
    have upper : (k + 1) * 2 ^ e ≤ 2 ^ 53 * 2 ^ e := Nat.mul_le_mul_right _ short
    rw [Nat.succ_mul] at upper
    rw [← Nat.pow_add] at lower upper
    have two : 2 ^ (52 + 1) ≤ 2 ^ (52 + e) := Nat.pow_le_pow_right Nat.two_pos (by omega)
    have large : 2 ^ 53 ≤ k * 2 ^ e + r := by omega
    have next : 52 + e + 1 = 53 + e := by omega
    have bits : (k * 2 ^ e + r).log2 = 52 + e := by
      rw [Nat.log2_eq_iff (by omega), next]
      exact ⟨by omega, by omega⟩
    have exponent := grid_of_le large
    have scale : grid (k * 2 ^ e + r) = e := by omega
    rw [Binary.rounded, scale, roundHalfEven_add less]

theorem IsShort.lt_of_lt_rounded {m : Nat} (short : IsShort m) (above : m < Binary.rounded n) :
    m < n := Nat.lt_of_not_le fun le => Nat.not_lt.mpr (short.rounded_le le) above

theorem two_pow_le_rounded (large : 2 ^ 53 ≤ n) : 2 ^ 53 ≤ Binary.rounded n := by
  obtain ⟨lower, -⟩ := roundHalfEven_grid large
  have exponent := grid_of_le large
  have bits : 53 ≤ n.log2 := (Nat.le_log2 (by omega)).mpr large
  calc 2 ^ 53
    _ = 2 ^ 52 * 2 ^ 1 := rfl
    _ ≤ 2 ^ 52 * 2 ^ grid n := Nat.mul_le_mul_left _ (Nat.pow_le_pow_right Nat.two_pos (by omega))
    _ ≤ Binary.rounded n := Nat.mul_le_mul_right _ lower

/-- What is rounded does not get past a small count. -/
theorem lt_rounded_iff {m : Nat} (small : m < 2 ^ 53) : m < Binary.rounded n ↔ m < n := by
  refine ⟨(isShort_of_lt small).lt_of_lt_rounded, fun above => ?_⟩
  rcases Nat.lt_or_ge n (2 ^ 53) with fits | large
  · exact (isShort_of_lt fits).rounded.symm ▸ above
  · exact Nat.lt_of_lt_of_le small (two_pow_le_rounded large)

/-- Of a count of 64 bits no more is lost than numbers stand apart there. -/
theorem le_rounded_add (low : n < 2 ^ 64) : n ≤ Binary.rounded n + 2 ^ 10 := by
  have near : n ≤ Binary.rounded n + 2 ^ grid n / 2 := le_roundHalfEven_mul (Nat.two_pow_pos _)
  have fine : grid n ≤ 11 := by
    rcases Nat.lt_or_ge n (2 ^ 53) with small | large
    · rw [grid_of_lt small]
      exact Nat.zero_le _
    · have bits := (Nat.log2_lt (by omega)).mpr low
      have exponent := grid_of_le large
      omega
  have apart : 2 ^ grid n ≤ 2 ^ 11 := Nat.pow_le_pow_right Nat.two_pos fine
  omega

end

/-! ## Magnitudes -/

section

open BinaryFormat

variable {n m : Nat}

theorem units_of_lt (small : m < 2 ^ 53) : double.units m = m := by
  have fraction : Nat.pow 2 double.fractionBits = 2 ^ 52 := rfl
  simp only [units, fraction]
  split
  · omega
  · have one : m / 2 ^ 52 - 1 = 0 := by omega
    have unit : Nat.pow 2 0 = 1 := rfl
    rw [one, unit]
    omega

theorem units_normal {e r : Nat} (short : r < 2 ^ 52) :
    double.units ((e + 1) * 2 ^ 52 + r) = (2 ^ 52 + r) * 2 ^ e := by
  have fraction : Nat.pow 2 double.fractionBits = 2 ^ 52 := rfl
  have exponent : ((e + 1) * 2 ^ 52 + r) / 2 ^ 52 = e + 1 := by omega
  have rest : ((e + 1) * 2 ^ 52 + r) % 2 ^ 52 = r := by omega
  simp only [units, fraction, exponent, rest, Nat.add_one_ne_zero, ↓reduceIte, Nat.add_sub_cancel]
  rfl

theorem units_eq_zero_iff : double.units m = 0 ↔ m = 0 := by
  rcases Nat.lt_or_ge m (2 ^ 53) with small | large
  · rw [units_of_lt small]
  · have split : m = (m / 2 ^ 52 - 1 + 1) * 2 ^ 52 + m % 2 ^ 52 := by omega
    rw [split, units_normal (by omega)]
    have pos := Nat.mul_pos (Nat.add_pos_left (Nat.two_pow_pos 52) (m % 2 ^ 52))
      (Nat.two_pow_pos (m / 2 ^ 52 - 1))
    omega

theorem units_lt_units_succ (m : Nat) : double.units m < double.units (m + 1) := by
  rcases Nat.lt_or_ge (m + 1) (2 ^ 53) with small | large
  · rw [units_of_lt small, units_of_lt (Nat.lt_of_succ_lt small)]
    exact Nat.lt_succ_self m
  · have split : m = (m / 2 ^ 52 - 1 + 1) * 2 ^ 52 + m % 2 ^ 52 := by omega
    have fraction : m % 2 ^ 52 < 2 ^ 52 := Nat.mod_lt _ (Nat.two_pow_pos 52)
    generalize m / 2 ^ 52 - 1 = e at split
    generalize m % 2 ^ 52 = r at split fraction
    subst split
    have pos := Nat.two_pow_pos e
    -- The last fraction of a binade is followed by the first of the next.
    rcases Nat.lt_or_eq_of_le (Nat.succ_le_of_lt fraction) with within | last
    · rw [Nat.add_assoc, units_normal fraction, units_normal within]
      exact Nat.mul_lt_mul_of_pos_right (by omega) pos
    · have next : (e + 1) * 2 ^ 52 + r + 1 = (e + 1 + 1) * 2 ^ 52 + 0 := by omega
      have twice : 2 ^ 52 * 2 ^ (e + 1) = 2 ^ 53 * 2 ^ e := by
        rw [← Nat.pow_add, ← Nat.pow_add, Nat.add_comm e, ← Nat.add_assoc]
      rw [next, units_normal fraction, units_normal (by decide), Nat.add_zero, twice]
      exact Nat.mul_lt_mul_of_pos_right (by omega) pos

/-- Larger magnitudes stand for larger counts. -/
theorem units_strictMono : StrictMono double.units := strictMono_nat_of_lt_succ units_lt_units_succ

theorem isShort_units (m : Nat) : IsShort (double.units m) := by
  rcases Nat.lt_or_ge m (2 ^ 53) with small | large
  · exact (units_of_lt small).symm ▸ isShort_of_lt small
  · have split : m = (m / 2 ^ 52 - 1 + 1) * 2 ^ 52 + m % 2 ^ 52 := by omega
    rw [split, units_normal (by omega)]
    exact ⟨_, _, rfl, by omega⟩

/-- The magnitude nearest to a count stands for the count when it is rounded, however large. -/
theorem units_grid (n : Nat) :
    double.units (grid n * 2 ^ 52 + roundHalfEven n (2 ^ grid n)) = rounded n := by
  rcases Nat.lt_or_ge n (2 ^ 53) with small | large
  · have same : roundHalfEven n (2 ^ 0) = n := by
      simpa using roundHalfEven_mul (k := n) Nat.one_pos
    rw [rounded, grid_of_lt small, same, Nat.zero_mul, Nat.zero_add, units_of_lt small]
    omega
  · obtain ⟨lower, upper⟩ := roundHalfEven_grid large
    rw [rounded]
    generalize roundHalfEven n (2 ^ grid n) = q at *
    generalize grid n = s at *
    -- A fraction that was carried goes on in the next binade.
    rcases Nat.lt_or_eq_of_le upper with within | rfl
    · have split : s * 2 ^ 52 + q = (s + 1) * 2 ^ 52 + (q - 2 ^ 52) := by omega
      have whole : 2 ^ 52 + (q - 2 ^ 52) = q := by omega
      rw [split, units_normal (by omega), whole]
    · have split : s * 2 ^ 52 + 2 ^ 53 = (s + 1 + 1) * 2 ^ 52 + 0 := by omega
      have twice : 2 ^ 52 * 2 ^ (s + 1) = 2 ^ 53 * 2 ^ s := by
        rw [← Nat.pow_add, ← Nat.pow_add, Nat.add_comm s, ← Nat.add_assoc]
      rw [split, units_normal (by decide), Nat.add_zero, twice]

/-- The exponent of the largest numbers as a power of two units. -/
@[irreducible]
def lastExponent : Nat := 2045

theorem infinity_eq : double.infinity = (lastExponent + 1 + 1) * 2 ^ 52 + 0 := by
  rw [lastExponent]
  rfl

/-- The count of units from which on there are no numbers. -/
def limit : Nat := double.units double.infinity

theorem limit_eq : limit = 2 ^ 52 * 2 ^ (lastExponent + 1) := by
  rw [limit, infinity_eq, units_normal (by decide), Nat.add_zero]

theorem units_lt_limit_iff : double.units m < limit ↔ m < double.infinity :=
  units_strictMono.lt_iff_lt

theorem rounded_lt_limit {e : Nat} (low : n < 2 ^ e) (within : e ≤ lastExponent) :
    rounded n < limit := by
  have near := rounded_le n
  have far : 2 ^ 52 * 2 ^ (e + 1) ≤ 2 ^ 52 * 2 ^ (lastExponent + 1) :=
    Nat.mul_le_mul_left _ (Nat.pow_le_pow_right Nat.two_pos (by omega))
  have pos := Nat.two_pow_pos e
  rw [Nat.pow_succ] at far
  rw [limit_eq]
  omega

theorem units_nearest (finite : rounded n < limit) :
    double.nearest n 1 < double.infinity ∧ double.units (double.nearest n 1) = rounded n := by
  have nearest : double.nearest n 1 =
      min double.infinity (grid n * 2 ^ 52 + roundHalfEven n (2 ^ grid n)) := by
    simp only [BinaryFormat.nearest, Nat.div_one, Nat.one_mul]
    rfl
  have below : grid n * 2 ^ 52 + roundHalfEven n (2 ^ grid n) < double.infinity := by
    rw [← units_lt_limit_iff, units_grid]
    exact finite
  rw [nearest, Nat.min_eq_right (Nat.le_of_lt below)]
  exact ⟨below, units_grid n⟩

end

/-! ## Signed counts -/

section

variable {z a : Int} {s : Bool} {m c : Nat}

/-- A count, which may be below zero, when it is rounded. -/
def nearby (z : Int) : Int := signed (decide (z < 0)) (rounded z.natAbs)

theorem nearby_eq_self (short : IsShort z.natAbs) : nearby z = z := by
  rw [nearby, short.rounded, signed]
  split <;> rename_i below <;> simp only [decide_eq_true_eq] at below <;> omega

theorem nearby_natCast (n : Nat) : nearby n = rounded n := by
  simp [nearby, signed]

theorem IsShort.nearby {n : Nat} (short : IsShort n) : Binary.nearby n = n := by
  rw [nearby_natCast, short.rounded]

theorem nearby_neg_iff : nearby z < 0 ↔ z < 0 := by
  rw [nearby, signed]
  split <;> rename_i below <;> simp only [decide_eq_true_eq] at below
  · have pos := rounded_pos (Int.natAbs_pos.mpr (Int.ne_of_lt below))
    omega
  · omega

theorem nearby_nonpos (nonpos : z ≤ 0) : nearby z ≤ 0 := by
  rcases Int.le_iff_lt_or_eq.mp nonpos with below | rfl
  · exact Int.le_of_lt (nearby_neg_iff.mpr below)
  · decide

theorem nearby_mono (le : z ≤ a) : nearby z ≤ nearby a := by
  rcases Int.lt_or_le z 0 with below | above
  · rcases Int.lt_or_le a 0 with below' | above'
    · have further := rounded_mono (n := a.natAbs) (m := z.natAbs) (by omega)
      simp only [nearby, signed, below, below', decide_true, ↓reduceIte]
      omega
    · have first := nearby_neg_iff.mpr below
      have second := nearby_neg_iff.not.mpr (Int.not_lt.mpr above')
      omega
  · have further := rounded_mono (n := z.natAbs) (m := a.natAbs) (by omega)
    have above' : ¬a < 0 := by omega
    simp only [nearby, signed, Int.not_lt.mpr above, above', decide_false, Bool.false_eq_true,
      ↓reduceIte]
    omega

theorem nearby_mul_two_pow (z : Int) (e : Nat) : nearby (z * 2 ^ e) = nearby z * 2 ^ e := by
  have pos : (0 : Int) < 2 ^ e := Int.pow_pos (by decide)
  have sign : z * 2 ^ e < 0 ↔ z < 0 := by
    rw [← Int.not_le, ← Int.not_le, Int.mul_nonneg_iff_of_pos_right pos]
  have abs : (z * 2 ^ e).natAbs = z.natAbs * 2 ^ e := by
    rw [Int.natAbs_mul, Int.natAbs_pow]
    rfl
  rw [nearby, nearby, abs, rounded_mul_two_pow, signed, signed]
  simp only [sign]
  split <;> push_cast <;> simp

theorem signed_rounded (same : signed s m = a) : signed s (rounded m) = nearby a := by
  have zero : rounded 0 = 0 := rfl
  subst same
  rcases Nat.eq_zero_or_pos m with rfl | pos
  · cases s <;> simp [signed, nearby, zero]
  · cases s <;> simp [signed, nearby, Nat.ne_of_gt pos]

theorem exists_of_signed_mul (same : signed s m = a * c) (pos : 0 < c) :
    ∃ k, m = k * c ∧ signed s k = a := by
  have some : (c : Int) ≠ 0 := by omega
  have size : m = a.natAbs * c := by
    have abs := congrArg Int.natAbs same
    rw [Int.natAbs_mul, Int.natAbs_natCast] at abs
    cases s <;> simpa [signed] using abs
  refine ⟨a.natAbs, size, Int.eq_of_mul_eq_mul_right some (same.symm.trans ?_).symm⟩
  cases s <;> simp [signed, size]

end

/-! ## Numbers as counts -/

variable {x y : Double} {a b : Int}

/-- Whether a number is finite and stands for a count of units. -/
structure Counts (x : Double) (z : Int) : Prop where
  finite : x.isFinite
  count : signed x.isNegative (BinaryFormat.double.units x.magnitude) = z

namespace Counts

theorem not_isNaN (counts : x.Counts a) : x.isNaN = false := by
  have finite := counts.finite
  simp only [isFinite, decide_eq_true_eq] at finite
  simp only [isNaN, decide_eq_false_iff_not]
  omega

theorem datum (counts : x.Counts a) : ∃ s m, x.datum = .finite s m ∧ signed s m = a :=
  ⟨_, _, by simp [Binary.datum, counts.not_isNaN, counts.finite], counts.count⟩

theorem natAbs_eq (counts : x.Counts a) : a.natAbs = BinaryFormat.double.units x.magnitude := by
  rw [← counts.count, signed]
  split <;> omega

theorem isShort (counts : x.Counts a) : IsShort a.natAbs :=
  counts.natAbs_eq.symm ▸ isShort_units _

theorem lt_limit (counts : x.Counts a) : a.natAbs < limit := by
  have finite := counts.finite
  simp only [isFinite, decide_eq_true_eq] at finite
  rw [counts.natAbs_eq]
  exact units_lt_limit_iff.mpr finite

theorem datum_of_pos {n : Nat} (counts : x.Counts n) (pos : 0 < n) : x.datum = .finite false n := by
  obtain ⟨s, m, same, count⟩ := counts.datum
  cases s with
  | false => rw [same, Int.ofNat_inj.mp count]
  | true =>
      simp only [signed, ↓reduceIte] at count
      omega

theorem ofMagnitude {s : Bool} {m : Nat} (finite : m < BinaryFormat.double.infinity) :
    Counts (Binary.ofMagnitude s m) (signed s (BinaryFormat.double.units m)) := by
  have low := Nat.lt_trans finite BinaryFormat.infinity_lt
  refine ⟨?_, by rw [isNegative_ofMagnitude low, magnitude_ofMagnitude low]⟩
  rw [isFinite, magnitude_ofMagnitude low]
  exact decide_eq_true finite

theorem ofUnits {s : Bool} {n d : Nat} (pos : 0 < d) (low : rounded n < limit) :
    Counts (Binary.ofUnits s (n * d) d) (signed s (rounded n)) := by
  obtain ⟨finite, units⟩ := units_nearest low
  rw [← units, Binary.ofUnits, BinaryFormat.nearest_mul pos]
  exact ofMagnitude finite

theorem neg (counts : x.Counts a) : x.neg.Counts (-a) := by
  have finite := counts.finite
  simp only [isFinite, decide_eq_true_eq] at finite
  have negated := ofMagnitude (s := !x.isNegative) finite
  rw [← counts.count]
  cases sign : x.isNegative <;> simpa [Binary.neg, sign, signed] using negated

theorem add (first : x.Counts a) (second : y.Counts b) (low : rounded (a + b).natAbs < limit) :
    (x.add y).Counts (nearby (a + b)) := by
  obtain ⟨s, m, one, rfl⟩ := first.datum
  obtain ⟨t, n, two, rfl⟩ := second.datum
  simp only [Binary.add, one, two]
  split
  · rename_i none
    have zero : signed (s && t) (BinaryFormat.double.units 0) =
        nearby (signed s m + signed t n) := by
      rw [none]
      cases s <;> cases t <;> rfl
    exact zero ▸ ofMagnitude (by decide)
  · have counts := ofUnits (s := decide (signed s m + signed t n < 0)) Nat.one_pos low
    rwa [Nat.mul_one] at counts

/-- A difference that is short enough is exact. -/
theorem sub_of_short (first : x.Counts a) (second : y.Counts b) (short : IsShort (a - b).natAbs)
    (low : (a - b).natAbs < limit) : (x.sub y).Counts (a - b) := by
  have difference := first.add second.neg (by
    rw [← Int.sub_eq_add_neg, short.rounded]
    exact low)
  rwa [← Int.sub_eq_add_neg, nearby_eq_self short] at difference

/-- A count without sign that is short enough is taken as it is. -/
theorem ofUnits_of_short {n d : Nat} (pos : 0 < d) (short : IsShort n) (low : n < limit) :
    Counts (Binary.ofUnits false (n * d) d) n := by
  have counts := ofUnits (s := false) pos (short.rounded.symm ▸ low)
  rwa [short.rounded] at counts

/-- Numbers are ordered as their counts are. -/
theorem rank_lt_iff (first : x.Counts a) (second : y.Counts b) : x.rank < y.rank ↔ a < b := by
  have order := units_strictMono.lt_iff_lt (a := x.magnitude) (b := y.magnitude)
  have reverse := units_strictMono.lt_iff_lt (a := y.magnitude) (b := x.magnitude)
  have none := units_eq_zero_iff (m := x.magnitude)
  have none' := units_eq_zero_iff (m := y.magnitude)
  have count := first.count
  have count' := second.count
  rw [rank, rank]
  cases sign : x.isNegative <;> cases sign' : y.isNegative <;>
    simp only [signed, sign, sign', Bool.false_eq_true, ↓reduceIte] at count count' ⊢ <;> omega

theorem compare?_eq (first : x.Counts a) (second : y.Counts b) :
    x.compare? y = some (compare x.rank y.rank) := by
  simp only [compare?, first.not_isNaN, second.not_isNaN, Bool.or_self, Bool.false_eq_true,
    ↓reduceIte]

theorem isAbove_iff (first : x.Counts a) (second : y.Counts b) : x.isAbove y ↔ b < a := by
  rw [isAbove, first.compare?_eq second, beq_iff_eq, Option.some.injEq, Int.compare_eq_gt,
    second.rank_lt_iff first]

theorem zero_counts : (zero : Double).Counts 0 := ofMagnitude (s := false) (by decide)

theorem isAbove_zero_iff (counts : x.Counts a) : x.isAbove zero ↔ 0 < a :=
  counts.isAbove_iff zero_counts

end Counts

/-! ## Single numbers -/

/-- By how many powers of two a double number counts finer than a single one. -/
@[irreducible]
def widening : Nat := 925

theorem unitsInOne_double :
    BinaryFormat.double.unitsInOne = 2 ^ widening * BinaryFormat.single.unitsInOne := by
  have exponent : widening + BinaryFormat.single.unitExponent =
      BinaryFormat.double.unitExponent := by
    rw [widening]
    rfl
  rw [BinaryFormat.unitsInOne, BinaryFormat.unitsInOne, Nat.pow_eq, Nat.pow_eq, ← Nat.pow_add,
    exponent]

theorem units_single {m : Nat} (finite : m < BinaryFormat.single.infinity) :
    ∃ k e, BinaryFormat.single.units m = k * 2 ^ e ∧ k < 2 ^ 24 ∧ e ≤ 253 := by
  have infinity : BinaryFormat.single.infinity = 255 * 2 ^ 23 := rfl
  have fraction : Nat.pow 2 BinaryFormat.single.fractionBits = 2 ^ 23 := rfl
  simp only [BinaryFormat.units, fraction]
  split
  · exact ⟨m % 2 ^ 23, 0, by simp, by omega, by omega⟩
  · exact ⟨2 ^ 23 + m % 2 ^ 23, m / 2 ^ 23 - 1, rfl, by omega, by omega⟩

/-- A single number goes through a double one unchanged. -/
theorem convert_single {x : Single} (finite : x.isFinite) :
    (x.convert : Double).isFinite ∧ (x.convert : Double).convert = x := by
  have own := finite
  rw [isFinite, decide_eq_true_eq] at own
  obtain ⟨k, e, units, short, low⟩ := units_single own
  have wide : IsShort (BinaryFormat.single.units x.magnitude * 2 ^ widening) := by
    rw [units]
    exact ((isShort_of_lt (Nat.lt_trans short (by decide))).mul e).mul widening
  have bound : BinaryFormat.single.units x.magnitude * 2 ^ widening <
      2 ^ (24 + e + widening) := by
    rw [units, Nat.pow_add, Nat.pow_add]
    have pos := Nat.two_pow_pos e
    exact Nat.mul_lt_mul_of_pos_right (Nat.mul_lt_mul_of_pos_right short pos) (Nat.two_pow_pos _)
  have within : 24 + e + widening ≤ lastExponent := by
    rw [widening, lastExponent]
    omega
  obtain ⟨below, same⟩ := units_nearest (rounded_lt_limit bound within)
  rw [wide.rounded] at same
  refine convert_convert finite below ?_
  rw [same, unitsInOne_double, Nat.mul_assoc]

end Binary

end SignalGraph
