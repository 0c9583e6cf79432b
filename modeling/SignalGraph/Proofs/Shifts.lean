import SignalGraph.Proofs.Clock

/-! # Order of shifted times

A later time goes forth to no earlier one, and by a larger offset a time goes further, as long as
the seconds do not go past the last that there is. There they are stopped, and the fraction is not:
two times that both come to the last second are told apart by what is left of their fractions,
whichever went further.
-/

namespace SignalGraph

/-! ## Sums with a small part -/

namespace Binary

variable {x y : Double} {a b : Int}

/-- The count of units that a finite number stands for. -/
def count (x : Double) : Int := signed x.isNegative (BinaryFormat.double.units x.magnitude)

theorem counts_count (finite : x.isFinite) : x.Counts x.count := ⟨finite, rfl⟩

/-- The count of units of the largest number. -/
def largest : Nat := (2 ^ 53 - 1) * 2 ^ lastExponent

theorem largest_lt_limit : largest < limit := by
  have pos := Nat.two_pow_pos lastExponent
  rw [largest, limit_eq, Nat.pow_succ]
  omega

namespace Counts

theorem le_largest (counts : x.Counts a) : a.natAbs ≤ largest := by
  have finite := counts.finite
  simp only [isFinite, decide_eq_true_eq, infinity_eq] at finite
  have last : x.magnitude ≤ (lastExponent + 1) * 2 ^ 52 + (2 ^ 52 - 1) := by omega
  calc a.natAbs
    _ = BinaryFormat.double.units x.magnitude := counts.natAbs_eq
    _ ≤ BinaryFormat.double.units ((lastExponent + 1) * 2 ^ 52 + (2 ^ 52 - 1)) :=
      units_strictMono.monotone last
    _ = largest := units_normal (by decide)

/-- No sum goes beyond the largest number if one of its parts is small beside that. -/
theorem add_small (first : x.Counts a) (second : y.Counts b)
    (small : 2 * a.natAbs < 2 ^ lastExponent) : (x.add y).Counts (nearby (a + b)) := by
  refine first.add second ?_
  have within := second.le_largest
  calc rounded (a + b).natAbs
    _ ≤ rounded (largest + a.natAbs) := rounded_mono (by omega)
    _ = largest := rounded_add (by decide) (by decide) small
    _ < limit := largest_lt_limit

theorem isAbove_eq_false_iff (first : x.Counts a) (second : y.Counts b) :
    x.isAbove y = false ↔ a ≤ b := by
  rw [Bool.eq_false_iff, ne_eq, first.isAbove_iff second, Int.not_lt]

end Counts

end Binary

namespace Timetag

open Binary

variable {a b t : Timetag} {s s' : Double} {n m : Nat}

/-! ## Where shifts come to -/

/-- How many ticks a time and an offset come to, both the seconds of the time and the sum rounded as
    numbers are, before the seconds are stopped at the last that there is. -/
def reach (t : Timetag) (s : Double) : Nat :=
  (nearby (rounded t.ticks * tick + s.count)).toNat / tick

theorem ticks_small (t : Timetag) :
    2 * ((rounded t.ticks : Int) * tick).natAbs < 2 ^ lastExponent := by
  have low : 2 * rounded t.ticks < 2 ^ 67 := by
    have near := rounded_le t.ticks
    have bound := t.ticks_lt
    omega
  have wide : 67 + tickExponent ≤ lastExponent := by
    rw [tickExponent, lastExponent]
    decide
  rw [Int.natAbs_mul, Int.natAbs_natCast, Int.natAbs_natCast, ← Nat.mul_assoc]
  exact Nat.lt_of_lt_of_le (lt_two_pow_of_lt low) (Nat.pow_le_pow_right Nat.two_pos wide)

theorem ticks_shift_eq (t : Timetag) (finite : s.isFinite) :
    (t.shift s).ticks = saturated (t.reach s) :=
  ticks_ofSeconds (Counts.add_small t.seconds_isTicks (counts_count finite) t.ticks_small)

theorem reach_mono (earlier : a.ticks ≤ b.ticks) (less : s.count ≤ s'.count) :
    a.reach s ≤ b.reach s' := by
  have start : rounded a.ticks * tick ≤ rounded b.ticks * tick :=
    Nat.mul_le_mul_right _ (rounded_mono earlier)
  have sum : ((rounded a.ticks : Int) * tick) + s.count ≤ rounded b.ticks * tick + s'.count := by
    have start' : (rounded a.ticks : Int) * tick ≤ rounded b.ticks * tick := by exact_mod_cast start
    omega
  exact Nat.div_le_div_right (Int.toNat_le_toNat (nearby_mono sum))

/-- Of two counts of which the second is no less, the first comes later once both are stopped just
    if both come to the last second, the second is stopped there, and less than the fraction of the
    first is left of it. -/
theorem saturated_le_iff (le : n ≤ m) : saturated n ≤ saturated m ↔
    m < 2 ^ 64 ∨ n < (2 ^ 32 - 1) * 2 ^ 32 ∨ n % 2 ^ 32 ≤ m % 2 ^ 32 := by
  rw [saturated, saturated]
  omega

/-- Of two times, shifted by two offsets, the one that starts no later and is shifted by no more
    comes to no more ticks. It is no later then, unless the other is stopped at the last second, has
    a smaller fraction left there, and it comes to that second itself. -/
theorem shift_le_shift_iff (earlier : a ≤ b) (finite : s.isFinite) (finite' : s'.isFinite)
    (less : s.isAbove s' = false) :
    (a.shift s).ticks = saturated (a.reach s) ∧ (b.shift s').ticks = saturated (b.reach s') ∧
      a.reach s ≤ b.reach s' ∧
      (a.shift s ≤ b.shift s' ↔ b.reach s' < 2 ^ 64 ∨ a.reach s < (2 ^ 32 - 1) * 2 ^ 32 ∨
        a.reach s % 2 ^ 32 ≤ b.reach s' % 2 ^ 32) := by
  have counts := ((counts_count finite).isAbove_eq_false_iff (counts_count finite')).mp less
  have further := reach_mono earlier counts
  have first := a.ticks_shift_eq finite
  have second := b.ticks_shift_eq finite'
  refine ⟨first, second, further, ?_⟩
  rw [le_iff_ticks_le, first, second]
  exact saturated_le_iff further

/-- Half a second. -/
def half : Double := .ofQuotient false 1 2

/-- A quarter of a second into the last second, and half a second into it. -/
def lastQuarter : Timetag := ⟨4294967295, 1073741824⟩

def lastHalf : Timetag := ⟨4294967295, 2147483648⟩

/-- A whole second further is past the end, where half a second is left: still later than a quarter
    of a second into the last second. -/
theorem lastQuarter_shift :
    lastQuarter ≤ lastHalf ∧ (Binary.zero : Double).isFinite ∧ (Binary.ofInt 1 : Double).isFinite ∧
      Binary.zero.isAbove (Binary.ofInt 1 : Double) = false ∧
      2 ^ 64 ≤ lastHalf.reach (.ofInt 1) ∧ lastQuarter.shift .zero ≤ lastHalf.shift (.ofInt 1) := by
  have first : lastQuarter ≤ lastHalf := by decide
  have finite : (Binary.zero : Double).isFinite := by decide +kernel
  have finite' : (Binary.ofInt 1 : Double).isFinite := by decide +kernel
  have less : Binary.zero.isAbove (Binary.ofInt 1 : Double) = false := by decide +kernel
  refine ⟨first, finite, finite', less, by decide +kernel, ?_⟩
  exact (shift_le_shift_iff first finite finite' less).2.2.2.mpr (.inr (.inr (by decide +kernel)))

/-- Half a second into the last second, a time that stays where it is comes after the same time half
    a second further, and so does a time that was before it. -/
theorem lastHalf_shift :
    lastHalf.shift .zero = lastHalf ∧ lastHalf.shift half = ⟨4294967295, 0⟩ ∧
      half.isFinite ∧ Binary.zero.isAbove half = false ∧
      ¬lastHalf.shift .zero ≤ lastHalf.shift half ∧
      lastQuarter ≤ lastHalf ∧ ¬lastQuarter.shift half ≤ lastHalf.shift half := by
  refine ⟨?_, ?_, ?_, ?_, ?_, ?_, ?_⟩ <;> decide +kernel

end Timetag

end SignalGraph
