import SignalGraph.Binary.Basic
import SignalGraph.Text.Digits

/-! # Shortest decimals

The decimal with the fewest digits that reads back as a given binary number. The reals that round
to the number form an interval, whose ends belong to it when the number's fraction is even. For one
digit, two digits and so on, the two neighbours of the number on that decimal grid are tried; the
first grid with a neighbour in the interval wins, and of two neighbours the nearer.
-/

namespace SignalGraph

structure Decimal where
  significand : Nat
  exponent : Int
  deriving Repr, DecidableEq

/-- Which of two equally near neighbours on a decimal grid is taken. -/
inductive DecimalTie where
  | toEven
  | upward
  deriving Repr, DecidableEq

namespace Decimal

/-- The number of decimal digits; none for zero. -/
def length (n : Nat) : Nat := if n = 0 then 0 else length (n / 10) + 1
termination_by n
decreasing_by omega

def trimmed (d : Decimal) : Decimal := go d.significand d.significand d.exponent
where
  go : Nat → Nat → Int → Decimal
  | 0, n, e => ⟨n, e⟩
  | fuel + 1, n, e => if n ≠ 0 ∧ n % 10 = 0 then go fuel (n / 10) (e + 1) else ⟨n, e⟩

/-- The exponent of the leading digit of `num / den`, which is not zero. -/
def leadingExponent (num den : Nat) : Int :=
  if den ≤ num then (length (num / den) : Int) - 1
  else -(length ((den + num - 1) / num - 1) : Int)

/-- The neighbour of a positive number on the grid of `10 ^ k` that is in the number's interval. -/
def neighbour? (f : BinaryFormat) (tie : DecimalTie) (magnitude : Nat) (k : Int) : Option Decimal :=
  let units := f.units magnitude
  let low := units + f.units (magnitude - 1)
  let high := units + f.units (magnitude + 1)
  let num := Nat.pow 10 k.toNat * f.unitsInOne
  let den := Nat.pow 10 (-k).toNat
  let contains (c : Nat) : Bool :=
    if magnitude % 2 = 0 then low * den ≤ 2 * c * num && 2 * c * num ≤ high * den
    else low * den < 2 * c * num && 2 * c * num < high * den
  let below := units * den / num
  let rest := 2 * (units * den % num)
  let above := below + 1
  match contains below, contains above with
  | false, false => none
  | true, false => some ⟨below, k⟩
  | false, true => some ⟨above, k⟩
  | true, true =>
    if rest < num then some ⟨below, k⟩
    else if num < rest then some ⟨above, k⟩
    else match tie with
      | .upward => some ⟨above, k⟩
      | .toEven => some ⟨if below % 2 = 0 then below else above, k⟩

/-- Tries the grids from `digits` digits on, `more` of them. -/
def firstNeighbour (f : BinaryFormat) (tie : DecimalTie) (magnitude : Nat) (leading : Int) :
    Nat → Nat → Decimal
  | digits, 0 =>
    let k := leading - digits
    ⟨roundHalfEven (f.units magnitude * Nat.pow 10 (-k).toNat)
      (Nat.pow 10 k.toNat * f.unitsInOne), k⟩
  | digits, more + 1 =>
    match neighbour? f tie magnitude (leading - digits) with
    | some d => d
    | none => firstNeighbour f tie magnitude leading (digits + 1) more

/-- The shortest decimal for a positive finite magnitude. Seventeen digits tell all 64-bit numbers
    apart, and fewer do for narrower formats. -/
def shortest (f : BinaryFormat) (tie : DecimalTie) (magnitude : Nat) : Decimal :=
  let leading := leadingExponent (f.units magnitude) f.unitsInOne
  (firstNeighbour f tie magnitude leading 0 17).trimmed

end Decimal

end SignalGraph
