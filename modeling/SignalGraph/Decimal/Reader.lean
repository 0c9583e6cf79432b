import SignalGraph.Decimal.Shortest

/-! # Reading decimals

Decimal text as a binary number. The text is a sign, and either digits with an optional point and
exponent or a word for infinity or for what is not a number; the exact value is rounded once.
-/

namespace SignalGraph

/-- The number nearest to a signed decimal. Decimals far outside the format's range are settled by
    their exponent alone, so no power of ten is computed for them. -/
def Binary.ofDecimal {f : BinaryFormat} (negative : Bool) (d : Decimal) : Binary f :=
  let top : Int := Decimal.length d.significand + d.exponent
  if d.significand = 0 ∨ top < -(f.unitExponent : Int) then ofMagnitude negative 0
  else if (f.unitExponent : Int) + 1 < top then infinity negative
  else ofQuotient negative (d.significand * Nat.pow 10 d.exponent.toNat)
    (Nat.pow 10 (-d.exponent).toNat)

namespace Decimal

def readExponent? : List Char → Option Int
  | [] => some 0
  | c :: cs => if c = 'e' ∨ c = 'E' then Text.readInt? cs else none

/-- Reads digits with an optional point, of which there is at least one, and an optional
    exponent. -/
def read? (cs : List Char) : Option Decimal :=
  let (whole, rest) := Text.spanDigits cs
  let (fraction, rest) := match rest with
    | '.' :: rest => Text.spanDigits rest
    | rest => ([], rest)
  if whole.isEmpty && fraction.isEmpty then none
  else (readExponent? rest).map fun e =>
    ⟨Text.decimalValue (Text.decimalValue 0 whole) fraction, e - fraction.length⟩

end Decimal

/-- Reads an unsigned number: a decimal, or a word in any case. -/
def Binary.readUnsigned? {f : BinaryFormat} (negative : Bool) (cs : List Char) :
    Option (Binary f) :=
  let word := cs.map Char.toLower
  if word = ['n', 'a', 'n'] then some nan
  else if word = ['i', 'n', 'f'] ∨ word = ['i', 'n', 'f', 'i', 'n', 'i', 't', 'y'] then
    some (infinity negative)
  else (Decimal.read? cs).map (ofDecimal negative)

def Binary.read? {f : BinaryFormat} : List Char → Option (Binary f)
  | '-' :: cs => readUnsigned? true cs
  | '+' :: cs => readUnsigned? false cs
  | cs => readUnsigned? false cs

end SignalGraph
