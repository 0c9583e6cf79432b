import SignalGraph.Decimal.Shortest

/-! # Layout of decimals

How the shortest decimal of a number is spelt: positionally or with an exponent, and with or
without a point after a whole number. The two layouts of the library stand at the end.
-/

namespace SignalGraph

structure DecimalLayout where
  /-- The scientific exponents that are written positionally; all of them if none is given. -/
  positional : Option (Int × Int)
  /-- Whether a whole number written positionally ends in `.0`. -/
  wholePoint : Bool
  tie : DecimalTie
  deriving Repr, DecidableEq

namespace DecimalLayout

/-- Digits with a point where it belongs, after zeros that fill up to it. -/
def positionalText (l : DecimalLayout) (digits : List Char) (exponent : Int) : List Char :=
  let whole := (digits.length : Int) + exponent
  if whole ≤ 0 then '0' :: '.' :: (List.replicate (-whole).toNat '0' ++ digits)
  else if exponent < 0 then digits.take whole.toNat ++ '.' :: digits.drop whole.toNat
  else digits ++ List.replicate exponent.toNat '0' ++ (if l.wholePoint then ['.', '0'] else [])

def scientificText (digits : List Char) (scientific : Int) : List Char :=
  let mantissa := match digits with
    | d :: ds@(_ :: _) => d :: '.' :: ds
    | ds => ds
  mantissa ++ 'e' :: (if scientific < 0 then '-' else '+') :: Text.decimalDigits scientific.natAbs

def decimalText (l : DecimalLayout) (d : Decimal) : List Char :=
  let digits := Text.decimalDigits d.significand
  let scientific := (digits.length : Int) - 1 + d.exponent
  match l.positional with
  | some (low, high) =>
    if low ≤ scientific ∧ scientific ≤ high then l.positionalText digits d.exponent
    else scientificText digits scientific
  | none => l.positionalText digits d.exponent

/-- The text of a number. Zero keeps its sign, and what is not a number has none. -/
def text {f : BinaryFormat} (l : DecimalLayout) (x : Binary f) : List Char :=
  let body :=
    if x.isNaN then ['N', 'a', 'N']
    else if !x.isFinite then ['i', 'n', 'f']
    else if x.magnitude = 0 then l.positionalText ['0'] 0
    else l.decimalText (.shortest f l.tie x.magnitude)
  if x.isNegative && !x.isNaN then '-' :: body else body

/-- Numbers in running text never have an exponent, and whole ones no point. -/
def plain : DecimalLayout := ⟨none, false, .upward⟩

/-- Numbers in documents always have a point or an exponent; 64-bit ones have an exponent below
    `1e-5` and from `1e16` on. -/
def document : DecimalLayout := ⟨some (-5, 15), true, .toEven⟩

/-- The document layout of 32-bit numbers, with an exponent below `1e-6` and from `1e13` on. -/
def documentSingle : DecimalLayout := ⟨some (-6, 12), true, .toEven⟩

end DecimalLayout

end SignalGraph
