/-! # Binary floating-point numbers

A number is held as its bits in an interchange format: a sign, a biased exponent and a fraction.
A finite magnitude is counted in units of the smallest positive number of its format, so every
exact result is a natural number or a quotient of two, and one rounding to the nearest number, ties
to the even fraction, ends each operation.
-/

namespace SignalGraph

structure BinaryFormat where
  exponentBits : Nat
  fractionBits : Nat
  deriving Repr, DecidableEq

namespace BinaryFormat

def single : BinaryFormat := ⟨8, 23⟩

def double : BinaryFormat := ⟨11, 52⟩

def magnitudeBits (f : BinaryFormat) : Nat := f.exponentBits + f.fractionBits

/-- The magnitude bits of an infinity; larger ones are not numbers. -/
def infinity (f : BinaryFormat) : Nat := (Nat.pow 2 f.exponentBits - 1) * Nat.pow 2 f.fractionBits

/-- The smallest positive number is two to the minus this. -/
def unitExponent (f : BinaryFormat) : Nat := Nat.pow 2 (f.exponentBits - 1) - 2 + f.fractionBits

/-- How many of the smallest positive number make one. -/
def unitsInOne (f : BinaryFormat) : Nat := Nat.pow 2 f.unitExponent

/-- How many units a finite magnitude stands for. -/
def units (f : BinaryFormat) (magnitude : Nat) : Nat :=
  let exponent := magnitude / Nat.pow 2 f.fractionBits
  let fraction := magnitude % Nat.pow 2 f.fractionBits
  if exponent = 0 then fraction
  else (Nat.pow 2 f.fractionBits + fraction) * Nat.pow 2 (exponent - 1)

end BinaryFormat

/-- The integer nearest to `num / den`, the even one of two. -/
def roundHalfEven (num den : Nat) : Nat :=
  let q := num / den
  let r := 2 * (num % den)
  if r < den then q else if den < r then q + 1 else q + q % 2

namespace BinaryFormat

/-- The magnitude nearest to `num / den` units, the even one of two; infinity beyond the largest
    finite one. Below one binade above the smallest normal number the grid has unit spacing; from
    there on each binade doubles it, and a fraction that rounds up to a full binade carries into
    the exponent by itself. -/
def nearest (f : BinaryFormat) (num den : Nat) : Nat :=
  let whole := num / den
  let step := if whole < Nat.pow 2 (f.fractionBits + 1) then 0 else whole.log2 - f.fractionBits
  min f.infinity (step * Nat.pow 2 f.fractionBits + roundHalfEven num (den * Nat.pow 2 step))

end BinaryFormat

/-- A floating-point number of one format, by its bits. -/
structure Binary (f : BinaryFormat) where
  bits : BitVec (f.magnitudeBits + 1)
  deriving Repr, DecidableEq

abbrev Single := Binary .single

abbrev Double := Binary .double

inductive Datum where
  | nan
  | infinity (negative : Bool)
  /-- A finite number counted in units of the smallest positive one. -/
  | finite (negative : Bool) (units : Nat)
  deriving Repr, DecidableEq

namespace Binary

variable {f : BinaryFormat}

def ofMagnitude (negative : Bool) (magnitude : Nat) : Binary f :=
  ⟨BitVec.ofNat _ (magnitude + if negative then Nat.pow 2 f.magnitudeBits else 0)⟩

def isNegative (x : Binary f) : Bool := Nat.pow 2 f.magnitudeBits ≤ x.bits.toNat

def magnitude (x : Binary f) : Nat := x.bits.toNat % Nat.pow 2 f.magnitudeBits

def isNaN (x : Binary f) : Bool := f.infinity < x.magnitude

def isFinite (x : Binary f) : Bool := x.magnitude < f.infinity

def datum (x : Binary f) : Datum :=
  if x.isNaN then .nan
  else if x.isFinite then .finite x.isNegative (f.units x.magnitude)
  else .infinity x.isNegative

def nan : Binary f := ofMagnitude false (f.infinity + Nat.pow 2 (f.fractionBits - 1))

def infinity (negative : Bool) : Binary f := ofMagnitude negative f.infinity

def zero : Binary f := ofMagnitude false 0

def ofUnits (negative : Bool) (num den : Nat) : Binary f :=
  ofMagnitude negative (f.nearest num den)

def ofInt (z : Int) : Binary f := ofUnits (z < 0) (z.natAbs * f.unitsInOne) 1

def ofQuotient (negative : Bool) (num den : Nat) : Binary f :=
  ofUnits negative (num * f.unitsInOne) den

/-- The same number in another format, rounded where that is narrower. -/
def convert {g : BinaryFormat} (x : Binary f) : Binary g :=
  match x.datum with
  | .nan => nan
  | .infinity negative => infinity negative
  | .finite negative units => ofUnits negative (units * g.unitsInOne) f.unitsInOne

/-- A signed integer that orders the numbers; both zeros have the same. -/
def rank (x : Binary f) : Int := if x.isNegative then -(x.magnitude : Int) else x.magnitude

/-- The order of two numbers; none if one is not a number. -/
def compare? (x y : Binary f) : Option Ordering :=
  if x.isNaN || y.isNaN then none else some (compare x.rank y.rank)

/-- Equality of numbers: the zeros are equal, and what is not a number equals nothing. -/
def eqv (x y : Binary f) : Bool := !x.isNaN && !y.isNaN && x.rank == y.rank

def isAbove (x y : Binary f) : Bool := x.compare? y == some .gt

/-- Whether a number is other than zero; what is not a number is. -/
def isNonzero (x : Binary f) : Bool := x.magnitude != 0

end Binary

end SignalGraph
