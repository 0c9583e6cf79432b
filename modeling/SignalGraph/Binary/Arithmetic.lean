import SignalGraph.Binary.Basic

/-! # Arithmetic on binary floating-point numbers

Each operation takes the exact result and rounds it once. Conversion to integers cuts the fraction
off and stops at the ends of the integer range.
-/

namespace SignalGraph.Binary

variable {f : BinaryFormat}

/-- A finite number as a signed count of units. -/
def signed (negative : Bool) (units : Nat) : Int :=
  if negative then -(units : Int) else units

def neg (x : Binary f) : Binary f := ofMagnitude (!x.isNegative) x.magnitude

/-- The rounded sum. Opposite infinities have none, and an exact zero is negative only as the sum
    of two negative zeros. -/
def add (x y : Binary f) : Binary f :=
  match x.datum, y.datum with
  | .nan, _ | _, .nan => nan
  | .infinity s, .infinity t => if s = t then infinity s else nan
  | .infinity s, .finite _ _ | .finite _ _, .infinity s => infinity s
  | .finite s m, .finite t n =>
    let total := signed s m + signed t n
    if total = 0 then ofMagnitude (s && t) 0 else ofUnits (total < 0) total.natAbs 1

def sub (x y : Binary f) : Binary f := x.add y.neg

def mul (x y : Binary f) : Binary f :=
  match x.datum, y.datum with
  | .nan, _ | _, .nan => nan
  | .infinity s, .infinity t => infinity (s != t)
  | .infinity s, .finite t n | .finite t n, .infinity s => if n = 0 then nan else infinity (s != t)
  | .finite s m, .finite t n => ofUnits (s != t) (m * n) f.unitsInOne

def div (x y : Binary f) : Binary f :=
  match x.datum, y.datum with
  | .nan, _ | _, .nan => nan
  | .infinity _, .infinity _ => nan
  | .infinity s, .finite t _ => infinity (s != t)
  | .finite s _, .infinity t => ofMagnitude (s != t) 0
  | .finite s m, .finite t n =>
    if n = 0 then (if m = 0 then nan else infinity (s != t))
    else ofUnits (s != t) (m * f.unitsInOne) n

/-- The greatest integral number not above a finite one. -/
def floor (x : Binary f) : Binary f :=
  match x.datum with
  | .finite negative units =>
    let whole := units / f.unitsInOne
    let whole := if negative && units % f.unitsInOne != 0 then whole + 1 else whole
    ofUnits negative (whole * f.unitsInOne) 1
  | _ => x

/-- The integer part, stopped at `low` and `high`; zero for what is not a number. -/
def truncate (low high : Int) (x : Binary f) : Int :=
  match x.datum with
  | .nan => 0
  | .infinity negative => if negative then low else high
  | .finite negative units => max low (min high (signed negative (units / f.unitsInOne)))

def toInt32 (x : Binary f) : Int32 :=
  Int32.ofInt (x.truncate Int32.minValue.toInt Int32.maxValue.toInt)

def toInt64 (x : Binary f) : Int64 :=
  Int64.ofInt (x.truncate Int64.minValue.toInt Int64.maxValue.toInt)

def toUInt32 (x : Binary f) : UInt32 := UInt32.ofNat (x.truncate 0 (UInt32.size - 1)).toNat

end SignalGraph.Binary
