/-! # Digits of natural numbers

Writing and reading natural numbers in a base up to sixteen, most significant digit first. Written
numbers have no leading zero; reading accepts leading zeros and both cases of a letter digit.
-/

namespace SignalGraph.Text

def digitChar (d : Nat) : Char :=
  if d < 10 then Char.ofNat (48 + d) else Char.ofNat (87 + d)

/-- The digits of `n` in base `base + 2`. -/
def digitsFrom (base n : Nat) : List Char :=
  if n < base + 2 then [digitChar n]
  else digitsFrom base (n / (base + 2)) ++ [digitChar (n % (base + 2))]
termination_by n
decreasing_by exact Nat.div_lt_self (by omega) (by omega)

def decimalDigits (n : Nat) : List Char := digitsFrom 8 n

def decimal (n : Nat) : String := String.ofList (decimalDigits n)

def hexDigits (n : Nat) : List Char := digitsFrom 14 n

/-- Hexadecimal with zeros in front up to `width` digits. -/
def hexPadded (width n : Nat) : List Char :=
  let ds := hexDigits n
  List.replicate (width - ds.length) '0' ++ ds

def decimalInt (z : Int) : List Char :=
  if z < 0 then '-' :: decimalDigits z.natAbs else decimalDigits z.natAbs

def decimalDigit? (c : Char) : Option Nat :=
  if '0' ≤ c ∧ c ≤ '9' then some (c.toNat - 48) else none

def hexDigit? (c : Char) : Option Nat :=
  if '0' ≤ c ∧ c ≤ '9' then some (c.toNat - 48)
  else if 'a' ≤ c ∧ c ≤ 'f' then some (c.toNat - 87)
  else if 'A' ≤ c ∧ c ≤ 'F' then some (c.toNat - 55)
  else none

def isDecimalDigit (c : Char) : Bool := (decimalDigit? c).isSome

/-- The digits at the front of a text, and what follows them. -/
def spanDigits (cs : List Char) : List Char × List Char :=
  (cs.takeWhile isDecimalDigit, cs.dropWhile isDecimalDigit)

/-- The value of a run of decimal digits, continuing from `acc`; other characters count as zero. -/
def decimalValue (acc : Nat) (ds : List Char) : Nat :=
  ds.foldl (fun v c => 10 * v + (decimalDigit? c).getD 0) acc

/-- Reads a nonempty run of decimal digits. -/
def readDecimal? (cs : List Char) : Option Nat :=
  if cs.isEmpty || !cs.all isDecimalDigit then none else some (decimalValue 0 cs)

/-- Reads an integer: an optional sign of either kind and at least one digit. -/
def readInt? : List Char → Option Int
  | '-' :: cs => (readDecimal? cs).map fun n => -(n : Int)
  | '+' :: cs => (readDecimal? cs).map fun n => (n : Int)
  | cs => (readDecimal? cs).map fun n => (n : Int)

end SignalGraph.Text
