import SignalGraph.Json.Basic
import SignalGraph.Text.Digits

/-! # Reading documents

The tree of a JSON text. Integers that fit 64 bits are kept as they are. For any other number the
digits are gathered while they fit 64 bits, and the number is that integer, rounded, times or over
a rounded power of ten; so the last bit may differ from the nearest number. A text is checked to
its end at any depth, but collections nested too deep have no value.
-/

namespace SignalGraph.Json

def skipBlanks (cs : List Char) : List Char :=
  cs.dropWhile fun c => c = ' ' ∨ c = '\t' ∨ c = '\n' ∨ c = '\r'

/-! ## Numbers -/

/-- Digits of a number, as far as they fit 64 bits. -/
structure Gathered where
  significand : Nat
  exponent : Int
  /-- Whether a digit did not fit, so that no more are taken. -/
  full : Bool

namespace Gathered

def fits (g : Gathered) (digit : Nat) : Bool := !g.full && 10 * g.significand + digit < UInt64.size

/-- Takes a digit before the point; one that does not fit counts as a zero. -/
def whole (g : Gathered) (digit : Nat) : Gathered :=
  if g.fits digit then { g with significand := 10 * g.significand + digit }
  else { g with exponent := g.exponent + 1, full := true }

/-- Takes a digit behind the point; one that does not fit is dropped. -/
def fraction (g : Gathered) (digit : Nat) : Gathered :=
  if g.fits digit then ⟨10 * g.significand + digit, g.exponent - 1, false⟩
  else { g with full := true }

/-- The digits before and behind the point; behind it gathering starts anew. -/
def ofDigits (whole fraction : List Char) : Gathered :=
  let take (f : Gathered → Nat → Gathered) (g : Gathered) (cs : List Char) : Gathered :=
    cs.foldl (fun g c => f g ((Text.decimalDigit? c).getD 0)) g
  take Gathered.fraction { take Gathered.whole ⟨0, 0, false⟩ whole with full := false } fraction

end Gathered

def powerOfTen (k : Nat) : Double := .ofQuotient false (Nat.pow 10 k) 1

/-- A number over a power of ten, which is taken in steps if it is beyond all numbers. -/
def overPowerOfTen (x : Double) (k : Nat) : Double :=
  if k ≤ 308 then x.div (powerOfTen k)
  else if !x.isNonzero then x
  else overPowerOfTen (x.div (powerOfTen 308)) (k - 308)
termination_by k
decreasing_by omega

/-- A significand times a power of ten, unless it is beyond all numbers. -/
def scale (significand : Nat) (exponent : Int) : Option Double :=
  let x : Double := .ofInt significand
  if exponent < 0 then some (overPowerOfTen x exponent.natAbs)
  else if significand = 0 then some x
  else if 308 < exponent then none
  else some (x.mul (powerOfTen exponent.natAbs)) |>.filter Binary.isFinite

/-- A number from its parts; one without point and exponent is an integer if it fits. -/
def ofNumeral (negative : Bool) (whole : List Char) (fraction : Option (List Char))
    (exponent : Option Int) : Json :=
  let n := Text.decimalValue 0 whole
  if fraction.isNone ∧ exponent.isNone ∧ !negative ∧ n < UInt64.size then integer n
  else if fraction.isNone ∧ exponent.isNone ∧ negative ∧ n ≠ 0 ∧ n ≤ UInt64.size / 2 then
    integer (-n)
  else
    let g := Gathered.ofDigits whole (fraction.getD [])
    match scale g.significand (g.exponent + exponent.getD 0) with
    | some x => double (if negative then x.neg else x)
    | none => valueless

def readFraction? : List Char → Option (Option (List Char) × List Char)
  | '.' :: cs =>
    match Text.spanDigits cs with
    | ([], _) => none
    | (ds, rest) => some (some ds, rest)
  | cs => some (none, cs)

def readExponent? (cs : List Char) : Option (Option Int × List Char) :=
  let digits (negative : Bool) (cs : List Char) : Option (Option Int × List Char) :=
    match Text.spanDigits cs with
    | ([], _) => none
    | (ds, rest) =>
      let n : Int := Text.decimalValue 0 ds
      some (some (if negative then -n else n), rest)
  match cs with
  | c :: '-' :: rest => if c = 'e' ∨ c = 'E' then digits true rest else some (none, cs)
  | c :: '+' :: rest => if c = 'e' ∨ c = 'E' then digits false rest else some (none, cs)
  | c :: rest => if c = 'e' ∨ c = 'E' then digits false rest else some (none, cs)
  | [] => some (none, cs)

/-- Reads a number behind its sign. A zero in front stands alone. -/
def readNumber? (negative : Bool) (cs : List Char) : Option (Json × List Char) := do
  let (whole, rest) ← match Text.spanDigits cs with
    | ([], _) | ('0' :: _ :: _, _) => none
    | parts => some parts
  let (fraction, rest) ← readFraction? rest
  let (exponent, rest) ← readExponent? rest
  return (ofNumeral negative whole fraction exponent, rest)

/-! ## Strings -/

/-- The character that stands for another behind a backslash. -/
def shortEscape? : Char → Option Char
  | '"' => some '"'
  | '\\' => some '\\'
  | '/' => some '/'
  | 'b' => some '\x08'
  | 'f' => some '\x0c'
  | 'n' => some '\n'
  | 'r' => some '\r'
  | 't' => some '\t'
  | _ => none

def readUnit? : List Char → Option (Nat × List Char)
  | a :: b :: c :: d :: rest => do
    let a ← Text.hexDigit? a
    let b ← Text.hexDigit? b
    let c ← Text.hexDigit? c
    let d ← Text.hexDigit? d
    return (((a * 16 + b) * 16 + c) * 16 + d, rest)
  | _ => none

/-- Reads the escape of the second half of a character outside the basic plane. -/
def readLowHalf? : List Char → Option (Nat × List Char)
  | '\\' :: 'u' :: rest => (readUnit? rest).filter fun (n, _) => 0xdc00 ≤ n && n ≤ 0xdfff
  | _ => none

/-- Reads what follows a backslash and a `u`. A half of a character alone is none. -/
def readNumbered? (cs : List Char) : Option (Option Char × List Char) := do
  let (n, rest) ← readUnit? cs
  if n < 0xd800 ∨ 0xdfff < n then return (some (Char.ofNat n), rest)
  if 0xdc00 ≤ n then return (none, rest)
  match readLowHalf? rest with
  | some (low, rest) =>
    return (some (Char.ofNat (0x10000 + (n - 0xd800) * 0x400 + (low - 0xdc00))), rest)
  | none => return (none, rest)

/-- Reads one character of a string, which is none for half of one. -/
def readChar? : List Char → Option (Option Char × List Char)
  | '\\' :: 'u' :: rest => readNumbered? rest
  | '\\' :: c :: rest => (shortEscape? c).map fun e => (some e, rest)
  | c :: rest => if c = '\\' ∨ c.toNat < 0x20 then none else some (some c, rest)
  | [] => none

/-- Reads a string behind its opening quote, which has no value if a character in it has none. -/
def readString? : Nat → List Char → Option (Option (List Char) × List Char)
  | _, '"' :: rest => some (some [], rest)
  | 0, _ => none
  | fuel + 1, cs => do
    let (c, rest) ← readChar? cs
    let (s, rest) ← readString? fuel rest
    return (do return (← c) :: (← s), rest)

/-! ## Collections -/

def expect? : List Char → List Char → Option (List Char)
  | [], cs => some cs
  | w :: ws, c :: cs => if w = c then expect? ws cs else none
  | _ :: _, [] => none

/-- The object with the given members, which has no value if a name in it has none. -/
def ofMembers (members : List (Option String × Json)) : Json :=
  match members.mapM fun (name, value) => name.map fun name => (name, value) with
  | some members => object members
  | none => valueless

/-- How many collections may stand one in the other and all have a value. -/
def deepest : Nat := 127

/-- A collection inside `depth` others, which has no value if those are too many. -/
def nested (depth : Nat) (collection : Json) : Json :=
  if depth < deepest then collection else valueless

mutual

/-- Reads a document behind blanks, inside `depth` collections. Every step but the one into a
    collection takes a character, so twice the length of the text bounds the steps. -/
def readValue? (fuel depth : Nat) (cs : List Char) : Option (Json × List Char) :=
  match fuel, skipBlanks cs with
  | 0, _ => none
  | _ + 1, 'n' :: rest => (expect? ['u', 'l', 'l'] rest).map fun rest => (null, rest)
  | _ + 1, 't' :: rest => (expect? ['r', 'u', 'e'] rest).map fun rest => (bool true, rest)
  | _ + 1, 'f' :: rest => (expect? ['a', 'l', 's', 'e'] rest).map fun rest => (bool false, rest)
  | _ + 1, '"' :: rest =>
    (readString? rest.length rest).map fun (s, rest) =>
      ((s.map fun s => string (String.ofList s)).getD valueless, rest)
  | fuel + 1, '[' :: rest =>
    match skipBlanks rest with
    | ']' :: rest => some (nested depth (array []), rest)
    | rest => (readItems? fuel (depth + 1) rest).map fun (items, rest) =>
      (nested depth (array items), rest)
  | fuel + 1, '\x7b' :: rest =>
    match skipBlanks rest with
    | '\x7d' :: rest => some (nested depth (object []), rest)
    | rest => (readMembers? fuel (depth + 1) rest).map fun (members, rest) =>
      (nested depth (ofMembers members), rest)
  | _ + 1, '-' :: rest => readNumber? true rest
  | _ + 1, rest => readNumber? false rest

def readItems? : Nat → Nat → List Char → Option (List Json × List Char)
  | 0, _, _ => none
  | fuel + 1, depth, cs => do
    let (item, rest) ← readValue? fuel depth cs
    match skipBlanks rest with
    | ',' :: rest =>
      let (items, rest) ← readItems? fuel depth rest
      return (item :: items, rest)
    | ']' :: rest => return ([item], rest)
    | _ => none

def readMembers? : Nat → Nat → List Char → Option (List (Option String × Json) × List Char)
  | 0, _, _ => none
  | fuel + 1, depth, cs => do
    let '"' :: rest := skipBlanks cs | none
    let (name, rest) ← readString? rest.length rest
    let ':' :: rest := skipBlanks rest | none
    let (value, rest) ← readValue? fuel depth rest
    let member := (name.map String.ofList, value)
    match skipBlanks rest with
    | ',' :: rest =>
      let (members, rest) ← readMembers? fuel depth rest
      return (member :: members, rest)
    | '\x7d' :: rest => return ([member], rest)
    | _ => none

end

/-- The document that a text is, with blanks around it. -/
def read? (text : String) : Option Json := do
  let cs := text.toList
  let (j, rest) ← readValue? (2 * cs.length + 1) 0 cs
  if (skipBlanks rest).isEmpty then some j else none

end SignalGraph.Json
