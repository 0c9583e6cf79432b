import SignalGraph.Json.Basic

/-! # Codecs

The document form of a type: how its members are written, and which documents are read as one.
Records are objects; reading one ignores unknown members, refuses a member given twice, and also
takes a list of the members' values in order. A case of a type with several is its name if it holds
nothing, else an object with that name as its one member.
-/

namespace SignalGraph

class Codec (α : Type) where
  encode : α → Json
  decode : Json → Option α

export Codec (encode decode)

/-- A type whose members are names in documents. -/
class Tagged (α : Type) where
  all : List α
  tag : α → String

def Tagged.ofTag? {α : Type} [Tagged α] (s : String) : Option α :=
  (all (α := α)).find? fun a => tag a == s

namespace Json

/-- A case of a type: its name, and what it holds. -/
def case? : Json → Option (String × Option Json)
  | string s => some (s, none)
  | object [(s, content)] => some (s, some content)
  | _ => none

/-- The name of a case that holds nothing, with or without saying so. -/
def unitCase? (j : Json) : Option String :=
  match j.case? with
  | some (s, none) | some (s, some null) => some s
  | _ => none

/-- The values of the members of a record; `leading` is how many of them a list must give. -/
def fields? (names : List String) (leading : Nat) : Json → Option (List (Option Json))
  | object members =>
    let known := (members.map Prod.fst).filter names.contains
    if known.eraseDups.length = known.length then
      some (names.map fun name => List.lookup name members)
    else none
  | array items =>
    if leading ≤ items.length ∧ items.length ≤ names.length then
      some ((items.map some) ++ List.replicate (names.length - items.length) none)
    else none
  | _ => none

/-- The first of some names that a record has a member of. -/
def firstName? (names : List String) : Json → Option String
  | object members => (members.map Prod.fst).find? names.contains
  | _ => none

def required {α : Type} [Codec α] (j : Option Json) : Option α := j.bind decode

/-- A member that stands for a default if it is not there. -/
def withDefault {α : Type} [Codec α] (value : α) : Option Json → Option α
  | some j => decode j
  | none => some value

def integerIn? (low high : Int) : Json → Option Int
  | integer n => if low ≤ n ∧ n ≤ high then some n else none
  | _ => none

/-- A natural number below 2^64, as counts are in documents. -/
def count? (j : Json) : Option Nat := (j.integerIn? 0 (UInt64.size - 1)).map Int.toNat

end Json

/-! ## Basic types -/

instance : Codec Bool where
  encode := .bool
  decode
    | .bool b => some b
    | _ => none

instance : Codec String where
  encode := .string
  decode
    | .string s => some s
    | _ => none

instance : Codec Int32 where
  encode n := .integer n.toInt
  decode j := (j.integerIn? Int32.minValue.toInt Int32.maxValue.toInt).map Int32.ofInt

instance : Codec Int64 where
  encode n := .integer n.toInt
  decode j := (j.integerIn? Int64.minValue.toInt Int64.maxValue.toInt).map Int64.ofInt

instance : Codec UInt32 where
  encode n := .integer n.toNat
  decode j := (j.integerIn? 0 (UInt32.size - 1)).map fun n => UInt32.ofNat n.toNat

instance : Codec UInt64 where
  encode n := .integer n.toNat
  decode j := j.count?.map UInt64.ofNat

/-- A natural number in documents is a count. -/
instance : Codec Nat where
  encode n := .integer n
  decode := Json.count?

instance : Codec Double where
  encode := .ofDouble
  decode
    | .integer n => some (.ofInt n)
    | .double x => some x
    | .single x => some x.convert
    | _ => none

instance : Codec Single where
  encode := .ofSingle
  decode
    | .integer n => some (.ofInt n)
    | .double x => some x.convert
    | .single x => some x
    | _ => none

instance {α : Type} [Codec α] : Codec (Option α) where
  encode
    | some a => encode a
    | none => .null
  decode
    | .null => some none
    | j => (decode j).map some

def Json.optional {α : Type} [Codec α] (j : Option Json) : Option (Option α) :=
  Json.withDefault none j

instance {α : Type} [Codec α] : Codec (List α) where
  encode as := .array (as.map encode)
  decode
    | .array items => items.mapM decode
    | _ => none

/-- Types of names are written as these, and read from a case that holds nothing. -/
instance (priority := low) {α : Type} [Tagged α] : Codec α where
  encode a := .string (Tagged.tag a)
  decode j := j.unitCase?.bind Tagged.ofTag?

end SignalGraph
