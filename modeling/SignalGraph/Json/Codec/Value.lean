import SignalGraph.Json.Codec
import SignalGraph.Property.Table

/-! # Documents of values and properties

A value is its kind and, unless it is null, the list of its elements. Keys and words of a
vocabulary are their texts.
-/

namespace SignalGraph

instance : Tagged Kind where
  all := [.null, .bool, .int32, .int64, .float32, .float64, .string, .time]
  tag
    | .null => "Null"
    | .bool => "Bool"
    | .int32 => "Int32"
    | .int64 => "Int64"
    | .float32 => "Float32"
    | .float64 => "Float64"
    | .string => "String"
    | .time => "Time"

instance : Codec Timetag where
  encode t := .object [("sec", encode t.sec), ("frac", encode t.frac)]
  decode j := do
    let [sec, frac] ← j.fields? ["sec", "frac"] 2 | none
    return ⟨← Json.required sec, ← Json.required frac⟩

/-- The elements of a payload of a kind. Null needs none, and takes only null for them. -/
def Payload.decodeElements (kind : Kind) (elements : Option Json) : Option Payload :=
  match kind with
  | .null =>
    match elements with
    | none | some .null => some .null
    | some _ => none
  | .bool => .bool <$> Json.required elements
  | .int32 => .int32 <$> Json.required elements
  | .int64 => .int64 <$> Json.required elements
  | .float32 => .float32 <$> Json.required elements
  | .float64 => .float64 <$> Json.required elements
  | .string => .string <$> Json.required elements
  | .time => .time <$> Json.required elements

/-- The elements of a payload as a document, if it is not null. -/
def Payload.encodeElements? : Payload → Option Json
  | .null => none
  | .bool xs => some (encode xs)
  | .int32 xs => some (encode xs)
  | .int64 xs => some (encode xs)
  | .float32 xs => some (encode xs)
  | .float64 xs => some (encode xs)
  | .string xs => some (encode xs)
  | .time xs => some (encode xs)

/-- Elements that come before their kind are read without knowing what they are, so all their
    parts must have a value, members that nobody asks for included. -/
instance : Codec Payload where
  encode p := .object
    (("type", encode p.kind) :: p.encodeElements?.toList.map fun j => ("value", j))
  decode j := do
    let [kind, elements] ← j.fields? ["type", "value"] 2 | none
    guard (j.firstName? ["type", "value"] ≠ some "value" ∨ elements.all Json.isWhole)
    Payload.decodeElements (← Json.required kind) elements

instance : Codec Value where
  encode v := encode v.payload
  decode j := (decode j).bind fun p => (Value.ofPayload p).toOption

/-! ## Properties -/

def capitalized (s : String) : String :=
  "".intercalate ((s.splitOn "_").map fun word =>
    match word.toList with
    | c :: cs => String.ofList (c.toUpper :: cs)
    | [] => "")

/-- A well-known property alone is named by the words of its text. -/
instance : Tagged Property where
  all := Property.all
  tag p := capitalized (Property.bareName p.text)

instance : Codec Key where
  encode key := .string key.text
  decode
    | .string s => some (.ofText s)
    | _ => none

def Vocabulary.decode? {α : Type} [Vocabulary α] : Json → Option α
  | .string s => Vocabulary.ofText? s
  | _ => none

instance (priority := low) {α : Type} [Vocabulary α] : Codec α where
  encode w := .string (Vocabulary.text w)
  decode := Vocabulary.decode?

instance : Codec Change where
  encode
    | .set key v => .object [("Set", .array [encode key, encode v])]
    | .remove key => .object [("Remove", encode key)]
  decode j :=
    match j.case? with
    | some ("Set", some (.array [key, v])) => do return .set (← decode key) (← decode v)
    | some ("Remove", some key) => do return .remove (← decode key)
    | _ => none

instance : Codec Diff where
  encode d := .object [("changes", encode d.changes)]
  decode j := do
    let [changes] ← j.fields? ["changes"] 1 | none
    return ⟨← Json.required changes⟩

instance : Codec TableEntry where
  encode e := .object
    [("key", encode e.key), ("committed", encode e.committed), ("staged", encode e.staged),
     ("removed", encode e.removed)]
  decode j := do
    let [key, committed, staged, removed] ←
      j.fields? ["key", "committed", "staged", "removed"] 3 | none
    return ⟨← Json.required key, ← Json.optional committed, ← Json.optional staged,
      ← Json.withDefault false removed⟩

instance : Codec Table where
  encode t := .object [("entries", encode t.entries)]
  decode j := do
    let [entries] ← j.fields? ["entries"] 1 | none
    return ⟨← Json.required entries⟩

end SignalGraph
