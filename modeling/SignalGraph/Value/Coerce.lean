import SignalGraph.Decimal.Layout
import SignalGraph.Decimal.Reader
import SignalGraph.Text.Blank
import SignalGraph.Value.Basic

/-! # Coercion of values

A value as one of another kind, element by element. Numbers are narrowed toward zero and wrapped or
stopped at the ends of the integer range, truth is being other than zero, texts are read and
written as decimals, and times are exchanged with fractional numbers only.
-/

namespace SignalGraph

namespace Scalar

def refuse {α : Type} (s : Scalar) (target : Kind) : Except Error α :=
  .error (.mismatch (.kind target s.kind))

/-- A text as an element, or the refusal to read it as one. -/
def orUnreadable {α : Type} (text : String) (target : Kind) :
    Option α → Except Error α
  | some x => .ok x
  | none => .error (.unreadable text (.element target))

/-- Reads an integer between two bounds, with blanks around it. -/
def readBounded? (low high : Int) (text : String) : Option Int :=
  (Text.readInt? (Text.trim text.toList)).filter fun n => low ≤ n && n ≤ high

/-- Reads a number with blanks around it. -/
def readBinary? {f : BinaryFormat} (text : String) : Option (Binary f) :=
  Binary.read? (Text.trim text.toList)

def toBool : Scalar → Except Error Bool
  | bool b => .ok b
  | int32 n => .ok (n != 0)
  | int64 n => .ok (n != 0)
  | float32 x => .ok x.isNonzero
  | float64 x => .ok x.isNonzero
  | string "true" => .ok true
  | string "false" => .ok false
  | string s => orUnreadable s .bool none
  | e@(time _) => refuse e .bool

def toInt32 : Scalar → Except Error Int32
  | bool b => .ok (if b then 1 else 0)
  | int32 n => .ok n
  | int64 n => .ok n.toInt32
  | float32 x => .ok x.toInt32
  | float64 x => .ok x.toInt32
  | string s =>
    orUnreadable s .int32
      ((readBounded? Int32.minValue.toInt Int32.maxValue.toInt s).map Int32.ofInt)
  | e@(time _) => refuse e .int32

def toInt64 : Scalar → Except Error Int64
  | bool b => .ok (if b then 1 else 0)
  | int32 n => .ok n.toInt64
  | int64 n => .ok n
  | float32 x => .ok x.toInt64
  | float64 x => .ok x.toInt64
  | string s =>
    orUnreadable s .int64
      ((readBounded? Int64.minValue.toInt Int64.maxValue.toInt s).map Int64.ofInt)
  | e@(time _) => refuse e .int64

def toSingle : Scalar → Except Error Single
  | bool b => .ok (.ofInt (if b then 1 else 0))
  | int32 n => .ok (.ofInt n.toInt)
  | int64 n => .ok (.ofInt n.toInt)
  | float32 x => .ok x
  | float64 x => .ok x.convert
  | string s => orUnreadable s .float32 (readBinary? s)
  | time t => .ok t.seconds.convert

def toDouble : Scalar → Except Error Double
  | bool b => .ok (.ofInt (if b then 1 else 0))
  | int32 n => .ok (.ofInt n.toInt)
  | int64 n => .ok (.ofInt n.toInt)
  | float32 x => .ok x.convert
  | float64 x => .ok x
  | string s => orUnreadable s .float64 (readBinary? s)
  | time t => .ok t.seconds

def toText : Scalar → Except Error String
  | bool b => .ok (if b then "true" else "false")
  | int32 n => .ok (String.ofList (Text.decimalInt n.toInt))
  | int64 n => .ok (String.ofList (Text.decimalInt n.toInt))
  | float32 x => .ok (String.ofList (DecimalLayout.plain.text x))
  | float64 x => .ok (String.ofList (DecimalLayout.plain.text x))
  | string s => .ok s
  | e@(time _) => refuse e .string

def toTime : Scalar → Except Error Timetag
  | float32 x => .ok (.ofSeconds x.convert)
  | float64 x => .ok (.ofSeconds x)
  | time t => .ok t
  | e => refuse e .time

end Scalar

namespace Payload

/-- Elements as a payload of one kind; the first element that is refused ends it. -/
def ofScalars (xs : List Scalar) : Kind → Except Error Payload
  | .null => .ok .null
  | .bool => .bool <$> xs.mapM Scalar.toBool
  | .int32 => .int32 <$> xs.mapM Scalar.toInt32
  | .int64 => .int64 <$> xs.mapM Scalar.toInt64
  | .float32 => .float32 <$> xs.mapM Scalar.toSingle
  | .float64 => .float64 <$> xs.mapM Scalar.toDouble
  | .string => .string <$> xs.mapM Scalar.toText
  | .time => .time <$> xs.mapM Scalar.toTime

end Payload

/-- A value as one of another kind. Null is of no other kind. -/
def Value.coerce (v : Value) (target : Kind) : Except Error Value :=
  if v.kind = target then .ok v
  else if v.isNull ∨ target = .null then .error (.mismatch (.kind target v.kind))
  else (Payload.ofScalars v.scalars target).bind ofPayload

end SignalGraph
