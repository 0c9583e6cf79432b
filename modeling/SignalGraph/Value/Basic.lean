import SignalGraph.Error
import SignalGraph.Timetag

/-! # Values

A value is null or a nonempty vector of elements of one kind. A payload is the same without the
promise that it holds an element; only payloads that keep it become values.
-/

namespace SignalGraph

inductive Scalar where
  | bool (b : Bool)
  | int32 (n : Int32)
  | int64 (n : Int64)
  | float32 (x : Single)
  | float64 (x : Double)
  | string (s : String)
  | time (t : Timetag)
  deriving Repr, DecidableEq

def Scalar.kind : Scalar → Kind
  | bool _ => .bool
  | int32 _ => .int32
  | int64 _ => .int64
  | float32 _ => .float32
  | float64 _ => .float64
  | string _ => .string
  | time _ => .time

/-- Elements of one kind, or nothing at all. -/
inductive Payload where
  | null
  | bool (xs : List Bool)
  | int32 (xs : List Int32)
  | int64 (xs : List Int64)
  | float32 (xs : List Single)
  | float64 (xs : List Double)
  | string (xs : List String)
  | time (xs : List Timetag)
  deriving Repr, DecidableEq

namespace Payload

def kind : Payload → Kind
  | null => .null
  | bool _ => .bool
  | int32 _ => .int32
  | int64 _ => .int64
  | float32 _ => .float32
  | float64 _ => .float64
  | string _ => .string
  | time _ => .time

def size : Payload → Nat
  | null => 0
  | bool xs => xs.length
  | int32 xs => xs.length
  | int64 xs => xs.length
  | float32 xs => xs.length
  | float64 xs => xs.length
  | string xs => xs.length
  | time xs => xs.length

/-- The elements one by one, each with its kind. -/
def scalars : Payload → List Scalar
  | null => []
  | bool xs => xs.map .bool
  | int32 xs => xs.map .int32
  | int64 xs => xs.map .int64
  | float32 xs => xs.map .float32
  | float64 xs => xs.map .float64
  | string xs => xs.map .string
  | time xs => xs.map .time

theorem length_scalars (p : Payload) : p.scalars.length = p.size := by
  cases p <;> simp [scalars, size]

/-- Whether a payload is a value: null, or with an element. -/
def Valid (p : Payload) : Prop := p.kind = .null ∨ p.size ≠ 0

instance (p : Payload) : Decidable p.Valid := inferInstanceAs (Decidable (_ ∨ _))

end Payload

/-- A value: null, or a nonempty vector of one kind. -/
structure Value where
  payload : Payload
  valid : payload.Valid
  deriving Repr, DecidableEq

namespace Value

def null : Value := ⟨.null, .inl rfl⟩

instance : Inhabited Value := ⟨null⟩

/-- A payload as a value; one without elements must be null. -/
def ofPayload (p : Payload) : Except Error Value :=
  if h : p.Valid then .ok ⟨p, h⟩ else .error (.mismatch (.noElements p.kind))

def make (kind : Kind) (p : Payload) : Except Error Value :=
  if p.kind ≠ kind then .error (.mismatch (.kind kind p.kind)) else ofPayload p

/-- A payload as a value, null if it has no elements. -/
def ofPayloadOrNull (p : Payload) : Value := if h : p.Valid then ⟨p, h⟩ else null

def ofString (s : String) : Value := ⟨.string [s], .inr (by simp [Payload.size])⟩

def ofId (id : ObjectId) : Value := ⟨.int64 [id.toInt64], .inr (by simp [Payload.size])⟩

/-- The identities of a list of objects, null for none. -/
def ofIds (ids : List ObjectId) : Value := ofPayloadOrNull (.int64 (ids.map ObjectId.toInt64))

def kind (v : Value) : Kind := v.payload.kind

def size (v : Value) : Nat := v.payload.size

def scalars (v : Value) : List Scalar := v.payload.scalars

def isNull (v : Value) : Bool := v.kind == .null

def isNumeric (v : Value) : Bool := v.kind.isNumeric

/-! ## The first element -/

def toBool? (v : Value) : Option Bool :=
  match v.payload with
  | .bool xs => xs.head?
  | _ => none

def toInt32? (v : Value) : Option Int32 :=
  match v.payload with
  | .int32 xs => xs.head?
  | _ => none

def toInt64s? (v : Value) : Option (List Int64) :=
  match v.payload with
  | .int32 xs => some (xs.map Int32.toInt64)
  | .int64 xs => some xs
  | _ => none

def toInt64? (v : Value) : Option Int64 := v.toInt64s?.bind List.head?

def toDouble? (v : Value) : Option Double :=
  match v.payload with
  | .int32 xs => xs.head?.map fun n => .ofInt n.toInt
  | .int64 xs => xs.head?.map fun n => .ofInt n.toInt
  | .float32 xs => xs.head?.map Binary.convert
  | .float64 xs => xs.head?
  | _ => none

def toStrings? (v : Value) : Option (List String) :=
  match v.payload with
  | .string xs => some xs
  | _ => none

def toString? (v : Value) : Option String := v.toStrings?.bind List.head?

def toTimetag? (v : Value) : Option Timetag :=
  match v.payload with
  | .time xs => xs.head?
  | _ => none

/-- The elements of an integer value as object identities. -/
def toIds? (v : Value) : Option (List ObjectId) :=
  v.toInt64s?.map fun ns => ns.map ObjectId.ofInt64

end Value

end SignalGraph
