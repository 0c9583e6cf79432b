/-! # Kinds of values

The seven element kinds and the kind of the empty value, with their names and one-letter tags.
-/

namespace SignalGraph

inductive Kind where
  | null
  | bool
  | int32
  | int64
  | float32
  | float64
  | string
  | time
  deriving Repr, DecidableEq

namespace Kind

def name : Kind → String
  | null => "null"
  | bool => "bool"
  | int32 => "int32"
  | int64 => "int64"
  | float32 => "float32"
  | float64 => "float64"
  | string => "string"
  | time => "time"

/-- The tag of the kind in messages on the wire. -/
def tag : Kind → Char
  | null => 'N'
  | bool => 'b'
  | int32 => 'i'
  | int64 => 'h'
  | float32 => 'f'
  | float64 => 'd'
  | string => 's'
  | time => 't'

def isNumeric : Kind → Bool
  | int32 | int64 | float32 | float64 => true
  | _ => false

def ofText? : String → Option Kind
  | "null" | "N" => some null
  | "bool" | "b" | "T" | "F" => some bool
  | "int32" | "int" | "i" => some int32
  | "int64" | "h" => some int64
  | "float32" | "float" | "f" => some float32
  | "float64" | "double" | "d" => some float64
  | "string" | "s" => some string
  | "time" | "t" => some time
  | _ => none

end Kind

end SignalGraph
