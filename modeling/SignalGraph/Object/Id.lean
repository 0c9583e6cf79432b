import SignalGraph.Text.Digits

/-! # Object identities

Objects are known by a number that is unique on the network, and map slots by their place.
-/

namespace SignalGraph

structure ObjectId where
  val : UInt64
  deriving Repr, DecidableEq

namespace ObjectId

/-- The identity as it stands in a property: the same 64 bits, signed. -/
def toInt64 (id : ObjectId) : Int64 := id.val.toInt64

def ofInt64 (n : Int64) : ObjectId := ⟨n.toUInt64⟩

/-- Hexadecimal with a mark in front. -/
def text (id : ObjectId) : String :=
  String.ofList ('0' :: 'x' :: Text.hexDigits id.val.toNat)

end ObjectId

inductive SlotLocation where
  | source (index : Nat)
  | destination
  deriving Repr, DecidableEq

/-- How a diagnostic names a slot. -/
def SlotLocation.text : SlotLocation → String
  | source i => "Source(" ++ Text.decimal i ++ ")"
  | destination => "Destination"

end SignalGraph
