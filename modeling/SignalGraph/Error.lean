import SignalGraph.Object.Id
import SignalGraph.Object.Kind
import SignalGraph.Property.Key
import SignalGraph.Text.Quoted

/-! # Errors

Why an operation is refused, as a cause, and the wording of each cause.
-/

namespace SignalGraph

inductive Mismatch where
  | kind (expected got : Kind)
  | noElements (kind : Kind)
  | propertyKind (property : Property) (got : Kind)
  | propertyLength (property : Property) (expected got : Nat)
  | sampleLength (expected : Int32) (got : Nat)
  | objectKind (expected got : ObjectKind)
  | queryKind (expected got : ObjectKind)
  deriving Repr, DecidableEq

namespace Mismatch

def expected : Mismatch → String
  | kind expected _ => expected.name
  | noElements k => k.name ++ " of length >= 1"
  | propertyKind property _ => property.rule.kind.name ++ " for " ++ property.text
  | propertyLength property expected _ =>
    "length " ++ Text.decimal expected ++ " for " ++ property.text
  | sampleLength expected _ => "length " ++ String.ofList (Text.decimalInt expected.toInt)
  | objectKind expected _ => expected.name
  | queryKind expected _ => expected.name ++ " query"

def got : Mismatch → String
  | kind _ got => got.name
  | noElements _ => "empty payload"
  | propertyKind _ got => got.name
  | propertyLength _ _ got => "length " ++ Text.decimal got
  | sampleLength _ got => "length " ++ Text.decimal got
  | objectKind _ got => got.name
  | queryKind _ got => got.name ++ " query"

end Mismatch

inductive ReadTarget where
  | kindName
  | element (kind : Kind)
  | direction
  | stealMode
  | processLocation
  | protocol
  | boundaryAction
  | category
  deriving Repr, DecidableEq

def ReadTarget.name : ReadTarget → String
  | kindName => "value type"
  | element kind => kind.name
  | direction => "direction"
  | stealMode => "steal mode"
  | processLocation => "process location"
  | protocol => "protocol"
  | boundaryAction => "boundary action"
  | category => "object type"

inductive Missing where
  | property (key : Key)
  | propertyOf (key : Key) (id : ObjectId)
  | object (id : ObjectId)
  | objectOfKind (kind : ObjectKind) (id : ObjectId)
  | slot (location : SlotLocation) (map : ObjectId)
  | poolInstance (id : UInt64)
  | pool (id : ObjectId)
  deriving Repr, DecidableEq

def Missing.text : Missing → String
  | property key => "property " ++ key.text
  | propertyOf key id => "property " ++ key.text ++ " on " ++ id.text
  | object id => id.text
  | objectOfKind kind id => kind.name ++ " " ++ id.text
  | slot location map => "slot " ++ location.text ++ " of map " ++ map.text
  | poolInstance id => "instance " ++ Text.decimal id.toNat
  | pool id => "instances of " ++ id.text

inductive Malformed where
  | kindChange (held : ObjectKind) (id : ObjectId) (announced : ObjectKind)
  | linkEnds (id : ObjectId)
  | selfReference (id : ObjectId)
  | notDevice (id : ObjectId) (kind : ObjectKind)
  | missing (property : Property)
  | empty (property : Property)
  | rewired (id : ObjectId) (property : Property)
  deriving Repr, DecidableEq

def Malformed.text : Malformed → String
  | kindChange held id announced =>
    held.name ++ " " ++ id.text ++ " announced as " ++ announced.name
  | linkEnds id => "link " ++ id.text ++ " needs two devices"
  | selfReference id => id.text ++ " refers to itself"
  | notDevice id k => id.text ++ " is a " ++ k.name ++ ", not a device"
  | missing property => "missing " ++ property.text
  | empty property => "empty " ++ property.text
  | rewired id property => id.text ++ " cannot change " ++ property.text

inductive Error where
  | mismatch (cause : Mismatch)
  | unreadable (input : String) (target : ReadTarget)
  | missing (what : Missing)
  | malformed (cause : Malformed)
  /-- An announced map whose ends are refused. -/
  | malformedMap (id : ObjectId) (cause : Error)
  | capacity (requested limit : Nat)
  /-- A count beyond the bits that counts have. This is no refusal: whoever asks for it cannot go
      on. -/
  | countOverflow
  /-- A reference to a record whose object is gone. -/
  | stale (id : ObjectId)
  | noSources
  | wire (reason : String)
  /-- A document that does not have the form of what it should hold. -/
  | undecodable
  deriving Repr, DecidableEq

namespace Error

def message : Error → String
  | mismatch cause => "Type mismatch: expected " ++ cause.expected ++ ", got " ++ cause.got
  | unreadable input target => "Cannot parse " ++ Text.quoted input ++ " as " ++ target.name
  | missing what => "Not found: " ++ what.text
  | malformed cause => "Malformed event: " ++ cause.text
  | malformedMap id cause => "Malformed event: map " ++ id.text ++ ": " ++ cause.message
  | capacity requested limit =>
    "Capacity exceeded: requested " ++ Text.decimal requested ++ ", capacity " ++ Text.decimal limit
  | countOverflow => "Count overflow"
  | stale id => "Stale reference: " ++ id.text ++ " has been removed"
  | noSources => "Invalid argument: a map needs at least one source"
  | wire reason => "Transport error: " ++ reason
  | undecodable => "Serialization error"

/-- Whether the refusal says that something does not exist, or no longer. -/
def isNotFound : Error → Bool
  | missing _ | stale _ => true
  | _ => false

end Error

end SignalGraph
