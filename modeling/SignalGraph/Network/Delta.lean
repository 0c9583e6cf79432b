import SignalGraph.Property.Table

/-! # Deltas

What one message says about one object: changes of its properties, and for a map changes of the
properties of its slots.
-/

namespace SignalGraph

structure SlotDiff where
  location : SlotLocation
  diff : Diff
  deriving Repr, DecidableEq

structure Delta where
  kind : ObjectKind
  id : ObjectId
  diff : Diff
  slots : List SlotDiff
  deriving Repr, DecidableEq

namespace Delta

def empty (kind : ObjectKind) (id : ObjectId) : Delta := ⟨kind, id, .empty, []⟩

def set (d : Delta) (key : Key) (v : Value) : Delta := { d with diff := d.diff.push (.set key v) }

def remove (d : Delta) (key : Key) : Delta := { d with diff := d.diff.push (.remove key) }

/-- Adds a change to the diff of a slot, which is the first for it if there are several. -/
def addSlotChange (location : SlotLocation) (c : Change) : List SlotDiff → List SlotDiff
  | [] => [⟨location, ⟨[c]⟩⟩]
  | s :: ss =>
    if s.location = location then { s with diff := s.diff.push c } :: ss
    else s :: addSlotChange location c ss

def setSlot (d : Delta) (location : SlotLocation) (key : Key) (v : Value) : Delta :=
  { d with slots := addSlotChange location (.set key v) d.slots }

/-- The number of changes, those of slots included. -/
def size (d : Delta) : Nat := d.slots.foldl (fun n s => n + s.diff.size) d.diff.size

def isEmpty (d : Delta) : Bool := d.size == 0

end Delta

end SignalGraph
