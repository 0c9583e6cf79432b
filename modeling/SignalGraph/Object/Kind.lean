/-! # Kinds and stages of objects

The four kinds of objects on the network, and the stages of the record that is kept of one.
-/

namespace SignalGraph

inductive ObjectKind where
  | device
  | signal
  | map
  | link
  deriving Repr, DecidableEq

namespace ObjectKind

def all : List ObjectKind := [device, signal, map, link]

def name : ObjectKind → String
  | device => "device"
  | signal => "signal"
  | map => "map"
  | link => "link"

end ObjectKind

structure ByKind (β : Type) where
  device : β
  signal : β
  map : β
  link : β
  deriving Repr, DecidableEq

namespace ByKind

variable {β : Type}

def const (b : β) : ByKind β := ⟨b, b, b, b⟩

def get (t : ByKind β) : ObjectKind → β
  | .device => t.device
  | .signal => t.signal
  | .map => t.map
  | .link => t.link

def modify (t : ByKind β) (kind : ObjectKind) (f : β → β) : ByKind β :=
  match kind with
  | .device => { t with device := f t.device }
  | .signal => { t with signal := f t.signal }
  | .map => { t with map := f t.map }
  | .link => { t with link := f t.link }

@[simp] theorem get_const (b : β) (kind : ObjectKind) : (const b).get kind = b := by
  cases kind <;> rfl

theorem get_modify (t : ByKind β) (kind other : ObjectKind) (f : β → β) :
    (t.modify kind f).get other = if other = kind then f (t.get other) else t.get other := by
  cases kind <;> cases other <;> rfl

end ByKind

/-- How a record stands to what the network last said about its object. -/
inductive Status where
  | new
  | modified
  | removed
  | expired
  deriving Repr, DecidableEq

def Status.isTerminal : Status → Bool
  | removed | expired => true
  | new | modified => false

inductive Lifecycle where
  | added
  | modified
  | removed
  | expired
  deriving Repr, DecidableEq

def Lifecycle.status : Lifecycle → Status
  | added => .new
  | modified => .modified
  | removed => .removed
  | expired => .expired

end SignalGraph
