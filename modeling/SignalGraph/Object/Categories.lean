import SignalGraph.Object.Kind
import SignalGraph.Error

/-! # Categories of objects

Sets of the six categories that objects fall into: signals and maps count by direction. Listeners
and subscriptions say with them what they are about.
-/

namespace SignalGraph

structure Categories where
  bits : BitVec 6
  deriving Repr, DecidableEq

namespace Categories

def none : Categories := ⟨0⟩
def device : Categories := ⟨1⟩
def signalIn : Categories := ⟨2⟩
def signalOut : Categories := ⟨4⟩
def mapIn : Categories := ⟨8⟩
def mapOut : Categories := ⟨16⟩
def link : Categories := ⟨32⟩

instance : Inhabited Categories := ⟨none⟩

instance : OrOp Categories := ⟨fun a b => ⟨a.bits ||| b.bits⟩⟩

instance : AndOp Categories := ⟨fun a b => ⟨a.bits &&& b.bits⟩⟩

def signal : Categories := signalIn ||| signalOut

def map : Categories := mapIn ||| mapOut

def all : Categories := device ||| signal ||| map ||| link

/-- A set from a number; bits without a meaning are dropped. -/
def ofNat (n : Nat) : Categories := ⟨BitVec.ofNat 6 n⟩

def isEmpty (a : Categories) : Bool := a == none

def contains (a b : Categories) : Bool := a &&& b == b

def intersects (a b : Categories) : Bool := !(a &&& b).isEmpty

/-- The categories that an object of a kind can fall into. -/
def ofKind : ObjectKind → Categories
  | .device => device
  | .signal => signal
  | .map => map
  | .link => link

/-- The single categories and their names, in order. -/
def singles : List (String × Categories) :=
  [("device", device), ("signal_in", signalIn), ("signal_out", signalOut), ("map_in", mapIn),
   ("map_out", mapOut), ("link", link)]

def unions : List (String × Categories) := [("all", all), ("signal", signal), ("map", map)]

/-- The set that names stand for together. -/
def ofNames (names : List String) : Except Error Categories :=
  names.foldlM (fun acc name =>
    match (singles ++ unions).lookup name with
    | some c => .ok (acc ||| c)
    | Option.none => .error (.unreadable name .category)) none

def names (a : Categories) : List String := (singles.filter fun (_, c) => a.contains c).map Prod.fst

end Categories

end SignalGraph
