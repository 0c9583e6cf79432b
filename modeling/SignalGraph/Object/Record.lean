import SignalGraph.Instance.Pool
import SignalGraph.Object.Categories
import SignalGraph.Property.Table

/-! # Records

What the graph keeps of one object: its properties, what it is wired to, and its stage. Records
name each other by identity only.
-/

namespace SignalGraph

/-- One end of a map: a signal, and the properties of the map at that end. -/
structure Slot where
  signal : ObjectId
  properties : Table
  deriving Repr, DecidableEq

namespace Slot

def bare (signal : ObjectId) : Slot := ⟨signal, .empty⟩

def modify (f : Table → Table) (s : Slot) : Slot := { s with properties := f s.properties }

end Slot

/-- What an object of each kind is wired to. -/
inductive Wiring where
  /-- A device, and when it last gave a sign of life. -/
  | device (synced : Timetag)
  | signal (device : ObjectId) (pool : Pool)
  /-- A map, and whether it was made here and not yet confirmed by the network. -/
  | map (sources : List Slot) (destination : Slot) (isLocal : Bool)
  | link (first second : ObjectId)
  deriving Repr, DecidableEq

def Wiring.kind : Wiring → ObjectKind
  | device _ => .device
  | signal _ _ => .signal
  | map _ _ _ => .map
  | link _ _ => .link

structure Record where
  id : ObjectId
  status : Status
  properties : Table
  wiring : Wiring
  terminalAt : Option Timetag
  /-- The poll cycle in which listeners last heard of the record as it is. -/
  observedCycle : Option Nat
  deriving Repr, DecidableEq

namespace Record

def make (id : ObjectId) (wiring : Wiring) : Record := ⟨id, .new, .empty, wiring, none, none⟩

def kind (r : Record) : ObjectKind := r.wiring.kind

def isLive (r : Record) : Bool := !r.status.isTerminal

def name? (r : Record) : Option String :=
  (r.properties.get? (.wellKnown .name)).bind Value.toString?

/-- A property; the identity is one even if no table holds it. -/
def property? (r : Record) (key : Key) : Option Value :=
  if key = .wellKnown .id then some (.ofId r.id) else r.properties.get? key

/-- A property, or the refusal that names it and the object. -/
def property (r : Record) (key : Key) : Except Error Value :=
  match r.property? key with
  | some v => .ok v
  | none => .error (.missing (.propertyOf key r.id))

def direction? (r : Record) : Option Direction :=
  if r.kind = .signal then
    ((r.properties.get? (.wellKnown .direction)).bind Value.toString?).bind Vocabulary.ofText?
  else none

def categories (r : Record) : Categories :=
  match r.direction? with
  | some .input => .signalIn
  | some .output => .signalOut
  | none => .ofKind r.kind

/-! ## Wiring -/

def device? (r : Record) : Option ObjectId :=
  match r.wiring with
  | .signal device _ => some device
  | _ => none

def pool? (r : Record) : Option Pool :=
  match r.wiring with
  | .signal _ pool => some pool
  | _ => none

def withPool (r : Record) (pool : Pool) : Record :=
  match r.wiring with
  | .signal device _ => { r with wiring := .signal device pool }
  | _ => r

/-- The source signals of a map in slot order. -/
def sources (r : Record) : List ObjectId :=
  match r.wiring with
  | .map sources _ _ => sources.map Slot.signal
  | _ => []

def destination? (r : Record) : Option ObjectId :=
  match r.wiring with
  | .map _ destination _ => some destination.signal
  | _ => none

/-- The signals of a map, sources first. -/
def mapSignals (r : Record) : List ObjectId := r.sources ++ r.destination?.toList

def linkEnds (r : Record) : List ObjectId :=
  match r.wiring with
  | .link first second => [first, second]
  | _ => []

def isLocal (r : Record) : Bool :=
  match r.wiring with
  | .map _ _ isLocal => isLocal
  | _ => false

/-! ## Slots -/

def slot? (r : Record) : SlotLocation → Option Slot
  | .source i =>
    match r.wiring with
    | .map sources _ _ => sources[i]?
    | _ => none
  | .destination =>
    match r.wiring with
    | .map _ destination _ => some destination
    | _ => none

def modifySlot (r : Record) (location : SlotLocation) (f : Table → Table) : Record :=
  match r.wiring, location with
  | .map sources destination isLocal, .source i =>
    { r with wiring := .map (sources.modify i (·.modify f)) destination isLocal }
  | .map sources destination isLocal, .destination =>
    { r with wiring := .map sources (destination.modify f) isLocal }
  | _, _ => r

def modifySlots (r : Record) (f : Table → Table) : Record :=
  match r.wiring with
  | .map sources destination isLocal =>
    { r with wiring := .map (sources.map (·.modify f)) (destination.modify f) isLocal }
  | _ => r

def slots (r : Record) : List (SlotLocation × Slot) :=
  match r.wiring with
  | .map sources destination _ =>
    sources.mapIdx (fun i s => (.source i, s)) ++ [(.destination, destination)]
  | _ => []

/-- Whether the record holds edits that wait to be sent. -/
def hasStaged (r : Record) : Bool :=
  r.properties.hasStaged || r.slots.any fun (_, s) => s.properties.hasStaged

end Record

end SignalGraph
