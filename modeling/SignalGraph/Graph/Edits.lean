import SignalGraph.Graph.Apply

/-! # Edits made here

Properties are edited in the staged layer, and maps can be made, before any of it is sent. Pushing a
record sends its staged edits in one message; they are confirmed once it is taken.
-/

namespace SignalGraph

/-- What a record has staged, for itself and for each slot with edits. -/
def Record.stagedDelta (r : Record) : Delta where
  kind := r.kind
  id := r.id
  diff := r.properties.stagedDiff
  slots := r.slots.filterMap fun (location, slot) =>
    let diff := slot.properties.stagedDiff
    if diff.isEmpty then none else some ⟨location, diff⟩

def Record.commitStaged (r : Record) : Record :=
  { r with properties := r.properties.commitStaged }.modifySlots Table.commitStaged

/-- The owner of a record: the device itself or that of the signal, for a map that of the
    destination; everyone if that is not known, and for a link. -/
def Store.ownerOf (s : Store) (r : Record) : Destination :=
  match r.wiring with
  | .device _ => .device r.id
  | .signal device _ => .device device
  | .map _ destination _ =>
    match (s.find? destination.signal).bind Record.device? with
    | some device => .device device
    | none => .bus
  | .link _ _ => .bus

namespace Graph

variable {α : Type}

def send (dest : Destination) (delta : Delta) : Attempt (Graph α) Unit := fun g =>
  match g.wire.send dest delta with
  | (.ok (), wire) => .ok () { g with wire }
  | (.error e, wire) => .error e { g with wire }

def editProperties {β : Type} (id : ObjectId) (x : Attempt Table β) : Attempt (Graph α) β := do
  match (← Attempt.current).store.find? id with
  | none => throw (.missing (.object id))
  | some r =>
    if !r.isLive then throw (.stale id)
    x.within r.properties fun properties g => g.modify id ({ · with properties })

def editSlot {β : Type} (map : ObjectId) (location : SlotLocation) (x : Attempt Table β) :
    Attempt (Graph α) β := do
  let r ← demand ((← Attempt.current).store.getLive map .map)
  match r.slot? location with
  | none => throw (.missing (.slot location map))
  | some slot =>
    x.within slot.properties fun properties g =>
      g.modify map (·.modifySlot location fun _ => properties)

/-! ## New maps -/

/-- The identity made here for a count: the fraction of the time, then the count. -/
def localId (g : Graph α) (count : UInt32) : ObjectId :=
  ⟨g.now.frac.toUInt64 <<< 32 ||| count.toUInt64⟩

/-- The first count after `count` whose identity no record has, among the next `tries`. -/
def freeCount? (g : Graph α) (count : UInt32) : Nat → Option UInt32
  | 0 => none
  | tries + 1 =>
    if g.store.contains (g.localId (count + 1)) then g.freeCount? (count + 1) tries
    else some (count + 1)

/-- Makes an identity that no record has. The search goes round all counts, and has no end where
    each is taken. -/
def nextLocalId : Attempt (Graph α) ObjectId := do
  let g ← Attempt.current
  match g.freeCount? g.localCounter UInt32.size with
  | some count =>
    Attempt.change ({ · with localCounter := count })
    return g.localId count
  | none => throw .countOverflow

/-- The properties of a new map: what it joins is staged. -/
def stageEnds (sources : List ObjectId) (destination : ObjectId) : Except Error Table :=
  let stage : Attempt Table Unit := do
    Table.set (.wellKnown .sources) (.ofIds sources)
    Table.set (.wellKnown .destination) (.ofId destination)
  match stage .empty with
  | .ok () properties => .ok properties
  | .error e _ => .error e

/-- A map between live signals, or the identity of the live one that there is. -/
def newMap (sources : List ObjectId) (destination : ObjectId) : Attempt (Graph α) ObjectId := do
  let g ← Attempt.current
  demand (g.store.checkMapEnds g.config sources destination)
  match g.store.mapBySignals? sources destination with
  | some r => return r.id
  | none =>
    let id ← nextLocalId
    let properties ← demand (stageEnds sources destination)
    let wiring := .map (sources.map Slot.bare) (Slot.bare destination) true
    Attempt.change (·.insert { Record.make id wiring with properties })
    return id

/-! ## Pushing -/

/-- Sends the staged edits of a live record to its owner, and returns how many there were. If the
    message is refused they stay staged. -/
def push (id : ObjectId) : Attempt (Graph α) Nat := do
  let g ← Attempt.current
  match g.store.find? id with
  | none => throw (.missing (.object id))
  | some r =>
    if !r.isLive then throw (.stale id)
    let delta := r.stagedDelta
    if delta.isEmpty then return 0
    send (g.store.ownerOf r) delta
    Attempt.change (·.modify id Record.commitStaged)
    return delta.size

end Graph

end SignalGraph
