import SignalGraph.Graph.Removal

/-! # Record events

What the network says of objects becomes part of the graph. An object that is not there, or whose
record is that of one gone, gets a new record; for one that is there the changes are merged. The
steps stand in the order in which they are taken, so that what a refusal leaves behind can be seen.
-/

namespace SignalGraph

/-! ## Relations -/

namespace Diff

/-- The identities that a diff gives for a relation. -/
def relatedIds (d : Diff) (p : Property) : Except Error (List ObjectId) :=
  match (d.get? (.wellKnown p)).bind Value.toIds? with
  | some ids => .ok ids
  | none => .error (.malformed (.missing p))

def relatedId (d : Diff) (p : Property) : Except Error ObjectId := do
  match ← d.relatedIds p with
  | id :: _ => return id
  | [] => .error (.malformed (.empty p))

end Diff

def Property.relations : List Property := [.device, .sources, .destination, .devices]

namespace Record

/-- What a relation of a record is bound to: the wiring for the relations of its kind, else what
    its properties say. -/
def boundIds? (r : Record) (p : Property) : Option (List ObjectId) :=
  match p, r.wiring with
  | .device, .signal device _ => some [device]
  | .sources, .map sources _ _ => some (sources.map Slot.signal)
  | .destination, .map _ destination _ => some [destination.signal]
  | .devices, .link first second => some [first, second]
  | p, _ => (r.properties.get? (.wellKnown p)).bind Value.toIds?

/-- Whether a change leaves the relations of a record as they are: it may say them again, but not
    take them away or change them. -/
def checkRelation (r : Record) (c : Change) : Except Error Unit :=
  match c.key with
  | .named _ => .ok ()
  | .wellKnown p =>
    if p ∉ Property.relations then .ok ()
    else
      match r.boundIds? p with
      | none => .ok ()
      | some ids =>
        let restated : Bool := match c with
          | .set _ v => v.toIds? == some ids
          | .remove _ => false
        if restated then .ok () else .error (.malformed (.rewired r.id p))

/-- The record with changes to its slots; those for slots it does not have are skipped. -/
def applySlotDiffs (r : Record) (slots : List SlotDiff) : Record × Bool :=
  slots.foldl (fun (r, changed) s =>
    match r.slot? s.location with
    | none => (r, changed)
    | some slot =>
      let (properties, now) := slot.properties.applyDiff s.diff
      (r.modifySlot s.location fun _ => properties, changed || now)) (r, false)

/-- The record of a signal with its pool as its properties say. -/
def syncPool (r : Record) (config : Config) : Record :=
  match r.pool? with
  | none => r
  | some pool =>
    let size := ((r.properties.get? (.wellKnown .numInst)).bind Value.toInt32?).map fun n =>
      n.toInt.toNat
    let steal := ((r.properties.get? (.wellKnown .steal)).bind Value.toString?).bind
      (Vocabulary.ofText? (α := StealMode))
    let pool := match size with
      | some n => pool.resize (min n config.maxInstances)
      | none => pool
    let pool := match steal with
      | some mode => pool.setSteal mode
      | none => pool
    r.withPool pool

end Record

namespace Store

/-- Whether an identity can be that of a device for an object: not the object itself, and not a live
    object of another kind. -/
def checkDevice (s : Store) (owner id : ObjectId) : Except Error Unit :=
  if id = owner then .error (.malformed (.selfReference owner))
  else
    match s.find? id with
    | some r =>
      if r.isLive ∧ r.kind ≠ .device then .error (.malformed (.notDevice id r.kind)) else .ok ()
    | none => .ok ()

/-- Whether a map can be made between signals: there are sources, not too many, and all are live. -/
def checkMapEnds (s : Store) (config : Config) (sources : List ObjectId) (destination : ObjectId) :
    Except Error Unit := do
  if sources.isEmpty then .error .noSources
  if config.maxMapSources < sources.length then
    .error (.capacity sources.length config.maxMapSources)
  (sources ++ [destination]).forM fun id => (s.getLive id .signal).map fun _ => ()

end Store

namespace Graph

variable {α : Type}

/-- Notes a sign of life of a device. -/
def touch (g : Graph α) (id : ObjectId) : Graph α :=
  g.modify id fun r =>
    match r.wiring with
    | .device _ => if r.isLive then { r with wiring := .device g.now } else r
    | _ => r

/-- Notes a sign of life of the device of a signal. -/
def touchOwner (g : Graph α) (signal : ObjectId) : Graph α :=
  match (g.store.find? signal).bind Record.device? with
  | some device => g.touch device
  | none => g

/-! ## New records -/

/-- The pool of a new signal, before its own properties count. -/
def newPool (g : Graph α) : Pool :=
  (Pool.empty g.config.maxInstances g.config.defaultSteal).resize g.config.defaultInstances

/-- The new record that a delta describes. -/
def recordOf (g : Graph α) (delta : Delta) (wiring : Wiring) : Record :=
  let r := Record.make delta.id wiring
  let r := { r with properties := (r.properties.applyDiff delta.diff).1 }
  (r.applySlotDiffs delta.slots).1.syncPool g.config

def insert (g : Graph α) (r : Record) : Graph α :=
  { g with store := g.store.insert r }.notify r.id .added

/-- Makes the record that a delta describes, in place of that of an object gone. -/
def establish (g : Graph α) (delta : Delta) (wiring : Wiring) : Graph α :=
  let g := { g with store := g.store.discard delta.id }
  let g := (g.insert (g.recordOf delta wiring)).touchOwner delta.id
  if delta.kind = .device then g.autosubscribe delta.id else g

/-- Makes sure that a device has a record, if only one that says nothing of it. -/
def ensureDevice (id : ObjectId) : Attempt (Graph α) Unit := do
  let g ← Attempt.current
  match g.store.find? id with
  | some r =>
    if r.isLive then
      if r.kind ≠ .device then throw (.malformed (.notDevice id r.kind))
    else Attempt.change (·.establish (.empty .device id) (.device g.now))
  | none => Attempt.change (·.establish (.empty .device id) (.device g.now))

/-- The wiring that a delta gives a new record. The devices that it names are there afterwards. -/
def resolve (delta : Delta) : Attempt (Graph α) Wiring := do
  let g ← Attempt.current
  match delta.kind with
  | .device => return .device g.now
  | .signal =>
    let device ← demand (delta.diff.relatedId .device)
    demand (g.store.checkDevice delta.id device)
    ensureDevice device
    return .signal device g.newPool
  | .map =>
    let sources ← demand (delta.diff.relatedIds .sources)
    let destination ← demand (delta.diff.relatedId .destination)
    match g.store.checkMapEnds g.config sources destination with
    | .ok () => return .map (sources.map Slot.bare) (Slot.bare destination) false
    | .error cause => throw (.malformedMap delta.id cause)
  | .link =>
    match ← demand (delta.diff.relatedIds .devices) with
    | [first, second] =>
      -- Both ends are checked before either gets a record.
      demand (g.store.checkDevice delta.id first)
      demand (g.store.checkDevice delta.id second)
      ensureDevice first
      ensureDevice second
      return .link first second
    | _ => throw (.malformed (.linkEnds delta.id))

def create (delta : Delta) : Attempt (Graph α) (Option Lifecycle) := do
  let wiring ← resolve delta
  Attempt.change (·.establish delta wiring)
  return some .added

/-! ## Known records -/

/-- The record with a delta merged into it, and whether that changed a property. -/
def mergedRecord (g : Graph α) (r : Record) (delta : Delta) : Record × Bool :=
  let (properties, changed) := r.properties.applyDiff delta.diff
  let (r, slotsChanged) := { r with properties }.applySlotDiffs delta.slots
  let r := match r.wiring with
    | .device _ => { r with wiring := .device g.now }
    | .map sources destination _ => { r with wiring := .map sources destination false }
    | _ => r
  (r.syncPool g.config, changed || slotsChanged)

/-- Notes that a record was changed. -/
def noteChange (g : Graph α) (delta : Delta) : Graph α :=
  let g := (g.modify delta.id ({ · with status := .modified })).notify delta.id .modified
  if delta.kind = .device then g.autosubscribe delta.id else g

/-- Merges a delta into a live record. Nobody hears of one that changes no property. -/
def merge (delta : Delta) : Attempt (Graph α) (Option Lifecycle) := do
  let g ← Attempt.current
  match g.store.find? delta.id with
  | none => throw (.missing (.object delta.id))
  | some r =>
    demand (delta.diff.changes.forM r.checkRelation)
    let (merged, changed) := g.mergedRecord r delta
    Attempt.change (·.modify delta.id fun _ => merged)
    Attempt.change (·.touchOwner delta.id)
    if !changed then return none
    Attempt.change (·.noteChange delta)
    return some .modified

/-! ## Events -/

/-- Creates or merges. A live object does not change its kind. -/
def upsert (delta : Delta) : Attempt (Graph α) (Option Lifecycle) := do
  let g ← Attempt.current
  match g.store.find? delta.id with
  | some r =>
    if !r.isLive then create delta
    else if r.kind ≠ delta.kind then throw (.malformed (.kindChange r.kind delta.id delta.kind))
    else merge delta
  | none => create delta

/-- Applies what the network says of a record, and returns the transition that this is. -/
def applyEvent (type : EventType) (delta : Delta) : Attempt (Graph α) (Option Lifecycle) :=
  match type with
  | .announce | .update => upsert delta
  | .remove => fun g => let (g, how) := g.remove delta.id .removed; .ok how g
  | .expire => fun g => let (g, how) := g.remove delta.id .expired; .ok how g

end Graph

end SignalGraph
