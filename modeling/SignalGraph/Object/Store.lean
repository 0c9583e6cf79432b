import SignalGraph.Object.Directory
import SignalGraph.Object.Record

/-! # The store of records

Records by identity, and beside them for each kind the identities in the order in which they came.
A record that comes again goes to the end.
-/

namespace SignalGraph

structure Store where
  records : Directory Record
  order : ByKind (List ObjectId)
  deriving Repr, DecidableEq

namespace Store

def empty : Store := ⟨.empty, .const []⟩

def size (s : Store) : Nat := s.records.size

def find? (s : Store) (id : ObjectId) : Option Record := s.records.get? id

def contains (s : Store) (id : ObjectId) : Bool := (s.find? id).isSome

def ofKind (s : Store) (kind : ObjectKind) : List Record := (s.order.get kind).filterMap s.find?

/-- The records of a kind whose objects are there. -/
def live (s : Store) (kind : ObjectKind) : List Record := (s.ofKind kind).filter Record.isLive

/-- Drops what is held under an identity, and the identity from those of a kind. -/
def drop (s : Store) (id : ObjectId) (kind : ObjectKind) : Store :=
  ⟨s.records.erase id, s.order.modify kind fun ids => ids.filter (· ≠ id)⟩

def discard (s : Store) (id : ObjectId) : Store :=
  match s.find? id with
  | some r => s.drop id r.kind
  | none => s

/-- Adds a record behind the others of its kind. -/
def insert (s : Store) (r : Record) : Store :=
  ⟨s.records.insert r.id r, s.order.modify r.kind (· ++ [r.id])⟩

def modify (s : Store) (id : ObjectId) (f : Record → Record) : Store :=
  { s with records := s.records.modify id f }

@[simp] theorem find?_empty (id : ObjectId) : empty.find? id = none := rfl

theorem find?_drop (s : Store) (id other : ObjectId) (kind : ObjectKind) :
    (s.drop id kind).find? other = if id = other then none else s.find? other :=
  s.records.get?_erase id other

theorem find?_discard (s : Store) (id other : ObjectId) :
    (s.discard id).find? other = if id = other then none else s.find? other := by
  cases held : s.find? id with
  | none =>
      simp only [discard, held]
      split
      · rename_i same
        exact same ▸ held
      · rfl
  | some r => simp only [discard, held, find?_drop]

theorem find?_insert (s : Store) (r : Record) (other : ObjectId) :
    (s.insert r).find? other = if r.id = other then some r else s.find? other :=
  s.records.get?_insert r.id other r

theorem find?_modify (s : Store) (id other : ObjectId) (f : Record → Record) :
    (s.modify id f).find? other = if id = other then (s.find? id).map f else s.find? other :=
  s.records.get?_modify id other f

@[simp] theorem order_modify (s : Store) (id : ObjectId) (f : Record → Record) :
    (s.modify id f).order = s.order := rfl

/-- Two stores with the same records in the same order are the same. -/
@[ext] theorem ext {s t : Store} (records : ∀ id, s.find? id = t.find? id)
    (order : s.order = t.order) : s = t := by
  have same : s.records = t.records := Directory.ext records
  cases s
  cases t
  exact (Store.mk.injEq ..).mpr ⟨same, order⟩

/-- Two changes do the same if they do so to the record held. -/
theorem modify_congr {s : Store} {id : ObjectId} {f f' : Record → Record}
    (same : ∀ r, s.find? id = some r → f r = f' r) : s.modify id f = s.modify id f' := by
  ext other : 1
  · rw [find?_modify, find?_modify, Option.map_congr same]
  · rfl

@[simp] theorem modify_id (s : Store) (id : ObjectId) : s.modify id (fun r => r) = s := by
  ext other : 1
  · rw [find?_modify, Option.map_id']
    split
    · rename_i here
      rw [here]
    · rfl
  · rfl

/-- A change that the record held does not feel is none. -/
theorem modify_eq_self {s : Store} {id : ObjectId} {f : Record → Record}
    (same : ∀ r, s.find? id = some r → f r = r) : s.modify id f = s :=
  (modify_congr same).trans (s.modify_id id)

/-! ## Lookups -/

/-- A live record of a kind, or why there is none. -/
def getLive (s : Store) (id : ObjectId) (kind : ObjectKind) : Except Error Record :=
  match s.find? id with
  | none => .error (.missing (.objectOfKind kind id))
  | some r =>
    if r.kind ≠ kind then .error (.mismatch (.objectKind kind r.kind))
    else if !r.isLive then .error (.stale id)
    else .ok r

def deviceByName? (s : Store) (name : String) : Option Record :=
  (s.live .device).find? fun r => r.name? = some name

/-- A path of a device's and a signal's name, with any slashes in front dropped. -/
def splitPath? (path : String) : Option (String × String) :=
  let cs := path.toList.dropWhile (· = '/')
  match cs.dropWhile (· ≠ '/') with
  | _ :: rest => some (String.ofList (cs.takeWhile (· ≠ '/')), String.ofList rest)
  | [] => none

def signalByPath? (s : Store) (path : String) : Option Record := do
  let (deviceName, signalName) ← splitPath? path
  let device ← s.deviceByName? deviceName
  (s.live .signal).find? fun r => r.device? = some device.id ∧ r.name? = some signalName

/-- The first live map with these sources, in order, and this destination. -/
def mapBySignals? (s : Store) (sources : List ObjectId) (destination : ObjectId) : Option Record :=
  (s.live .map).find? fun r => r.destination? = some destination ∧ r.sources = sources

/-- The path of a signal whose device has a name, else the name. -/
def fullName? (s : Store) (r : Record) : Option String := do
  let name ← r.name?
  match (r.device?.bind s.find?).bind Record.name? with
  | some device => return device ++ "/" ++ name
  | none => return name

def mapDevices (s : Store) (map : Record) : List ObjectId :=
  map.mapSignals.filterMap fun signal => (s.find? signal).bind Record.device?

/-- The live records that cannot outlast one of a kind: the signals and links of a device, the maps
    of a signal, and the maps that run between the ends of a link. -/
def dependents (s : Store) (id : ObjectId) (kind : ObjectKind) : List ObjectId :=
  let ids (rs : List Record) := rs.map Record.id
  match kind with
  | .device =>
    ids ((s.live .signal).filter fun r => r.device? = some id) ++
      ids ((s.live .link).filter fun r => id ∈ r.linkEnds)
  | .signal => ids ((s.live .map).filter fun r => id ∈ r.mapSignals)
  | .link =>
    match (s.find? id).map Record.linkEnds with
    | some [first, second] =>
      ids ((s.live .map).filter fun r => first ∈ s.mapDevices r ∧ second ∈ s.mapDevices r)
    | _ => []
  | .map => []

end Store

end SignalGraph
