import SignalGraph.Json.Codec.Object
import SignalGraph.Object.Store

/-! # Snapshots

The live records of a store as a document, a list for each kind. Properties are shown as readers see
them, staged edits included.
-/

namespace SignalGraph.Export

def tableJson (t : Table) : Json := .object (t.toList.map fun (key, v) => (key.text, encode v))

def slotJson (s : Slot) : Json :=
  .object [("signal", encode s.signal), ("properties", tableJson s.properties)]

def wiringMembers : Wiring → List (String × Json)
  | .device synced => [("synced", encode synced.seconds)]
  | .signal device pool => [("device", encode device), ("instances", encode pool.slots)]
  | .map sources destination isLocal =>
    [("sources", .array (sources.map slotJson)), ("destination", slotJson destination),
     ("local", .bool isLocal)]
  | .link first second => [("devices", encode [first, second])]

def recordJson (r : Record) : Json :=
  .object
    ([("id", encode r.id), ("status", encode r.status), ("properties", tableJson r.properties)] ++
      wiringMembers r.wiring)

def listName : ObjectKind → String
  | .device => "devices"
  | .signal => "signals"
  | .map => "maps"
  | .link => "links"

/-- The live records of a store, with the members of every object sorted by name. -/
def snapshot (s : Store) : Json :=
  Json.normalize (.object (ObjectKind.all.map fun kind =>
    (listName kind, .array ((s.live kind).map recordJson))))

end SignalGraph.Export
