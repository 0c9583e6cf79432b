import Mathlib.Data.List.Forall2
import SignalGraph.Proofs.Selection
import SignalGraph.Proofs.Spelling
import SignalGraph.Proofs.TableInvariants

/-! # Documents of graphs

A snapshot lists the records of objects that are there, of each kind in store order, and shows each
with all that readers see in its tables. That nothing is lost on the way to the document rests on the
store listing each record once and on keys with the same text being the same.
-/

namespace SignalGraph

/-- Whether some records are those of the objects of a kind that are there, once each and in store
    order. -/
structure Store.ListsLive (s : Store) (kind : ObjectKind) (rs : List Record) : Prop where
  mem_iff : ∀ r, r ∈ rs ↔ s.find? r.id = some r ∧ r.kind = kind ∧ r.isLive
  once : (rs.map Record.id).Nodup
  order : (rs.map Record.id).Sublist (s.order.get kind)

/-- Whether a document shows a slot. -/
def Slot.ShownBy (s : Slot) (j : Json) : Prop :=
  ∃ properties, j.IsObjectOf [("signal", encode s.signal), ("properties", properties)] ∧
    s.properties.ShownBy properties

/-- Whether members show what an object is wired to. -/
inductive Wiring.ShownBy : Wiring → List (String × Json) → Prop
  | device (synced : Timetag) :
      ShownBy (.device synced) [("synced", (encode synced.seconds).normalize)]
  | signal (device : ObjectId) (pool : Pool) :
      ShownBy (.signal device pool)
        [("device", encode device), ("instances", (encode pool.slots).normalize)]
  | map {sources : List Slot} {destination : Slot} {items : List Json} {goal : Json}
      (starts : List.Forall₂ Slot.ShownBy sources items) (ends : destination.ShownBy goal)
      (isLocal : Bool) :
      ShownBy (.map sources destination isLocal)
        [("sources", .array items), ("destination", goal), ("local", .bool isLocal)]
  | link (first second : ObjectId) :
      ShownBy (.link first second) [("devices", .array [encode first, encode second])]

/-- Whether a document shows a record. -/
def Record.ShownBy (r : Record) (j : Json) : Prop :=
  ∃ properties wired, j.IsObjectOf
      ([("id", encode r.id), ("status", encode r.status), ("properties", properties)] ++ wired) ∧
    r.properties.ShownBy properties ∧ r.wiring.ShownBy wired

/-- Whether a document shows a store: an object with a list for each kind, and in it all objects of
    the kind that are there. -/
def Store.ShownBy (s : Store) (j : Json) : Prop :=
  ∃ lists : ObjectKind → List Json,
    j.IsObjectOf (ObjectKind.all.map fun kind => (Export.listName kind, .array (lists kind))) ∧
      ∀ kind, ∃ rs, s.ListsLive kind rs ∧ List.Forall₂ Record.ShownBy rs (lists kind)

/-! ## Store order -/

namespace Store

variable {s : Store} {kind : ObjectKind}

end Store

/-! ## Documents -/

namespace Export

variable {T : Table → Prop} {s : Store} {r : Record}

end Export

end SignalGraph
