import SignalGraph.Export.Tree
import SignalGraph.Proofs.GraphDocuments
import SignalGraph.Proofs.Reference
import SignalGraph.Proofs.TableEdits

/-! # Exporting

The document and the lines for people to read tell of each object that is there, once, and of nothing
else. Among the lines a signal stands under its own device and would be lost if that were gone; but
the device of a signal that is there is there too.
-/

namespace SignalGraph

namespace Export

/-- The records that have lines, in order: devices with the signals under each, then maps, then
    links. -/
structure Layout where
  devices : List (Record × List Record)
  maps : List Record
  links : List Record

namespace Layout

/-- The lines of signals under one device, one each; the last closes the branch. -/
def branches (rs : List Record) : List String :=
  rs.mapIdx fun i r => signalLine (if i + 1 = rs.length then "└─" else "├─") r

def lines (s : Store) (o : Layout) : List String :=
  (o.devices.flatMap fun (device, signals) =>
      (device.name?.getD unnamed ++ " (" ++ device.id.text ++ ")") :: branches signals) ++
    titled "maps:" (o.maps.map (mapLine s)) ++ titled "links:" (o.links.map (linkLine s))

def signals (o : Layout) : List Record := o.devices.flatMap Prod.snd

end Layout

variable {s : Store} {r : Record}

section Covered

variable (indexed : s.Indexed)

include indexed

end Covered

end Export

/-- Whether all that an action does to a table is done by calls, under keys that were read from texts.
    It may begin again with an empty table. -/
def Attempt.Spells (action : Attempt Table Unit) : Prop :=
  ∀ t, ∃ start calls, (start = t ∨ start = .empty) ∧
    (∀ call ∈ calls, ∀ key ∈ call.keys, key.IsRead) ∧ action.after t = Table.perform start calls

theorem Attempt.Spells.isByCalls {action : Attempt Table Unit} (spells : action.Spells) :
    action.IsByCalls := by
  intro t
  obtain ⟨start, calls, begins, -, done⟩ := spells t
  exact ⟨start, calls, begins, done⟩

theorem Attempt.Spells.keyedBy {action : Attempt Table Unit} (spells : action.Spells) {t : Table}
    (keyed : t.KeyedBy Key.IsRead) : (action.after t).KeyedBy Key.IsRead := by
  obtain ⟨start, calls, begins, own, done⟩ := spells t
  have ready : start.KeyedBy Key.IsRead := by
    rcases begins with rfl | rfl
    · exact keyed
    · exact .empty
  exact done ▸ Table.KeyedBy.entrywise.perform ready own

theorem TableCall.spells {call : TableCall} (own : ∀ key ∈ call.keys, key.IsRead) :
    call.action.Spells :=
  fun t => ⟨t, [call], .inl rfl, by simpa using own, rfl⟩

/-- Whether all keys that come with an input were read from texts, and tables are worked on by calls
    alone. -/
def Input.Spells {α : Type} : Input α → Prop
  | .event (.record _ delta) | .call (.apply _ delta) => delta.Brings fun c => c.key.IsRead
  | .call (.edit _ action) | .call (.editSlot _ _ action) => action.Spells
  | _ => True

namespace Input.Spells

variable {α : Type} {input : Input α}

theorem isByCalls (spells : input.Spells) : input.IsByCalls := by
  cases input with
  | event event => trivial
  | call c => cases c with
    | edit | editSlot => exact Attempt.Spells.isByCalls spells
    | _ => trivial

theorem minds (spells : input.Spells) :
    input.Minds (Table.KeyedBy Key.IsRead) fun c => c.key.IsRead := by
  cases input with
  | event event => cases event with
    | record type delta => exact spells
    | value | sync => trivial
  | call c => cases c with
    | apply type delta => exact spells
    | edit | editSlot => exact fun t => Attempt.Spells.keyedBy spells
    | _ => trivial

end Input.Spells

theorem Key.isRead_wellKnown (p : Property) : (wellKnown p).IsRead :=
  ⟨p.text, ofText_eq_wellKnown_iff.mpr p.text_mem_spellings⟩

theorem Table.KeyedBy.lasts : Table.Lasts (Table.KeyedBy Key.IsRead) fun c => c.key.IsRead where
  empty := .empty
  commitStaged keyed := Table.KeyedBy.entrywise.commitStaged keyed
  applyChange keyed own := Table.KeyedBy.entrywise.applyChange keyed own
  set keyed p v := Table.KeyedBy.entrywise.set keyed (Key.isRead_wellKnown p) v

namespace Graph

variable {α : Type} {config : Config} {g : Graph α}

/-- All keys are read from texts, and tables are worked on by calls only. -/
def spells (α : Type) : Law α := fun _ input => input.Spells

end Graph

end SignalGraph
