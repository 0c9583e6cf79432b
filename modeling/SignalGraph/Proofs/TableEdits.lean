import SignalGraph.Proofs.Simulation
import SignalGraph.Proofs.TableInvariants

/-! # Edits of tables by the owner

The owner of a graph is handed the tables of records and of their slots to work on. As long as that
is done by what can be done to a table, each of them stands for two maps, whatever else comes to the
graph.
-/

namespace SignalGraph

/-- Whether all that an action does to a table is done by calls. It may begin again with an empty
    table. -/
def Attempt.IsByCalls (action : Attempt Table Unit) : Prop :=
  ∀ t, ∃ start calls, (start = t ∨ start = .empty) ∧ action.after t = Table.perform start calls

theorem Attempt.IsByCalls.sound {action : Attempt Table Unit} (byCalls : action.IsByCalls) {t : Table}
    (sound : t.Sound) : (action.after t).Sound := by
  obtain ⟨start, calls, begins, done⟩ := byCalls t
  have ready : start.Sound := by
    rcases begins with rfl | rfl
    · exact sound
    · exact .empty
  exact done ▸ (ready.perform calls).1

theorem TableCall.isByCalls (call : TableCall) : call.action.IsByCalls :=
  fun t => ⟨t, [call], .inl rfl, rfl⟩

/-- Whether tables are worked on, if at all, by calls. -/
def Input.IsByCalls {α : Type} : Input α → Prop
  | .call (.edit _ action) | .call (.editSlot _ _ action) => action.IsByCalls
  | _ => True

/-- What changes come does not matter to tables that stand for two maps. -/
theorem Table.Sound.lasts : Table.Lasts Table.Sound fun _ => True where
  empty := .empty
  commitStaged sound := sound.layers_commitStaged.2
  applyChange sound _ := (sound.applyChange _).2
  set sound p v := (sound.set (.wellKnown p) v).sound

theorem Input.IsByCalls.minds {α : Type} {input : Input α} (byCalls : input.IsByCalls) :
    input.Minds Table.Sound fun _ => True := by
  have brings (delta : Delta) : delta.Brings fun _ => True :=
    ⟨fun _ _ => trivial, fun _ _ _ _ => trivial⟩
  cases input with
  | event event => cases event with
    | record type delta => exact brings delta
    | value | sync => trivial
  | call c => cases c with
    | apply type delta => exact brings delta
    | edit | editSlot => exact fun t => byCalls.sound
    | _ => trivial

/-- Whether each table of a record is sound, its own and that of each slot. -/
structure Record.Sound (r : Record) : Prop where
  properties : r.properties.Sound
  slots : ∀ location slot, r.slot? location = some slot → slot.properties.Sound

theorem Record.sound_iff_tables {r : Record} : r.Sound ↔ r.Tables Table.Sound :=
  ⟨fun sound => ⟨sound.properties, sound.slots⟩, fun tables => ⟨tables.properties, tables.slots⟩⟩

namespace Graph

variable {α : Type} {g h : Graph α}

/-- Whether all tables of a graph are sound. -/
def IsSound (g : Graph α) : Prop := g.store.All Record.Sound

theorem isSound_iff_tables : g.IsSound ↔ g.Tables Table.Sound := by
  simp only [IsSound, Tables, Store.All, Record.sound_iff_tables]

/-- Tables are worked on by calls only. -/
def byCalls (α : Type) : Law α := fun _ input => input.IsByCalls

/-- As long as tables are worked on by calls, all of them are sound. -/
theorem Run.isSound {said : List Notification} (run : Run (byCalls α) g said h) (sound : g.IsSound) :
    h.IsSound := by
  rw [isSound_iff_tables] at sound ⊢
  exact run.tables Table.Sound.lasts (fun _ _ may => may.minds) sound

/-- A graph that there can be as long as tables are worked on by calls. -/
def Handled (config : Config) (g : Graph α) : Prop :=
  ∃ wire said, Run (byCalls α) (make wire config) said g

namespace Handled

variable {config : Config}

theorem make (wire : Wire) (config : Config) : Handled config (make wire config : Graph α) :=
  ⟨wire, [], .refl _⟩

theorem calls (handled : Handled config g) {cs : List (Call α)}
    (byCalls : ∀ c ∈ cs, (Input.call c).IsByCalls) : Handled config (cs.foldl Graph.call g) := by
  obtain ⟨wire, said, run⟩ := handled
  exact ⟨wire, run.calls fun _ => byCalls⟩

theorem reachable (handled : Handled config g) : Reachable config g := by
  obtain ⟨wire, said, run⟩ := handled
  exact ⟨wire, said, run.any⟩

theorem isSound (handled : Handled config g) : g.IsSound := by
  obtain ⟨wire, said, run⟩ := handled
  exact run.isSound .empty

end Handled

end Graph

end SignalGraph
