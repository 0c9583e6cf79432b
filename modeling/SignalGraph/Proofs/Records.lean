import SignalGraph.Proofs.Index

/-! # What holds of all records

A property of single records that does not feel what fills frames, and that holds of records of
objects gone and of devices of which nothing is said. Such a property can be lost only where
something is written to the properties of a record, and there it is enough to look at that record.
-/

namespace SignalGraph

def Store.All (s : Store) (P : Record → Prop) : Prop := ∀ id r, s.find? id = some r → P r

/-- Whether a property of records rests on wiring and properties of objects that are there. -/
structure Record.Steady (P : Record → Prop) : Prop where
  fills : ∀ {r filled : Record}, r.Fills filled → P r → P filled
  gone : ∀ {r gone : Record}, gone.properties = r.properties → gone.isLive = false → P r → P gone
  blank : ∀ {r : Record}, r.kind = .device → r.properties = .empty → P r

variable {P : Record → Prop}

theorem Record.Steady.fills_iff (steady : Record.Steady P) {r filled : Record}
    (fills : r.Fills filled) : P filled ↔ P r :=
  ⟨steady.fills fills.symm, steady.fills fills⟩

namespace Store.All

variable {s : Store} {id : ObjectId} {r : Record} {f : Record → Record}

theorem empty : Store.All .empty P := fun id r held => by simp at held

theorem modify (all : s.All P) (held : ∀ r, s.find? id = some r → P r → P (f r)) :
    (s.modify id f).All P := by
  intro other r found
  rw [find?_modify] at found
  split at found
  · obtain ⟨r', held', rfl⟩ := Option.map_eq_some_iff.mp found
    exact held r' held' (all id r' held')
  · exact all other r found

/-- Where one record is changed, it is enough to look at that. -/
theorem modify_iff (all : s.All P) (held : s.find? id = some r) :
    (s.modify id f).All P ↔ P (f r) := by
  refine ⟨fun all => all id (f r) ?_, fun holds => all.modify ?_⟩
  · rw [find?_modify, if_pos rfl, held]
    rfl
  · intro r' held' _
    exact Option.some.inj (held.symm.trans held') ▸ holds

theorem discard (all : s.All P) (id : ObjectId) : (s.discard id).All P := by
  intro other r held
  rw [find?_discard] at held
  split at held
  · cases held
  · exact all other r held

theorem insert_iff (all : s.All P) (r : Record) : (s.insert r).All P ↔ P r := by
  refine ⟨fun all => all r.id r ?_, ?_⟩
  · rw [find?_insert, if_pos rfl]
  · intro holds id r' held
    rw [find?_insert] at held
    split at held
    · exact Option.some.inj held ▸ holds
    · exact all id r' held

theorem dropAll (all : s.All P) (rs : List Record) : (s.dropAll rs).All P := by
  intro id r held
  rw [find?_dropAll] at held
  split at held
  · cases held
  · exact all id r held

end Store.All

namespace RecordChange.Does

variable {α : Type} {g h : Graph α} {d : RecordChange} {said : List Notification}

theorem all_iff (steady : Record.Steady P) (does : d.Does g said h) (filling : d.IsFilling) :
    h.store.All P ↔ g.store.All P := by
  rw [does.store]
  cases d with
  | keep => rfl
  | fill id f =>
      refine ⟨?_, fun all => all.modify ?_⟩
      · intro all other r held
        by_cases here : id = other
        · subst here
          refine steady.fills (does.guard r held).1.symm (all id (f r) ?_)
          rw [RecordChange.store, Store.find?_modify, if_pos rfl, held]
          rfl
        · exact all other r (by rw [RecordChange.store, Store.find?_modify, if_neg here, held])
      · intro r held
        exact steady.fills (does.guard r held).1
  | edit | merge | commit | found | remove | evict => exact filling.elim

theorem all (steady : Record.Steady P) (does : d.Does g said h) (plain : d.IsPlain)
    (all : g.store.All P) : h.store.All P := by
  cases d with
  | keep | fill => exact (does.all_iff steady trivial).mpr all
  | found r =>
      exact does.store ▸ ((all.discard r.id).insert_iff r).mpr (steady.blank plain.1 plain.2)
  | remove id how =>
      have terminal : how.status.isTerminal := does.guard
      rw [does.store]
      refine Graph.removeWithin_keeps (R := fun g h => g.store.All P → h.store.All P)
        (fun quiet all => quiet.store ▸ all) (fun first second => second ∘ first)
        (fun g id all => all.modify fun r _ => steady.gone rfl ?_) 3 g id all
      simp [Record.isLive, terminal]
  | evict => exact does.store ▸ all.dropAll g.doomed
  | edit | merge | commit => exact plain.elim

end RecordChange.Does

namespace Graph

variable {α : Type} {g h : Graph α} {id : ObjectId} {r : Record} {delta : Delta}

theorem Leads.all_iff (steady : Record.Steady P) (leads : Leads RecordChange.IsFilling g h) :
    h.store.All P ↔ g.store.All P := by
  obtain ⟨said, changes⟩ := leads
  exact changes.keeps (P := fun k => k.store.All P ↔ g.store.All P)
    (fun _ _ _ _ filling does before => (does.all_iff steady filling).trans before) .rfl

theorem Leads.all (steady : Record.Steady P) (leads : Leads RecordChange.IsPlain g h)
    (all : g.store.All P) : h.store.All P := by
  obtain ⟨said, changes⟩ := leads
  exact changes.keeps (P := fun k => k.store.All P)
    (fun _ _ _ _ plain does => does.all steady plain) all

/-! ## Where something is written -/

theorem establish_all_iff (steady : Record.Steady P) (all : g.store.All P) (delta : Delta)
    (wiring : Wiring) : (g.establish delta wiring).store.All P ↔ P (g.recordOf delta wiring) :=
  ((establish_leads g delta wiring).all_iff steady).trans ((all.discard delta.id).insert_iff _)

theorem afterMerge_all_iff (steady : Record.Steady P) (all : g.store.All P)
    (held : g.store.find? delta.id = some r) (live : r.isLive) :
    (g.afterMerge r delta).store.All P ↔ P (g.mergedRecord r delta).1 :=
  ((afterMerge_leads held live).all_iff steady).trans (all.modify_iff held)

theorem editProperties_all_iff (all : g.store.All P) (held : g.store.find? id = some r)
    (live : r.isLive) (action : Attempt Table Unit) :
    ((editProperties id action).after g).store.All P ↔
      P { r with properties := action.after r.properties } := by
  rw [editProperties_after_of_isLive held live]
  exact all.modify_iff held

/-- Whether a push of a record goes out. -/
structure Pushes (g : Graph α) (id : ObjectId) (r : Record) : Prop where
  held : g.store.find? id = some r
  live : r.isLive
  some : r.stagedDelta.isEmpty = false
  taken : g.wire.failingSends = 0

theorem store_push (pushes : g.Pushes id r) :
    ((push id).after g).store = g.store.modify id Record.commitStaged := by
  obtain ⟨held, live, some, taken⟩ := pushes
  simp only [push, Attempt.after_bind, Attempt.current_apply, held, live, some, send, Wire.send,
    Wire.takeFailure, taken, Bool.not_true, Bool.false_eq_true, ↓reduceIte]
  rfl

theorem store_push_of_not (none : ∀ r, ¬ g.Pushes id r) :
    ((push id).after g).store = g.store := by
  simp only [push, Attempt.after_bind, Attempt.current_apply]
  cases held : g.store.find? id with
  | none => rfl
  | some r =>
      cases live : r.isLive with
      | false =>
          simp only [live, Bool.not_false, ↓reduceIte, Attempt.after_bind]
          rfl
      | true =>
          simp only [live, Bool.not_true, Bool.false_eq_true, ↓reduceIte]
          cases nothing : r.stagedDelta.isEmpty with
          | true => rfl
          | false =>
              simp only [Bool.false_eq_true, ↓reduceIte, Attempt.after_bind, send, Wire.send,
                Wire.takeFailure]
              cases fails : g.wire.failingSends with
              | zero => exact absurd ⟨held, live, nothing, fails⟩ (none r)
              | succ n => rfl

theorem newMap_all (all : g.store.All P) {sources : List ObjectId} {destination : ObjectId}
    (holds : ∀ id properties, stageEnds sources destination = .ok properties →
      P (localMap id sources destination properties)) :
    ((newMap sources destination).after g).store.All P := by
  obtain ⟨localCounter, same | ⟨id, properties, -, -, staged, made⟩⟩ :=
    newMap_cases sources destination g
  · exact same ▸ all
  · exact made ▸ (all.insert_iff _).mpr (holds id properties staged)

end Graph

end SignalGraph
