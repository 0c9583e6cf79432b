import SignalGraph.Proofs.RecordPools
import SignalGraph.Proofs.Run

/-! # Elementary changes to the records of a graph

All that operations do to the records of a graph comes down to a few elementary changes. An operation
is a chain of them, so that what each change keeps every operation keeps.
-/

namespace SignalGraph

/-- What is done to the records of a graph in one step. -/
inductive RecordChange where
  | keep
  | fill (id : ObjectId) (f : Record → Record)
  | edit (id : ObjectId) (f : Table → Table)
  | merge (delta : Delta)
  | commit (id : ObjectId)
  | found (r : Record)
  | remove (id : ObjectId) (how : Lifecycle)
  | evict

namespace RecordChange

variable {α : Type}

def store (g : Graph α) : RecordChange → Store
  | keep => g.store
  | fill id f => g.store.modify id f
  | edit id f => g.store.modify id fun r => { r with properties := f r.properties }
  | merge delta =>
    match g.store.find? delta.id with
    | some r => g.store.modify delta.id fun _ => (g.mergedRecord r delta).1
    | none => g.store
  | commit id => g.store.modify id Record.commitStaged
  | found r => (g.store.discard r.id).insert r
  | remove id how => (g.remove id how).1.store
  | evict => g.evict.store

/-- What has been made sure of beforehand. -/
def Guard (g : Graph α) : RecordChange → Prop
  | fill id f => ∀ r, g.store.find? id = some r → r.Fills (f r) ∧ r.Restocks (f r)
  | merge delta => ∃ r, g.store.find? delta.id = some r ∧ r.isLive ∧ r.kind = delta.kind ∧
      delta.diff.changes.forM r.checkRelation = .ok ()
  | found r => r.isLive ∧ g.store.IsVacant r.id ∧
      g.store.Fits g.config.maxMapSources r.wiring.ties ∧ r.Stocked g.config.maxInstances
  | remove _ how => how.status.isTerminal
  | keep | edit _ _ | commit _ | evict => True

def creates : RecordChange → List ObjectId
  | found r => [r.id]
  | _ => []

def IsInner : RecordChange → Prop
  | keep | fill _ _ | edit _ _ | merge _ | commit _ => True
  | found _ | remove _ _ | evict => False

/-- Whether a change only fills frames and leaves properties alone. -/
def IsFilling : RecordChange → Prop
  | keep | fill _ _ => True
  | edit _ _ | merge _ | commit _ | found _ | remove _ _ | evict => False

/-- Whether a change leaves alone what the properties of records say, but for new devices of which
    nothing is said. -/
def IsPlain : RecordChange → Prop
  | edit _ _ | merge _ | commit _ => False
  | found r => r.kind = .device ∧ r.properties = .empty
  | keep | fill _ _ | remove _ _ | evict => True

theorem IsFilling.isPlain : (d : RecordChange) → d.IsFilling → d.IsPlain
  | keep, filling | fill _ _, filling => filling

/-- Whether a change is what happened between two graphs, and what it said. -/
structure Does (d : RecordChange) (g : Graph α) (said : List Notification) (h : Graph α) : Prop where
  guard : d.Guard g
  store : h.store = d.store g
  config : h.config = g.config
  notifications : h.notifications = g.notifications ++ said
  created : created said = d.creates

theorem IsFilling.isInner : {d : RecordChange} → d.IsFilling → d.IsInner
  | keep, filling | fill _ _, filling => filling

theorem IsInner.creates : {d : RecordChange} → d.IsInner → d.creates = []
  | keep, _ | fill _ _, _ | edit _ _, _ | merge _, _ | commit _, _ => rfl

theorem IsInner.sameOutline {d : RecordChange} {g h : Graph α} {said : List Notification}
    (inner : d.IsInner) (does : d.Does g said h) : g.store.SameOutline h.store := by
  rw [does.store]
  cases d with
  | keep => exact .refl _
  | fill id f => exact Store.sameOutline_modify fun r held => (does.guard r held).1.frame
  | edit id f => exact Store.sameOutline_modify fun _ _ => rfl
  | merge delta =>
      obtain ⟨r, held, -⟩ := does.guard
      simp only [store, held]
      exact Store.sameOutline_modify fun r' held' =>
        Option.some.inj (held.symm.trans held') ▸ (g.mergedRecord_spec r delta).1
  | commit id => exact Store.sameOutline_modify fun r _ => r.frame_commitStaged
  | found | remove | evict => exact inner.elim

end RecordChange

inductive RecordChanges {α : Type} (sort : RecordChange → Prop) :
    Graph α → List Notification → Graph α → Prop
  | done (g : Graph α) : RecordChanges sort g [] g
  | next {d : RecordChange} {g h k : Graph α} {said more : List Notification} (fits : sort d)
      (does : d.Does g said h) (rest : RecordChanges sort h more k) :
      RecordChanges sort g (said ++ more) k

namespace RecordChanges

variable {α : Type} {sort other : RecordChange → Prop} {g h k : Graph α}
  {said more : List Notification}

theorem one {d : RecordChange} (fits : sort d) (does : d.Does g said h) :
    RecordChanges sort g said h :=
  List.append_nil said ▸ RecordChanges.next fits does (.done h)

theorem trans (first : RecordChanges sort g said h) (second : RecordChanges sort h more k) :
    RecordChanges sort g (said ++ more) k := by
  induction first with
  | done g => exact second
  | next fits does _ ih => exact List.append_assoc .. ▸ .next fits does (ih second)

theorem mono (weaker : ∀ d, sort d → other d) (changes : RecordChanges sort g said h) :
    RecordChanges other g said h := by
  induction changes with
  | done g => exact .done g
  | next fits does _ ih => exact .next (weaker _ fits) does ih

theorem notifications (changes : RecordChanges sort g said h) :
    h.notifications = g.notifications ++ said := by
  induction changes with
  | done g => exact (List.append_nil _).symm
  | next _ does _ ih => rw [ih, does.notifications, List.append_assoc]

theorem news_eq (changes : RecordChanges sort g said h) : g.news h = said := by
  rw [Graph.news, changes.notifications, List.drop_left]

theorem config (changes : RecordChanges sort g said h) : h.config = g.config := by
  induction changes with
  | done g => rfl
  | next _ does _ ih => exact ih.trans does.config

/-- What each change of a sort keeps, a chain of them keeps. -/
theorem keeps {P : Graph α → Prop} (changes : RecordChanges sort g said h)
    (each : ∀ d g said h, sort d → d.Does (α := α) g said h → P g → P h) (start : P g) : P h := by
  induction changes with
  | done g => exact start
  | next fits does _ ih => exact ih (each _ _ _ _ fits does start)

end RecordChanges

end SignalGraph
