import SignalGraph.Proofs.Layers
import SignalGraph.Proofs.Records

/-! # Relations

What a record is wired to stands in it twice: in its wiring, which the graph goes by, and in its
properties, which anyone can ask for. The two are read from a delta by different rules. This module
says when they come out the same, and that nothing else pulls them apart.
-/

namespace SignalGraph

/-- The properties that say what an object of a kind is wired to. -/
def ObjectKind.relations : ObjectKind → List Property
  | device => []
  | signal => [.device]
  | map => [.sources, .destination]
  | link => [.devices]

theorem ObjectKind.relations_subset {kind : ObjectKind} {p : Property}
    (relation : p ∈ kind.relations) : p ∈ Property.relations := by
  cases kind <;> revert p <;> decide

def Ties.ids? : Ties → Property → Option (List ObjectId)
  | .signal owner, .device => some [owner]
  | .map sources _, .sources => some sources
  | .map _ destination, .destination => some [destination]
  | .link first second, .devices => some [first, second]
  | _, _ => none

theorem Ties.ids?_isSome {t : Ties} {p : Property} (relation : p ∈ t.kind.relations) :
    (t.ids? p).isSome := by
  cases t with
  | device => exact absurd relation List.not_mem_nil
  | signal | link => exact List.mem_singleton.mp relation ▸ rfl
  | map =>
      rcases List.mem_cons.mp relation with rfl | last
      · rfl
      · exact List.mem_singleton.mp last ▸ rfl

/-- What a diff wires a new object to: the identities that it sets last, and of those the first
    alone where only one is asked for. -/
def Diff.named? (d : Diff) (p : Property) : Option (List ObjectId) :=
  ((d.get? (.wellKnown p)).bind Value.toIds?).map fun ids =>
    if p.rule.length = some 1 then ids.take 1 else ids

/-! ## Records -/

namespace Record

variable {r s : Record} {p : Property}

/-- Whether a record of an object that is there and that the network has confirmed says in its
    properties what it is wired to. -/
def InStep (r : Record) : Prop :=
  r.isLive → r.isLocal = false → ∀ p ∈ r.kind.relations,
    ∃ ids, r.boundIds? p = some ids ∧ r.properties.ids? p = some ids

def Tidy (r : Record) : Prop := r.properties.Unique

theorem boundIds?_of_mem (relation : p ∈ r.kind.relations) :
    r.boundIds? p = r.wiring.ties.ids? p := by
  simp only [kind] at relation
  cases wiring : r.wiring <;> rw [wiring] at relation
  case device => exact absurd relation List.not_mem_nil
  case signal =>
    obtain rfl := List.mem_singleton.mp relation
    simp only [boundIds?, wiring, Wiring.ties, Ties.ids?]
  case map =>
    rcases List.mem_cons.mp relation with rfl | last
    · simp only [boundIds?, wiring, Wiring.ties, Ties.ids?]
    · obtain rfl := List.mem_singleton.mp last
      simp only [boundIds?, wiring, Wiring.ties, Ties.ids?]
  case link =>
    obtain rfl := List.mem_singleton.mp relation
    simp only [boundIds?, wiring, Wiring.ties, Ties.ids?]

theorem boundIds?_isSome (relation : p ∈ r.kind.relations) : (r.boundIds? p).isSome := by
  have same : r.wiring.ties.kind = r.kind := r.wiring.kind_ties
  exact boundIds?_of_mem relation ▸ Ties.ids?_isSome (same ▸ relation)

/-- A confirmed record in the frame of one that is there is in step if its properties say what that
    one is bound to. -/
theorem inStep_iff (frame : s.frame = r.frame) (live : r.isLive) (confirmed : s.isLocal = false) :
    s.InStep ↔ ∀ p ∈ r.kind.relations, s.properties.ids? p = r.boundIds? p := by
  have kind : s.kind = r.kind := by rw [← frame_kind, frame, frame_kind]
  have ties : s.wiring.ties = r.wiring.ties := congrArg Frame.ties frame
  have bound {p : Property} (relation : p ∈ r.kind.relations) :
      s.boundIds? p = r.boundIds? p := by
    rw [boundIds?_of_mem relation, boundIds?_of_mem (kind ▸ relation), ties]
  constructor
  · intro inStep p relation
    obtain ⟨ids, own, said⟩ := inStep ((congrArg Frame.isLive frame).trans live) confirmed p
      (kind ▸ relation)
    rw [said, ← own, bound relation]
  · intro stated _ _ p relation
    obtain ⟨ids, own⟩ := Option.isSome_iff_exists.mp (boundIds?_isSome relation)
    exact ⟨ids, own, (stated p (kind ▸ relation)).trans ((bound (kind ▸ relation)).symm.trans own)⟩

theorem inStep_steady : Steady InStep := by
  constructor
  case fills =>
    intro r filled fills inStep live confirmed
    have liveBefore : r.isLive := (congrArg Frame.isLive fills.frame).symm.trans live
    have before := (inStep_iff rfl liveBefore (fills.isLocal.symm.trans confirmed)).mp inStep
    refine (inStep_iff fills.frame liveBefore confirmed).mpr ?_ live confirmed
    exact fills.properties ▸ before
  case gone =>
    intro r gone same terminal _ live
    exact absurd (terminal.symm.trans live) (by simp)
  case blank =>
    intro r device _ _ _ p relation
    rw [device] at relation
    exact absurd relation List.not_mem_nil

theorem tidy_steady : Steady Tidy := by
  constructor
  case fills =>
    intro r filled fills tidy
    rw [Tidy, fills.properties]
    exact tidy
  case gone =>
    intro r gone same _ tidy
    rw [Tidy, same]
    exact tidy
  case blank =>
    intro r _ blank
    rw [Tidy, blank]
    exact .empty

/-- Where nothing is staged for a relation, readers see what the record is wired to. -/
theorem InStep.property? (inStep : r.InStep) (live : r.isLive) (confirmed : r.isLocal = false)
    (relation : p ∈ r.kind.relations) (unstaged : r.properties.isStaged (.wellKnown p) = false) :
    (r.property? (.wellKnown p)).bind Value.toIds? = r.boundIds? p := by
  have other : p ≠ .id := by
    rintro rfl
    cases kind : r.kind <;> simp [kind, ObjectKind.relations] at relation
  obtain ⟨ids, bound, said⟩ := inStep live confirmed p relation
  rw [bound, ← said, Record.property?, if_neg (by simpa using other), Table.ids?, Table.get?,
    Table.committed?]
  cases found : r.properties.entry? (.wellKnown p) with
  | none => rfl
  | some e =>
      obtain ⟨kept, empty⟩ : e.removed = false ∧ e.staged = none := by
        simpa [Table.isStaged, found, TableEntry.isStaged] using unstaged
      simp [TableEntry.visible?, kept, empty]

end Record

/-! ## What deltas say -/

namespace Diff

variable {d : Diff} {p : Property} {ids : List ObjectId}

theorem get?_of_relatedIds (related : d.relatedIds p = .ok ids) :
    (d.get? (.wellKnown p)).bind Value.toIds? = some ids := by
  simp only [relatedIds] at related
  split at related
  · rename_i ids' set
    exact set.trans (congrArg some (Except.ok.inj related))
  · cases related

theorem get?_of_relatedId {id : ObjectId} (related : d.relatedId p = .ok id) :
    ∃ rest, (d.get? (.wellKnown p)).bind Value.toIds? = some (id :: rest) := by
  simp only [relatedId, bind, Except.bind] at related
  cases all : d.relatedIds p with
  | error e => simp [all] at related
  | ok ids =>
      cases ids with
      | nil => simp [all] at related
      | cons first rest =>
          obtain rfl : first = id := by simpa [all, pure, Except.pure] using related
          exact ⟨rest, get?_of_relatedIds all⟩

end Diff

namespace Graph

variable {α : Type} {g : Graph α} {delta : Delta} {wiring : Wiring} {r : Record}

theorem Says.kind (speaks : Says delta wiring) : wiring.kind = delta.kind := by
  cases speaks with
  | device kind | signal kind | map kind | link kind => exact kind.symm

/-- A new object is wired to what the delta names. -/
theorem Says.ids? (speaks : Says delta wiring) {p : Property}
    (relation : p ∈ delta.kind.relations) : wiring.ties.ids? p = delta.diff.named? p := by
  cases speaks with
  | device kind =>
      rw [kind] at relation
      exact absurd relation List.not_mem_nil
  | signal kind pool related =>
      rw [kind] at relation
      obtain rfl := List.mem_singleton.mp relation
      obtain ⟨rest, named⟩ := Diff.get?_of_relatedId related
      rw [Diff.named?, named]
      rfl
  | map kind start goal =>
      rw [kind] at relation
      rcases List.mem_cons.mp relation with rfl | last
      · rw [ties_map_bare, Diff.named?, Diff.get?_of_relatedIds start]
        rfl
      · obtain rfl := List.mem_singleton.mp last
        obtain ⟨rest, named⟩ := Diff.get?_of_relatedId goal
        rw [ties_map_bare, Diff.named?, named]
        rfl
  | link kind related =>
      rw [kind] at relation
      obtain rfl := List.mem_singleton.mp relation
      rw [Diff.named?, Diff.get?_of_relatedIds related]
      rfl

/-- A new record is in step if all changes of its delta, in order, leave what the delta names. -/
theorem recordOf_inStep_iff (speaks : Says delta wiring) :
    (g.recordOf delta wiring).InStep ↔
      ∀ p ∈ delta.kind.relations, delta.diff.settle p none = delta.diff.named? p := by
  rw [Record.inStep_steady.fills_iff (recordOf_fills g delta wiring),
    Record.inStep_iff rfl rfl (by cases speaks <;> rfl)]
  simp only [Table.ids?_applyDiff]
  have kind : Record.kind { Record.make delta.id wiring with
      properties := (Table.empty.applyDiff delta.diff).1 } = delta.kind := speaks.kind
  rw [kind]
  apply forall₂_congr
  intro p relation
  rw [Record.boundIds?_of_mem (kind.symm ▸ relation), ← speaks.ids? relation]
  rfl

/-- A record into which a delta is merged is in step if all changes of the delta, in order, leave
    what it is bound to. -/
theorem mergedRecord_inStep_iff (live : r.isLive) :
    (g.mergedRecord r delta).1.InStep ↔ ∀ p ∈ r.kind.relations,
      delta.diff.settle p (r.properties.ids? p) = r.boundIds? p := by
  obtain ⟨frame, properties, confirmed⟩ := mergedRecord_spec g r delta
  simp only [Record.inStep_iff frame live confirmed, properties, Table.ids?_applyDiff]

/-- Changes that say relations again do not change what they come to. -/
theorem settle_of_restates (restates : delta.diff.changes.forM r.checkRelation = .ok ())
    {p : Property} (relation : p ∈ Property.relations) {ids : List ObjectId}
    (bound : r.boundIds? p = some ids) : delta.diff.settle p (some ids) = some ids := by
  refine List.foldlRecOn delta.diff.changes _ (motive := (· = some ids)) rfl ?_
  rintro _ rfl c member
  have check := (forM_eq_ok_iff _ _).mp restates c member
  by_cases about : c.key = .wellKnown p
  · simp only [Record.checkRelation, about, relation, not_true_eq_false, ↓reduceIte, bound] at check
    cases c with
    | set key v =>
        have same : v.toIds? = some ids := Decidable.byContradiction fun different => by
          simp [different] at check
        rw [Change.settle, same, ite_self]
    | remove key => simp at check
  · cases c with
    | set key v => exact if_neg fun same => about same.1
    | remove key => exact if_neg about

end Graph

end SignalGraph
