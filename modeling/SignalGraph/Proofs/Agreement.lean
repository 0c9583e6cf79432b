import SignalGraph.Proofs.Relations

/-! # Agreement of wiring and properties

When the wiring of records and what their properties say of it stay in step. Most of what comes to a
graph keeps them so on its own account. What is left are deltas that make a record or confirm one
that was made here, and pushes of what was staged for a relation.
-/

namespace SignalGraph

variable {α : Type}

/-- Whether readers see the relations of a record as it is bound, edits that wait included. -/
def Record.ShowsBound (r : Record) : Prop :=
  ∀ p ∈ r.kind.relations, r.properties.seenIds? p = r.boundIds? p

/-- Whether properties are worked on, if at all, by what can be done to a table here. -/
def Input.IsByHand : Input α → Prop
  | .call (.edit _ action) => ∃ edit : TableEdit, edit.action = action
  | _ => True

namespace Graph

variable {g h : Graph α} {id : ObjectId} {r : Record} {delta : Delta}

def InStep (g : Graph α) : Prop := g.store.All Record.InStep

def Tidy (g : Graph α) : Prop := g.store.All Record.Tidy

/-- Whether a delta that is taken comes to what the object is bound to, relation by relation: for a
    new object what the delta itself names, for a map made here what it was made with. -/
def Agrees (g : Graph α) (delta : Delta) : Prop :=
  (∃ how h, upsert delta g = .ok how h) →
    (g.store.IsVacant delta.id →
      ∀ p ∈ delta.kind.relations, delta.diff.settle p none = delta.diff.named? p) ∧
    ∀ r, g.store.find? delta.id = some r → r.isLive → r.isLocal →
      ∀ p ∈ r.kind.relations, delta.diff.settle p (r.properties.ids? p) = r.boundIds? p

/-- Whether what comes to a graph has nothing confirmed for relations but what their objects are
    bound to. -/
def Confirms (g : Graph α) : Input α → Prop
  | .event (.record type delta) | .call (.apply type delta) =>
    type = .announce ∨ type = .update → g.Agrees delta
  | .call (.edit id action) =>
    ∃ edit : TableEdit, edit.action = action ∧ ∀ r, g.store.find? id = some r → r.isLive →
      r.isLocal = false → edit.confirms r.properties → r.ShowsBound
  | .call (.push id) => ∀ r, g.Pushes id r → r.isLocal = false → r.ShowsBound
  | _ => True

/-! ## Deltas -/

theorem created_inStep_iff {wiring : Wiring} (inStep : g.InStep)
    (resolves : Resolves delta g wiring h) : (h.establish delta wiring).InStep ↔
      ∀ p ∈ delta.kind.relations, delta.diff.settle p none = delta.diff.named? p :=
  (establish_all_iff Record.inStep_steady (resolves.leads.all Record.inStep_steady inStep) delta
    wiring).trans (recordOf_inStep_iff resolves.speaks)

theorem merged_inStep_iff (inStep : g.InStep) (held : g.store.find? delta.id = some r)
    (live : r.isLive) : (g.afterMerge r delta).InStep ↔
      ∀ p ∈ r.kind.relations, delta.diff.settle p (r.properties.ids? p) = r.boundIds? p :=
  (afterMerge_all_iff Record.inStep_steady inStep held live).trans (mergedRecord_inStep_iff live)

/-- A confirmed record was in step, and its checks let only restatements through. -/
theorem settle_of_isLocal_eq_false (inStep : r.InStep) (live : r.isLive)
    (confirmed : r.isLocal = false) (restates : delta.diff.changes.forM r.checkRelation = .ok ())
    {p : Property} (relation : p ∈ r.kind.relations) :
    delta.diff.settle p (r.properties.ids? p) = r.boundIds? p := by
  obtain ⟨ids, bound, said⟩ := inStep live confirmed p relation
  rw [said, bound]
  exact settle_of_restates restates (ObjectKind.relations_subset relation) bound

theorem upsert_inStep_iff (inStep : g.InStep) (delta : Delta) :
    ((upsert delta).after g).InStep ↔ g.Agrees delta := by
  have upserts := upsert_upserts delta g
  simp only [Attempt.after, Agrees]
  generalize upsert delta g = result at upserts
  cases upserts with
  | refused e => simpa using inStep
  | @created wiring h vacant resolves =>
      refine (created_inStep_iff inStep resolves).trans ⟨?_, ?_⟩
      · intro settled _
        refine ⟨fun _ => settled, ?_⟩
        intro r held live
        exact absurd ((vacant r held).symm.trans live) (by simp)
      · intro agrees
        exact (agrees ⟨_, _, rfl⟩).1 vacant
  | @merged r held live kind restates how =>
      refine (merged_inStep_iff inStep held live).trans
        ⟨fun settled _ => ⟨?_, ?_⟩, ?_⟩
      · intro vacant
        exact absurd ((vacant r held).symm.trans live) (by simp)
      · intro r' held' _ _
        exact Option.some.inj (held.symm.trans held') ▸ settled
      · intro agrees p relation
        cases isLocal : r.isLocal with
        | true => exact (agrees ⟨_, _, rfl⟩).2 r held live isLocal p relation
        | false =>
            exact settle_of_isLocal_eq_false (inStep delta.id r held) live isLocal restates relation

/-! ## Edits made here -/

theorem edited_inStep_iff (tidy : r.Tidy) (inStep : r.InStep) (live : r.isLive)
    (confirmed : r.isLocal = false) (edit : TableEdit) :
    Record.InStep { r with properties := edit.action.after r.properties } ↔
      (edit.confirms r.properties → r.ShowsBound) := by
  have stated := (Record.inStep_iff rfl live confirmed).mp inStep
  rw [Record.inStep_iff (s := { r with properties := edit.action.after r.properties }) (r := r) rfl
    live confirmed]
  simp only [TableEdit.ids?_after tidy]
  split
  · rename_i confirms
    exact ⟨fun shows _ => shows, fun shows => shows confirms⟩
  · rename_i here
    exact ⟨fun _ confirms => absurd confirms here, fun _ => stated⟩

theorem edit_inStep_iff (tidy : g.Tidy) (inStep : g.InStep) (id : ObjectId) (edit : TableEdit) :
    ((editProperties id edit.action).after g).InStep ↔ ∀ r, g.store.find? id = some r →
      r.isLive → r.isLocal = false → edit.confirms r.properties → r.ShowsBound := by
  rcases g.store.isVacant_or_isLive id with vacant | ⟨r, held, live⟩
  · rw [editProperties_after_of_isVacant vacant]
    refine ⟨?_, fun _ => inStep⟩
    intro _ r held live
    exact absurd ((vacant r held).symm.trans live) (by simp)
  · have edited := edited_inStep_iff (tidy id r held) (inStep id r held) live
    refine (editProperties_all_iff inStep held live edit.action).trans ⟨?_, ?_⟩
    · intro after r' held' _ confirmed
      obtain rfl := Option.some.inj (held.symm.trans held')
      exact (edited confirmed edit).mp after
    · intro shows _ confirmed
      exact (edited confirmed edit).mpr (shows r held live confirmed) live confirmed

theorem commitStaged_inStep_iff (tidy : r.Tidy) (live : r.isLive) (confirmed : r.isLocal = false) :
    r.commitStaged.InStep ↔ r.ShowsBound := by
  rw [Record.inStep_iff r.frame_commitStaged live (r.isLocal_commitStaged.trans confirmed)]
  exact forall₂_congr fun p relation => by
    rw [Record.properties_commitStaged, tidy.ids?_commitStaged]

theorem push_inStep_iff (tidy : g.Tidy) (inStep : g.InStep) (id : ObjectId) :
    ((push id).after g).InStep ↔ ∀ r, g.Pushes id r → r.isLocal = false → r.ShowsBound := by
  by_cases pushed : ∃ r, g.Pushes id r
  · obtain ⟨r, pushes⟩ := pushed
    have committed : ((push id).after g).InStep ↔ r.commitStaged.InStep := by
      rw [InStep, store_push pushes]
      exact Store.All.modify_iff inStep pushes.held
    refine committed.trans ⟨?_, ?_⟩
    · intro inStep r' pushes' confirmed
      obtain rfl := Option.some.inj (pushes.held.symm.trans pushes'.held)
      exact (commitStaged_inStep_iff (tidy id r pushes.held) pushes.live confirmed).mp inStep
    · intro shows live confirmed
      have before : r.isLocal = false := r.isLocal_commitStaged.symm.trans confirmed
      exact (commitStaged_inStep_iff (tidy id r pushes.held) pushes.live before).mpr
        (shows r pushes before) live confirmed
  · have none (r : Record) : ¬ g.Pushes id r := fun pushes => pushed ⟨r, pushes⟩
    rw [InStep, store_push_of_not none]
    exact ⟨fun _ r pushes => absurd pushes (none r), fun _ => inStep⟩

theorem newMap_inStep (inStep : g.InStep) (sources : List ObjectId) (destination : ObjectId) :
    ((newMap sources destination).after g).InStep :=
  newMap_all inStep fun _ _ _ _ confirmed => Bool.noConfusion confirmed

/-! ## Keys -/

theorem upsert_tidy (tidy : g.Tidy) (delta : Delta) : ((upsert delta).after g).Tidy := by
  have upserts := upsert_upserts delta g
  simp only [Attempt.after]
  generalize upsert delta g = result at upserts
  cases upserts with
  | refused e => exact tidy
  | @created wiring h vacant resolves =>
      have there := resolves.leads.all Record.tidy_steady tidy
      apply (establish_all_iff Record.tidy_steady there delta wiring).mpr
      exact Record.tidy_steady.fills (recordOf_fills h delta wiring)
        (Table.Unique.entrywise.applyDiff .empty fun _ _ => trivial)
  | @merged r held live kind restates how =>
      apply (afterMerge_all_iff Record.tidy_steady tidy held live).mpr
      rw [Record.Tidy, (mergedRecord_spec g r delta).2.1]
      exact Table.Unique.entrywise.applyDiff (tidy delta.id r held) fun _ _ => trivial

theorem edit_tidy (tidy : g.Tidy) (id : ObjectId) (edit : TableEdit) :
    ((editProperties id edit.action).after g).Tidy := by
  rcases g.store.isVacant_or_isLive id with vacant | ⟨r, held, live⟩
  · rw [editProperties_after_of_isVacant vacant]
    exact tidy
  · exact (editProperties_all_iff tidy held live edit.action).mpr
      (TableEdit.unique (tidy id r held) edit)

theorem push_tidy (tidy : g.Tidy) (id : ObjectId) : ((push id).after g).Tidy := by
  by_cases pushed : ∃ r, g.Pushes id r
  · obtain ⟨r, pushes⟩ := pushed
    rw [Tidy, store_push pushes]
    apply (Store.All.modify_iff tidy pushes.held).mpr
    rw [Record.Tidy, Record.properties_commitStaged]
    exact Table.Unique.entrywise.commitStaged (tidy id r pushes.held)
  · rw [Tidy, store_push_of_not fun r pushes => pushed ⟨r, pushes⟩]
    exact tidy

theorem stageEnds_unique {sources : List ObjectId} {destination : ObjectId} {properties : Table}
    (staged : stageEnds sources destination = .ok properties) : properties.Unique := by
  have start := (TableEdit.set_keeps .empty (.wellKnown .sources) (.ofIds sources)).unique
  rw [stageEnds_eq_after staged]
  exact (TableEdit.set_keeps start (.wellKnown .destination) (.ofId destination)).unique

theorem newMap_tidy (tidy : g.Tidy) (sources : List ObjectId) (destination : ObjectId) :
    ((newMap sources destination).after g).Tidy :=
  newMap_all tidy fun _ _ staged => stageEnds_unique staged

/-! ## All that comes -/

theorem applyEvent_inStep_iff (inStep : g.InStep) (type : EventType) (delta : Delta) :
    ((applyEvent type delta).after g).InStep ↔
      (type = .announce ∨ type = .update → g.Agrees delta) := by
  have removed {how : Lifecycle} (terminal : how.status.isTerminal) :
      (g.remove delta.id how).1.InStep :=
    (remove_leads terminal g delta.id).all Record.inStep_steady inStep
  cases type with
  | announce => exact (upsert_inStep_iff inStep delta).trans (by simp)
  | update => exact (upsert_inStep_iff inStep delta).trans (by simp)
  | remove => exact iff_of_true (removed rfl) (by simp)
  | expire => exact iff_of_true (removed rfl) (by simp)

theorem confirms_of_isPlain {c : Call α} (plain : c.IsPlain) : g.Confirms (.call c) := by
  cases c with
  | apply | newMap | edit | push => exact plain.elim
  | _ => trivial

/-- What comes to a graph in step leaves it so just if it has nothing else confirmed. -/
theorem step_inStep_iff (tidy : g.Tidy) (inStep : g.InStep) {input : Input α}
    (byHand : input.IsByHand) : (g.step input).InStep ↔ g.Confirms input := by
  have plain {h : Graph α} (leads : Leads RecordChange.IsPlain g h) : h.InStep ↔ True :=
    iff_true_intro (leads.all Record.inStep_steady inStep)
  cases input with
  | event event =>
      cases event with
      | record type delta => exact applyEvent_inStep_iff inStep type delta
      | value update => exact plain (applyValue_leads update g).plain
      | sync device => exact plain (touch_leads g device).plain
  | call c =>
      by_cases apart : c.IsPlain
      · exact (plain (call_plain g c apart)).trans (iff_of_true trivial (confirms_of_isPlain apart))
      · cases c with
        | apply type delta => exact applyEvent_inStep_iff inStep type delta
        | newMap sources destination =>
            exact iff_true_intro (newMap_inStep inStep sources destination)
        | edit id action =>
            obtain ⟨edit, rfl⟩ := byHand
            refine ⟨fun after => ⟨edit, rfl, (edit_inStep_iff tidy inStep id edit).mp after⟩, ?_⟩
            rintro ⟨other, same, shows⟩
            have after := (edit_inStep_iff tidy inStep id other).mpr shows
            exact same ▸ after
        | push id => exact push_inStep_iff tidy inStep id
        | _ => exact absurd trivial apart

theorem applyEvent_tidy (tidy : g.Tidy) (type : EventType) (delta : Delta) :
    ((applyEvent type delta).after g).Tidy := by
  cases type with
  | announce | update => exact upsert_tidy tidy delta
  | remove | expire => exact (remove_leads rfl g delta.id).all Record.tidy_steady tidy

theorem step_tidy (tidy : g.Tidy) {input : Input α} (byHand : input.IsByHand) :
    (g.step input).Tidy := by
  have plain {h : Graph α} (leads : Leads RecordChange.IsPlain g h) : h.Tidy :=
    leads.all Record.tidy_steady tidy
  cases input with
  | event event =>
      cases event with
      | record type delta => exact applyEvent_tidy tidy type delta
      | value update => exact plain (applyValue_leads update g).plain
      | sync device => exact plain (touch_leads g device).plain
  | call c =>
      by_cases apart : c.IsPlain
      · exact plain (call_plain g c apart)
      · cases c with
        | apply type delta => exact applyEvent_tidy tidy type delta
        | newMap sources destination => exact newMap_tidy tidy sources destination
        | edit id action =>
            obtain ⟨edit, rfl⟩ := byHand
            exact edit_tidy tidy id edit
        | push id => exact push_tidy tidy id
        | _ => exact absurd trivial apart

/-! ## Runs -/

/-- Properties are worked on by hand only. -/
def byHand (α : Type) : Law α := fun _ input => input.IsByHand

/-- Properties are worked on by hand only, and nothing is confirmed for relations but what their
    objects are bound to. -/
def confirming (α : Type) : Law α := fun g input => input.IsByHand ∧ g.Confirms input

/-- Wiring and properties stay in step for as long as nothing is confirmed for relations but what
    their objects are bound to, and not a step longer. -/
theorem relations_in_step (wire : Wire) (config : Config) :
    (∀ said g, Run (confirming α) (make wire config) said g → g.Tidy ∧ g.InStep) ∧
      ∀ g : Graph α, g.Tidy → g.InStep → ∀ input : Input α, input.IsByHand →
        ((g.step input).InStep ↔ g.Confirms input) := by
  refine ⟨?_, fun g tidy inStep input byHand => step_inStep_iff tidy inStep byHand⟩
  intro said g run
  refine run.keeps (P := fun g => g.Tidy ∧ g.InStep) ?_ ?_ ?_ ⟨.empty, .empty⟩
  · exact fun leads both =>
      ⟨leads.all Record.tidy_steady both.1, leads.all Record.inStep_steady both.2⟩
  · rintro g input ⟨byHand, confirms⟩ ⟨tidy, inStep⟩
    exact ⟨step_tidy tidy byHand, (step_inStep_iff tidy inStep byHand).mpr confirms⟩
  · exact fun both => both

theorem heardOfSignal_inStep :
    (heardOfSignal ⟨[.set (.wellKnown .device) (.ofId ⟨1⟩)]⟩).InStep := by
  have may : confirming Unit (make (.quiet ⟨0, 0⟩) .standard) (.call (.apply .announce
      ⟨.signal, ⟨2⟩, ⟨[.set (.wellKnown .device) (.ofId ⟨1⟩)]⟩, []⟩)) := by
    refine ⟨trivial, fun _ _ => ⟨?_, fun r held => nomatch held⟩⟩
    intro _ p relation
    obtain rfl := List.mem_singleton.mp relation
    decide
  exact ((relations_in_step _ _).1 _ _ ((Run.refl _).call _ may)).2

/-- A new signal is wired to what its delta sets last, also where the catalogue does not let that
    into its properties. -/
theorem announcement_drifts :
    (∃ said, Run (byHand Unit) (make (.quiet ⟨0, 0⟩) .standard) said
      (heardOfSignal ⟨[.set (.wellKnown .device) (.ofId ⟨1⟩),
        .set (.wellKnown .device) ⟨.int32 [3], .inr (by decide)⟩]⟩)) ∧
    ¬ (heardOfSignal ⟨[.set (.wellKnown .device) (.ofId ⟨1⟩),
        .set (.wellKnown .device) ⟨.int32 [3], .inr (by decide)⟩]⟩).InStep := by
  refine ⟨⟨_, (Run.refl _).call _ trivial⟩, ?_⟩
  intro inStep
  have there : ((heardOfSignal ⟨[.set (.wellKnown .device) (.ofId ⟨1⟩),
      .set (.wellKnown .device) ⟨.int32 [3], .inr (by decide)⟩]⟩).store.find? ⟨2⟩).any
      fun r => r.isLive ∧ r.isLocal = false ∧ r.kind = .signal ∧
        r.boundIds? .device = some [⟨3⟩] ∧ r.properties.ids? .device = some [⟨1⟩] := by decide
  obtain ⟨r, held, facts⟩ := (Option.any_eq_true ..).mp there
  obtain ⟨live, confirmed, kind, bound, said⟩ := of_decide_eq_true facts
  obtain ⟨ids, own, stated⟩ := inStep ⟨2⟩ r held live confirmed .device
    (kind ▸ List.mem_singleton.mpr rfl)
  rw [bound] at own
  rw [said, ← own] at stated
  exact absurd stated (by decide)

end Graph

end SignalGraph
