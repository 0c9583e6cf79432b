import SignalGraph.Proofs.Pushing

/-! # Deltas of which nobody hears

An announcement or an update is told of only if it changes what is confirmed. One that says what is
confirmed already can still be felt here: where a removal waits for a key and the delta sets the key
again to what it is, the removal is taken back, and nobody hears of that. Nothing else is felt.
-/

namespace SignalGraph

/-- Whether a change puts an allowed value under a key. -/
def Change.sets (key : Key) : Change → Bool
  | .set k v => decide (k = key) && (k.validate v).isOk
  | .remove _ => false

theorem Change.sets_iff {key : Key} {c : Change} :
    c.sets key ↔ ∃ v, c = .set key v ∧ key.validate v = .ok () := by
  cases c with
  | set k v =>
      simp only [sets, Bool.and_eq_true, decide_eq_true_eq, set.injEq]
      constructor
      · rintro ⟨rfl, allowed⟩
        refine ⟨v, ⟨rfl, rfl⟩, ?_⟩
        cases valid : k.validate v with
        | ok _ => rfl
        | error e => simp [valid, Except.isOk, Except.toBool] at allowed
      · rintro ⟨_, ⟨rfl, rfl⟩, allowed⟩
        exact ⟨rfl, by simp [allowed, Except.isOk, Except.toBool]⟩
  | remove k => simp [sets]

theorem any_sets_iff {key : Key} {cs : List Change} :
    (cs.any fun c => c.sets key) ↔ ∃ v, .set key v ∈ cs ∧ key.validate v = .ok () := by
  simp only [List.any_eq_true, Change.sets_iff]
  constructor
  · rintro ⟨_, member, v, rfl, allowed⟩
    exact ⟨v, member, allowed⟩
  · rintro ⟨v, member, allowed⟩
    exact ⟨_, member, v, rfl, allowed⟩

namespace Table

variable {t u : Table} {c : Change} {cs : List Change}

/-- The table with the removals that wait taken back for all keys that changes set. -/
def takeBack (t : Table) (cs : List Change) : Table :=
  ⟨t.entries.map fun e => if cs.any fun c => c.sets e.key then { e with removed := false } else e⟩

/-- Whether changes set no key for which a removal waits. -/
def Spared (t : Table) (cs : List Change) : Prop :=
  ∀ key v, .set key v ∈ cs → key.validate v = .ok () → t.pending? key ≠ some .remove

/-- Whether two tables are the same to those who read them and to those who edit them. -/
structure ShowsAs (t u : Table) : Prop extends t.ReadsAs u where
  isStaged : ∀ key, u.isStaged key = t.isStaged key
  hasStaged : u.hasStaged = t.hasStaged
  stagedDiff : u.stagedDiff = t.stagedDiff

theorem ShowsAs.refl (t : Table) : t.ShowsAs t := ⟨⟨fun _ => rfl, rfl⟩, fun _ => rfl, rfl, rfl⟩

@[simp] theorem takeBack_nil (t : Table) : t.takeBack [] = t := congrArg mk (List.map_id' _)

theorem takeBack_cons (t : Table) (c : Change) (cs : List Change) :
    t.takeBack (c :: cs) = (t.takeBack [c]).takeBack cs := by
  simp only [takeBack, List.map_map, mk.injEq]
  apply List.map_congr_left
  intro e _
  by_cases own : c.sets e.key <;> cases cs.any (fun c => c.sets e.key) <;> simp [own]

theorem takeBack_eq_modify {key : Key} {v : Value} (allowed : key.validate v = .ok ()) (t : Table) :
    t.takeBack [.set key v] = t.modify key ({ · with removed := false }) := by
  simp only [takeBack, modify, mk.injEq]
  apply List.map_congr_left
  intro e _
  by_cases own : e.key = key
  · simp [Change.sets, own, allowed, Except.isOk, Except.toBool]
  · simp [Change.sets, own, Ne.symm own]

theorem takeBack_of_not_sets (unfelt : ∀ key, c.sets key = false) (t : Table) :
    t.takeBack [c] = t := by
  simp [takeBack, unfelt]

/-- A change that says what is confirmed takes a removal back, if it sets the key, and does nothing
    else. -/
theorem States.applyChange (sound : t.Sound) (states : t.States c) :
    (t.applyChange c).1 = t.takeBack [c] := by
  cases c with
  | set key v =>
      cases allowed : key.validate v with
      | error e =>
          rw [applyChange_eq_of_error allowed, takeBack_of_not_sets]
          intro other
          refine Bool.eq_false_iff.mpr fun sets => ?_
          obtain ⟨w, same, valid⟩ := Change.sets_iff.mp sets
          cases same
          cases allowed.symm.trans valid
      | ok _ =>
          obtain ⟨w, confirmed, same⟩ := states allowed
          obtain ⟨e, found, own⟩ := Option.bind_eq_some_iff.mp confirmed
          rw [applyChange_set_of_found allowed found, if_pos (by simp [own, same]),
            takeBack_eq_modify allowed]
  | remove key =>
      rw [takeBack_of_not_sets fun _ => rfl]
      cases found : t.entry? key with
      | none => rw [applyChange_remove_of_absent found]
      | some e =>
          have own := sound.entry found
          have unconfirmed : e.committed = none := (committed?_of_entry found).symm.trans states
          have staged : e.staged.isSome :=
            Option.isSome_iff_ne_none.mpr (own.holds.resolve_left fun held => held unconfirmed)
          rw [applyChange_remove_of_found found, if_pos staged]
          refine modify_eq_self ?_
          intro e' member here
          obtain rfl : e = e' := Option.some.inj
            (found.symm.trans (sound.unique.entry?_eq_some_iff.mpr ⟨member, here⟩))
          have kept : e.removed = false := Bool.eq_false_iff.mpr fun removed =>
            (own.removed removed).1 unconfirmed
          cases e
          simp_all

/-- Changes that say what is confirmed take removals back and do nothing else. -/
theorem Sound.afterChanges_of_states (sound : t.Sound) (states : ∀ c ∈ cs, t.States c) :
    t.afterChanges cs = t.takeBack cs := by
  induction cs generalizing t with
  | nil => exact t.takeBack_nil.symm
  | cons c cs ih =>
      have first := states c List.mem_cons_self
      have later : ∀ c' ∈ cs, (t.applyChange c).1.States c' := fun c' member =>
        (states_congr first.committed?_applyChange c').mpr (states c' (List.mem_cons_of_mem c member))
      rw [takeBack_cons, ← first.applyChange sound]
      exact ih (sound.applyChange c).2 later

theorem entry?_takeBack (t : Table) (cs : List Change) (key : Key) :
    Table.entry? (t.takeBack cs) key = (t.entry? key).map fun e =>
      if cs.any fun c => c.sets key then { e with removed := false } else e := by
  simp only [Table.entry?, takeBack]
  induction t.entries with
  | nil => rfl
  | cons e rest ih =>
      have keyed : (if cs.any fun c => c.sets e.key then { e with removed := false } else e).key =
          e.key := by split <;> rfl
      rw [List.map_cons, List.find?_cons, List.find?_cons, keyed, ih]
      by_cases own : e.key = key <;> simp [own]

theorem Sound.takeBack_of_spared (sound : t.Sound) (spared : t.Spared cs) : t.takeBack cs = t := by
  have each : ∀ e ∈ t.entries,
      (if cs.any fun c => c.sets e.key then { e with removed := false } else e) = e := by
    intro e member
    split
    · rename_i sets
      obtain ⟨v, among, allowed⟩ := any_sets_iff.mp sets
      have found := sound.unique.entry?_eq_some_iff.mpr ⟨member, rfl⟩
      have kept : e.removed = false := Bool.eq_false_iff.mpr fun removed =>
        spared e.key v among allowed (by simp [pending?, found, TableEntry.pending?, removed])
      rw [← kept]
    · rfl
  exact congrArg Table.mk ((List.map_congr_left each).trans (List.map_id' _))

/-- A table is the same to all just if no removal is taken back. -/
theorem Sound.showsAs_takeBack_iff (sound : t.Sound) :
    t.ShowsAs (t.takeBack cs) ↔ t.Spared cs := by
  constructor
  · intro shows key v member allowed waits
    obtain ⟨e, found, removed⟩ := exists_removed waits
    have flags := shows.isStaged key
    simp [isStaged, entry?_takeBack, found, any_sets_iff.mpr ⟨v, member, allowed⟩,
      TableEntry.isStaged, removed, ((sound.entry found).removed removed).2] at flags
  · intro spared
    rw [sound.takeBack_of_spared spared]
    exact .refl t

end Table

/-- Whether a record is the same, with its slots, to those who read it and to those who edit it. -/
structure Record.ShowsAs (r s : Record) : Prop where
  properties : r.properties.ShowsAs s.properties
  slots : ∀ location slot, r.slot? location = some slot →
    ∃ slot', s.slot? location = some slot' ∧ slot.properties.ShowsAs slot'.properties

/-- Whether a delta sets no key for which a removal waits, of the record or of one of its slots. -/
structure Delta.Spares (delta : Delta) (r : Record) : Prop where
  own : r.properties.Spared delta.diff.changes
  slots : ∀ location slot, r.slot? location = some slot →
    slot.properties.Spared (slotChanges delta.slots location)

/-- Whether a record differs from another in removals that are taken back for a delta. -/
structure Record.TakesBack (delta : Delta) (r s : Record) : Prop where
  properties : s.properties = r.properties.takeBack delta.diff.changes
  slots : ∀ location, s.slot? location =
    (r.slot? location).map (·.modify (·.takeBack (slotChanges delta.slots location)))

/-- Where removals are taken back for a delta, a record is the same to all just if there are none. -/
theorem Record.TakesBack.showsAs_iff {delta : Delta} {r s : Record} (takesBack : r.TakesBack delta s)
    (sound : r.Sound) : r.ShowsAs s ↔ delta.Spares r := by
  constructor
  · intro shows
    refine ⟨sound.properties.showsAs_takeBack_iff.mp (takesBack.properties ▸ shows.properties), ?_⟩
    intro location slot there
    obtain ⟨slot', there', same⟩ := shows.slots location slot there
    rw [takesBack.slots, there, Option.map_some, Option.some.injEq] at there'
    subst there'
    exact (sound.slots location slot there).showsAs_takeBack_iff.mp same
  · intro spares
    refine ⟨takesBack.properties ▸ sound.properties.showsAs_takeBack_iff.mpr spares.own, ?_⟩
    intro location slot there
    have same := (sound.slots location slot there).showsAs_takeBack_iff.mpr
      (spares.slots location slot there)
    exact ⟨_, by rw [takesBack.slots, there, Option.map_some], same⟩

namespace Graph

variable {α : Type} {g h : Graph α} {delta : Delta} {r : Record} {config : Config}

theorem mergedRecord_takesBack (sound : r.Sound) (unchanged : (g.mergedRecord r delta).2 = false) :
    r.TakesBack delta (g.mergedRecord r delta).1 := by
  have takes := mergedRecord_takes g r delta
  obtain ⟨own, slots⟩ := states_of_mergedRecord unchanged
  refine ⟨takes.properties.trans (sound.properties.afterChanges_of_states own), ?_⟩
  intro location
  rw [takes.slots]
  refine Option.map_congr fun slot there => ?_
  have settled := (sound.slots location slot there).afterChanges_of_states (slots location slot there)
  rw [Slot.modify, Slot.modify, settled]

/-- An announcement or an update of which nothing is told was merged into a live record, and what it
    said was confirmed already. -/
theorem merged_of_unheard (unheard : upsert delta g = .ok none h) :
    ∃ r, g.store.find? delta.id = some r ∧ r.isLive ∧ (g.mergedRecord r delta).2 = false ∧
      h.store.find? delta.id = some (g.mergedRecord r delta).1 := by
  have upserts := upsert_upserts delta g
  rw [unheard] at upserts
  cases upserts with
  | @merged r held live kind restates how =>
      rw [upsert_of_live held live kind, restates] at unheard
      cases changed : (g.mergedRecord r delta).2 with
      | true => simp [changed] at unheard
      | false => exact ⟨r, held, live, changed, by simp [find?_afterMerge held, changed]⟩

/-- An announcement or an update of which nothing is told leaves the record, and its slots, the same
    to all who read or edit them, just if it sets no key for which a removal waits. The removals that
    wait for keys that it sets are taken back; whatever else waits goes on to wait. -/
theorem unheard_delivery (handled : Handled config g) {type : EventType}
    (heard : type = .announce ∨ type = .update) (unheard : applyEvent type delta g = .ok none h) :
    ∃ r s, g.store.find? delta.id = some r ∧ r.isLive ∧ h.store.find? delta.id = some s ∧
      r.TakesBack delta s ∧ (r.ShowsAs s ↔ delta.Spares r) := by
  have same : applyEvent (α := α) type delta = upsert delta := by
    rcases heard with rfl | rfl <;> rfl
  rw [same] at unheard
  obtain ⟨r, held, live, unchanged, merged⟩ := merged_of_unheard unheard
  have sound := handled.isSound delta.id r held
  have takesBack := mergedRecord_takesBack sound unchanged
  exact ⟨r, _, held, live, merged, takesBack, takesBack.showsAs_iff sound⟩

/-- A device of which it was said that it has number 1, with an edit of that. -/
def renumbered (edit : TableEdit) : Graph Unit :=
  [.apply .announce (numbered [1]), .edit ⟨1⟩ edit.action].foldl call (make (.quiet ⟨0, 0⟩) .standard)

theorem renumbered_handled (edit : TableEdit) : Handled .standard (renumbered edit) := by
  have edits := TableCall.isByCalls (.edit edit)
  refine .calls (.make _ _) ?_
  simp only [List.forall_mem_cons]
  exact ⟨trivial, edits, fun _ member => nomatch member⟩

/-- A value that waits to be sent goes on to wait when the device says its number once more. -/
theorem renumbered_waits : ∃ h r s,
    applyEvent .update (numbered [1]) (renumbered (.set (.named "number") (.ofId ⟨2⟩))) =
        .ok none h ∧
      (renumbered (.set (.named "number") (.ofId ⟨2⟩))).store.find? ⟨1⟩ = some r ∧
      h.store.find? ⟨1⟩ = some s ∧ r.ShowsAs s ∧ s.properties.isStaged (.named "number") := by
  let g := renumbered (.set (.named "number") (.ofId ⟨2⟩))
  have unheard : applyEvent .update (numbered [1]) g =
      .ok none ((applyEvent .update (numbered [1])).after g) := rfl
  obtain ⟨r, s, held, -, there, -, shows⟩ :=
    unheard_delivery (renumbered_handled _) (.inr rfl) unheard
  have waits : r.properties.pending? (.named "number") = some (.set (.ofId ⟨2⟩)) := by
    obtain rfl := Option.some.inj held
    decide
  have same : r.ShowsAs s := by
    refine shows.mpr ⟨?_, ?_⟩
    · intro key v member _
      obtain ⟨rfl, -⟩ := Change.set.inj (List.mem_singleton.mp member)
      simp [waits]
    · exact fun location slot there key v member => absurd member List.not_mem_nil
  refine ⟨_, r, s, unheard, held, there, same, ?_⟩
  rw [same.properties.isStaged]
  obtain rfl := Option.some.inj held
  decide

/-- A device says its number once more, and nobody hears of it; but here, where the number was to be
    removed, it is back. -/
theorem renumbered_restored : Handled .standard (renumbered (.remove (.named "number"))) ∧
    ∃ h r s, applyEvent .update (numbered [1]) (renumbered (.remove (.named "number"))) =
        .ok none h ∧
      (renumbered (.remove (.named "number"))).store.find? ⟨1⟩ = some r ∧
      h.store.find? ⟨1⟩ = some s ∧ r.isLive ∧
      r.properties.get? (.named "number") = none ∧ r.properties.isStaged (.named "number") ∧
      r.properties.stagedDiff = ⟨[.remove (.named "number")]⟩ ∧
      s.properties.get? (.named "number") = some ⟨.int32 [1], .inr Nat.one_ne_zero⟩ ∧
      s.properties.isStaged (.named "number") = false ∧ s.properties.stagedDiff = ⟨[]⟩ :=
  ⟨renumbered_handled _, _, _, _, rfl, rfl, rfl, by decide, by decide, by decide, by decide,
    by decide, by decide, by decide⟩

end Graph

end SignalGraph
