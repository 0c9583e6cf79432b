import SignalGraph.Proofs.Reference

/-! # Events of another kind

A delta names an object by its identity, and its kind beside that. Announcements and updates compare
the kind with that of the record held. Removals do not: by the identity alone an object goes, and
all that depends on it.
-/

namespace SignalGraph

/-- How an event ends the life of its object, if it does. -/
def EventType.ending? : EventType → Option Lifecycle
  | announce | update => none
  | remove => some .removed
  | expire => some .expired

theorem EventType.isTerminal_of_ending? {type : EventType} {how : Lifecycle}
    (ends : type.ending? = some how) : how.status.isTerminal := by
  cases type with
  | announce | update => cases ends
  | remove | expire =>
      obtain rfl := Option.some.inj ends
      rfl

namespace Graph

variable {α : Type} {g : Graph α} {delta : Delta} {r : Record} {how : Lifecycle}

/-- What is left of the record of an object that goes. -/
def retired (g : Graph α) (r : Record) (how : Lifecycle) : Record :=
  { r with status := how.status, terminalAt := some g.now, observedCycle := none }

/-! ## Removals -/

/-- A removal does not reach the records of objects that are gone already. -/
theorem find?_removeWithin_of_isVacant {id : ObjectId} (vacant : g.store.IsVacant id) (depth : Nat)
    (other : ObjectId) :
    (removeWithin depth g other how).1.store.find? id = g.store.find? id := by
  refine removeWithin_walks
    (R := fun g h => g.store.IsVacant id → h.store.find? id = g.store.find? id)
    (fun _ _ => rfl) ?_ ?_ (fun _ _ _ => rfl) depth g other vacant
  · intro g h k first second vacant
    have same := first vacant
    exact (second fun r held => vacant r (same ▸ held)).trans same
  · intro g next r held live vacant
    have apart : next ≠ id := by
      rintro rfl
      exact Store.not_isVacant held live vacant
    exact (g.store.find?_modify next id _).trans (if_neg apart)

theorem find?_remove (terminal : how.status.isTerminal) {id : ObjectId}
    (held : g.store.find? id = some r) (live : r.isLive) :
    (g.remove id how).1.store.find? id = some (g.retired r how) := by
  have gone : (g.retire id how).store.find? id = some (g.retired r how) := by
    rw [retire, notify, modify, Store.find?_modify, if_pos rfl, held]
    rfl
  have vacant := retire_isVacant terminal g id
  rw [remove, removeWithin_of_isLive held live, cascade, ← gone]
  refine List.foldlRecOn _ _
    (motive := fun h : Graph α => h.store.find? id = (g.retire id how).store.find? id) rfl ?_
  intro h same dependent _
  have vacantHere : h.store.IsVacant id := fun r held => vacant r (same ▸ held)
  exact (find?_removeWithin_of_isVacant vacantHere 2 dependent).trans same

theorem snd_remove {id : ObjectId} (held : g.store.find? id = some r) (live : r.isLive) :
    (g.remove id how).2 = some how := by
  simp [remove, removeWithin, held, live]

/-! ## Events -/

theorem applyEvent_of_ending? {type : EventType} (ends : type.ending? = some how) :
    applyEvent type delta g = .ok (g.remove delta.id how).2 (g.remove delta.id how).1 := by
  cases type with
  | announce | update => cases ends
  | remove | expire =>
      obtain rfl := Option.some.inj ends
      rfl

/-- An event that names another kind than that of the live record held under the identity is refused
    and leaves no trace just if it is an announcement or an update. The removal of an object is
    taken whatever kind it names: it does what the removal of the kind held does, so that of the
    object only the record of one gone is left. -/
theorem kind_mismatch (held : g.store.find? delta.id = some r) (live : r.isLive)
    (other : r.kind ≠ delta.kind) (type : EventType) :
    match type.ending? with
    | none => applyEvent type delta g =
        .error (.malformed (.kindChange r.kind delta.id delta.kind)) g
    | some how => ∃ h, applyEvent type delta g = .ok (some how) h ∧
        applyEvent type { delta with kind := r.kind } g = .ok (some how) h ∧
        h.store.find? delta.id = some (g.retired r how) := by
  cases ends : type.ending? with
  | none =>
      have refused := upsert_of_mismatch held live other
      cases type with
      | announce | update => exact refused
      | remove | expire => cases ends
  | some how =>
      have terminal := EventType.isTerminal_of_ending? ends
      refine ⟨(g.remove delta.id how).1, ?_, ?_, find?_remove terminal held live⟩
      · rw [applyEvent_of_ending? ends, snd_remove held live]
      · rw [applyEvent_of_ending? ends, snd_remove held live]

theorem mislabelled_announcement_refused :
    let g := heardOfSignal ⟨[.set (.wellKnown .device) (.ofId ⟨1⟩)]⟩
    applyEvent .announce (.empty .link ⟨2⟩) g =
      .error (.malformed (.kindChange .signal ⟨2⟩ .link)) g := by
  intro g
  have there : (g.store.find? ⟨2⟩).map (fun r => (r.kind, r.isLive)) = some (.signal, true) := by
    decide
  obtain ⟨r, held, same⟩ := Option.map_eq_some_iff.mp there
  obtain ⟨kind, live⟩ := Prod.mk.inj same
  have own : g.store.find? (Delta.empty .link ⟨2⟩).id = some r := held
  have other : r.kind ≠ (Delta.empty .link ⟨2⟩).kind := by simp [kind, Delta.empty]
  exact kind ▸ kind_mismatch own live other .announce

/-- A device is removed as a link, and its signal with it. -/
theorem mislabelled_removal_taken :
    let g := heardOfSignal ⟨[.set (.wellKnown .device) (.ofId ⟨1⟩)]⟩
    Reachable .standard g ∧ g.store.HasLive ⟨1⟩ .device ∧ g.store.HasLive ⟨2⟩ .signal ∧
      ∃ h, applyEvent .remove (.empty .link ⟨1⟩) g = .ok (some .removed) h ∧
        h.store.IsVacant ⟨1⟩ ∧ h.store.IsVacant ⟨2⟩ := by
  intro g
  have there {id : ObjectId} {kind : ObjectKind}
      (shown : (g.store.find? id).any fun r => r.kind = kind ∧ r.isLive) :
      g.store.HasLive id kind := by
    obtain ⟨r, held, facts⟩ := (Option.any_eq_true ..).mp shown
    exact ⟨r, held, of_decide_eq_true facts⟩
  have vacant {h : Graph Unit} {id : ObjectId}
      (shown : (h.store.find? id).all fun r => !r.isLive) : h.store.IsVacant id := by
    intro r held
    simpa [held] using shown
  exact ⟨heardOfSignal_reachable _, there (by decide), there (by decide), _, rfl,
    vacant (by decide), vacant (by decide)⟩

end Graph

end SignalGraph
