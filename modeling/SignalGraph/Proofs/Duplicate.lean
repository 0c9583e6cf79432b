import SignalGraph.Proofs.DeltaEffects

/-! # Deltas that come twice

What becomes of an announcement or an update that is accepted and then comes once more. It leaves
all that records hold as it was. That nobody hears of it takes a delta that speaks of each key with
one voice.
-/

namespace SignalGraph

open Record

namespace Graph

variable {α : Type} {g h : Graph α} {delta : Delta} {before r : Record}

theorem syncPool_takes {now : Timetag} {config : Config} {s : Record}
    (properties : s.properties = r.properties.afterChanges delta.diff.changes)
    (slots : ∀ location, s.slot? location =
      (r.slot? location).map (·.modify (·.afterChanges (slotChanges delta.slots location))))
    (pool : s.pool? = r.pool?) (synced : s.synced? = r.synced?.map fun _ => now)
    (confirmed : s.isLocal = false) : r.Takes now config delta (s.syncPool config) := by
  have fills := s.syncPool_fills config
  constructor
  case properties => exact fills.properties.trans properties
  case slots => exact fun location => (slot?_syncPool ..).trans (slots location)
  case pool => rw [pool?_syncPool, pool, fills.properties]
  case synced => exact (synced?_syncPool ..).trans synced
  case confirmed => exact fills.isLocal.trans confirmed

/-- The parts of a record once its properties and slots have taken what a delta has for them. -/
theorem parts_applySlotDiffs (r : Record) (delta : Delta) :
    let s := (applySlotDiffs { r with properties := (r.properties.applyDiff delta.diff).1 }
      delta.slots).1
    s.properties = r.properties.afterChanges delta.diff.changes ∧
      (∀ location, s.slot? location =
        (r.slot? location).map (·.modify (·.afterChanges (slotChanges delta.slots location)))) ∧
      s.pool? = r.pool? ∧ s.synced? = r.synced? ∧ s.isLocal = r.isLocal := by
  let first : Record := { r with properties := (r.properties.applyDiff delta.diff).1 }
  have fills := first.applySlotDiffs_fills delta.slots
  exact ⟨fills.properties.trans (Table.applyDiff_eq_afterChanges ..),
    fun location => slot?_applySlotDiffs first delta.slots location,
    applySlotDiffs_keeps pool?_modifySlot first delta.slots,
    applySlotDiffs_keeps synced?_modifySlot first delta.slots, fills.isLocal⟩

theorem mergedRecord_takes (g : Graph α) (r : Record) (delta : Delta) :
    r.Takes g.now g.config delta (g.mergedRecord r delta).1 := by
  obtain ⟨properties, slots, pool, synced, -⟩ := parts_applySlotDiffs r delta
  obtain ⟨properties', pool', slots', synced', confirmed⟩ :=
    parts_refresh (applySlotDiffs { r with properties := (r.properties.applyDiff delta.diff).1 }
      delta.slots).1 g.now
  exact syncPool_takes (properties'.trans properties)
    (fun location => (slots' location).trans (slots location)) (pool'.trans pool)
    (synced'.trans (congrArg _ synced)) confirmed

/-- A new record with a sign of life, and confirmed, is made of nothing by its delta. -/
theorem recordOf_takes (g : Graph α) (delta : Delta) {wiring : Wiring}
    (fresh : (Record.make delta.id wiring).refresh g.now = Record.make delta.id wiring) :
    (Record.make delta.id wiring).Takes g.now g.config delta (g.recordOf delta wiring) := by
  obtain ⟨properties, slots, pool, synced, confirmed⟩ :=
    parts_applySlotDiffs (Record.make delta.id wiring) delta
  obtain ⟨-, -, -, synced', confirmed'⟩ := parts_refresh (Record.make delta.id wiring) g.now
  rw [fresh] at synced' confirmed'
  exact syncPool_takes properties slots pool (synced.trans synced') (confirmed.trans confirmed')

theorem mergedRecord_snd (g : Graph α) (r : Record) (delta : Delta) : (g.mergedRecord r delta).2 =
    ((r.properties.applyDiff delta.diff).2 ||
      (applySlotDiffs { r with properties := (r.properties.applyDiff delta.diff).1 }
        delta.slots).2) := rfl

/-- Where a merge changes nothing, what is confirmed is what the delta says, of the record and of each
    slot. -/
theorem states_of_mergedRecord (unchanged : (g.mergedRecord r delta).2 = false) :
    (∀ c ∈ delta.diff.changes, r.properties.States c) ∧
      ∀ location slot, r.slot? location = some slot →
        ∀ c ∈ slotChanges delta.slots location, slot.properties.States c := by
  rw [mergedRecord_snd, Bool.or_eq_false_iff] at unchanged
  obtain ⟨own, slots⟩ := unchanged
  refine ⟨(Table.applyDiff_snd_eq_false_iff r.properties delta.diff.changes).mp own, ?_⟩
  intro location slot there
  exact states_of_applySlotDiffs
    (r := { r with properties := (r.properties.applyDiff delta.diff).1 }) slots there

/-- To a record that a delta has made, it changes nothing just if it speaks with one voice. -/
theorem mergedRecord_snd_eq_false_iff (takes : before.Takes h.now h.config delta r) :
    (h.mergedRecord r delta).2 = false ↔ delta.Coherent r := by
  constructor
  · intro unchanged
    obtain ⟨own, slots⟩ := states_of_mergedRecord unchanged
    refine ⟨Table.coherent_of_states own, ?_⟩
    intro location there
    obtain ⟨slot, there⟩ := Option.isSome_iff_exists.mp there
    exact Table.coherent_of_states (slots location slot there)
  · intro coherent
    obtain ⟨own, slots⟩ := takes.settled coherent
    rw [mergedRecord_snd, Bool.or_eq_false_iff]
    exact ⟨congrArg Prod.snd (Table.applyDiff_of_settled own),
      congrArg Prod.snd (applySlotDiffs_of_settled
        (r := { r with properties := (r.properties.applyDiff delta.diff).1 }) slots)⟩

/-! ## Graphs that have taken a delta -/

/-- Whether a graph holds what a delta has made, with nothing more to come of it. -/
structure Took (delta : Delta) (g : Graph α) (r : Record) : Prop where
  held : g.store.find? delta.id = some r
  live : r.isLive
  kind : r.kind = delta.kind
  takes : ∃ before : Record, before.Takes g.now g.config delta r
  touched : g.touchOwner delta.id = g

/-- Whether a device, if there is one, was heard of just now. -/
def Touched (g : Graph α) (id : ObjectId) : Prop :=
  ∀ r synced, g.store.find? id = some r → r.wiring = .device synced → r.isLive → synced = g.now

theorem touch_of_touched {id : ObjectId} (touched : g.Touched id) : g.touch id = g := by
  refine congrArg (fun store => { g with store }) (Store.modify_eq_self ?_)
  intro r held
  split
  · rename_i synced wiring
    split
    · rename_i live
      rw [← touched r synced held wiring live, ← wiring]
    · rfl
  · rfl

theorem touched_touch (g : Graph α) (id : ObjectId) : (g.touch id).Touched id := by
  intro r synced held wiring live
  simp only [touch, modify, Store.find?_modify, ↓reduceIte] at held
  obtain ⟨r', -, rfl⟩ := Option.map_eq_some_iff.mp held
  revert wiring live
  split
  · split
    · intro wiring _
      exact (Wiring.device.inj wiring).symm
    · rename_i dead
      exact fun _ live => absurd live dead
  · rename_i other
    exact fun wiring _ => absurd wiring (other synced)

theorem find?_touchOwner (g : Graph α) (signal : ObjectId) :
    (g.touchOwner signal).store.find? signal = g.store.find? signal := by
  simp only [touchOwner]
  cases held : g.store.find? signal with
  | none => exact held
  | some r =>
      cases own : r.device? with
      | none => simp [own, held]
      | some device =>
          simp only [Option.bind_some, own, touch, modify, Store.find?_modify]
          split
          · rename_i same
            rw [same, held]
            cases wiring : r.wiring <;> simp [Record.device?, wiring] at own ⊢
          · exact held

theorem touchOwner_of_touched (held : g.store.find? delta.id = some r)
    (touched : ∀ device, r.device? = some device → g.Touched device) :
    g.touchOwner delta.id = g := by
  simp only [touchOwner, held, Option.bind_some]
  cases own : r.device? with
  | none => rfl
  | some device => exact touch_of_touched (touched device own)

theorem touched_touchOwner {signal device : ObjectId} (held : g.store.find? signal = some r)
    (own : r.device? = some device) : (g.touchOwner signal).Touched device := by
  simp only [touchOwner, held, Option.bind_some, own]
  exact touched_touch g device

theorem device?_of_kind (device : r.kind = .device) : r.device? = none := by
  simp only [kind] at device
  cases wiring : r.wiring <;> simp_all [Wiring.kind, Record.device?]

/-- The wiring that is found for a delta is that of a record just heard of. -/
theorem refresh_of_resolve {wiring : Wiring} (resolved : resolve delta g = .ok wiring h) :
    (Record.make delta.id wiring).refresh h.now = Record.make delta.id wiring := by
  cases kind : delta.kind with
  | device =>
      simp only [resolve, kind, Attempt.bind_apply, Attempt.current_apply,
        Attempt.pure_apply] at resolved
      cases resolved
      rfl
  | signal | map | link =>
      rcases resolve_settles delta g with ⟨e, refused⟩ | ⟨wiring', h', resolved', resolves⟩
      · cases refused.symm.trans resolved
      · cases resolved'.symm.trans resolved
        cases resolves.speaks with
        | device other => cases kind.symm.trans other
        | signal | map | link => rfl

theorem took_establish {wiring : Wiring} (vacant : g.store.IsVacant delta.id)
    (kind : wiring.kind = delta.kind)
    (fresh : (Record.make delta.id wiring).refresh g.now = Record.make delta.id wiring) :
    Took delta (g.establish delta wiring) (g.recordOf delta wiring) := by
  have frame := recordOf_frame g delta wiring
  have goes := establish_goes vacant wiring
  have ofKind : (g.recordOf delta wiring).kind = delta.kind := (recordOf_kind ..).trans kind
  have founded := (find?_founded g delta wiring delta.id).trans (if_pos rfl)
  have held : (g.establish delta wiring).store.find? delta.id = some (g.recordOf delta wiring) := by
    rw [store_establish, find?_touchOwner, founded]
  refine ⟨held, congrArg Frame.isLive frame, ofKind, ?_, ?_⟩
  · exact ⟨_, goes.now.symm ▸ goes.config.symm ▸ recordOf_takes g delta fresh⟩
  · refine touchOwner_of_touched held ?_
    intro device related
    -- What belongs to a device is none itself, so nothing is subscribed to after the touch.
    have notDevice : delta.kind ≠ .device := fun isDevice => by
      rw [device?_of_kind (ofKind.trans isDevice)] at related
      cases related
    simp only [establish, if_neg notDevice]
    exact touched_touchOwner founded related

theorem store_noteChange (g : Graph α) (delta : Delta) : (g.noteChange delta).store =
    g.store.modify delta.id ({ · with status := .modified }) := by
  simp only [noteChange]
  split
  · exact (autosubscribe_quiet _ delta.id).store
  · rfl

theorem touched_noteChange {device : ObjectId} (touched : g.Touched device)
    (held : g.store.find? delta.id = some r) (live : r.isLive) :
    (g.noteChange delta).Touched device := by
  intro s synced there wiring alive
  have now : (g.noteChange delta).now = g.now := by
    simp only [noteChange]
    split
    · exact (autosubscribe_aside _ delta.id).now
    · rfl
  rw [now]
  rw [store_noteChange, Store.find?_modify] at there
  split at there
  · rename_i here
    rw [held] at there
    cases Option.some.inj there
    exact touched r synced (here ▸ held) wiring live
  · exact touched s synced there wiring alive

/-- The record after a merge, marked where that changed something. -/
theorem find?_afterMerge (held : g.store.find? delta.id = some r) :
    (g.afterMerge r delta).store.find? delta.id =
      some (if (g.mergedRecord r delta).2 then { (g.mergedRecord r delta).1 with status := .modified }
        else (g.mergedRecord r delta).1) := by
  have touched := (find?_touchOwner (g.withMerged r delta) delta.id).trans
    ((find?_withMerged held delta.id).trans (if_pos rfl))
  simp only [afterMerge]
  split
  · rw [store_noteChange, Store.find?_modify, if_pos rfl, touched, Option.map_some]
  · exact touched

theorem took_afterMerge (held : g.store.find? delta.id = some r) (live : r.isLive)
    (kind : r.kind = delta.kind) : ∃ s, Took delta (g.afterMerge r delta) s := by
  have goes := afterMerge_goes held live kind
  have takes := mergedRecord_takes g r delta
  have frame := (mergedRecord_spec g r delta).1
  have mergedKind : (g.mergedRecord r delta).1.kind = delta.kind := by
    rw [← Record.frame_kind, frame, Record.frame_kind, kind]
  rw [← goes.now, ← goes.config] at takes
  have merged := (find?_withMerged held delta.id).trans (if_pos rfl)
  have touched := (find?_touchOwner (g.withMerged r delta) delta.id).trans merged
  have mergedLive := (congrArg Frame.isLive frame).trans live
  have there := find?_afterMerge held
  split at there <;> rename_i changed
  · refine ⟨_, there, rfl, mergedKind,
      ⟨r, takes.properties, takes.slots, takes.pool, takes.synced, takes.confirmed⟩,
      touchOwner_of_touched there fun device related => ?_⟩
    rw [afterMerge, if_pos changed]
    exact touched_noteChange (touched_touchOwner merged related) touched mergedLive
  · refine ⟨_, there, mergedLive, mergedKind, ⟨r, takes⟩,
      touchOwner_of_touched there fun device related => ?_⟩
    rw [afterMerge, if_neg changed]
    exact touched_touchOwner merged related

/-- Whoever accepts an announcement or an update holds what it has made. -/
theorem took_of_accepted {how : Option Lifecycle} (accepted : upsert delta g = .ok how h) :
    ∃ r, Took delta h r := by
  rcases g.store.isVacant_or_isLive delta.id with vacant | ⟨r, held, live⟩
  · rw [upsert_of_vacant vacant] at accepted
    rcases create_cases delta g with ⟨e, refused⟩ | ⟨wiring, k, resolved, resolves, created⟩
    · cases refused.symm.trans accepted
    · cases created.symm.trans accepted
      have kind : wiring.kind = delta.kind := by
        cases resolves.speaks with
        | device kind | signal kind | map kind | link kind => exact kind.symm
      exact ⟨_, took_establish (resolves.vacant vacant) kind (refresh_of_resolve resolved)⟩
  · by_cases kind : r.kind = delta.kind
    · rw [upsert_of_live held live kind] at accepted
      split at accepted <;> cases accepted
      exact took_afterMerge held live kind
    · simp [upsert, Attempt.bind_apply, held, live, kind] at accepted

/-! ## The second time -/

namespace Took

theorem standing_mergedRecord (g : Graph α) (r : Record) (delta : Delta) :
    (g.mergedRecord r delta).1.standing =
      { r.standing with status := (g.mergedRecord r delta).1.status } := by
  have stands := mergedRecord_standing g r delta
  rw [stands, show (g.mergedRecord r delta).1.status = r.status from congrArg Standing.status stands]
  rfl

theorem alike (took : Took delta g r) : r.Alike (g.mergedRecord r delta).1 :=
  took.takes.choose_spec.alike (mergedRecord_takes g r delta) (standing_mergedRecord g r delta)

theorem touchOwner_withMerged (took : Took delta g r) :
    (g.withMerged r delta).touchOwner delta.id = g.withMerged r delta := by
  have merged := (find?_withMerged took.held delta.id).trans (if_pos rfl)
  refine touchOwner_of_touched merged ?_
  intro device related s synced there wiring live
  have ties : (g.mergedRecord r delta).1.wiring.ties = r.wiring.ties :=
    congrArg Standing.ties took.alike.standing
  have own : r.device? = some device := by
    rw [device?_eq_some_iff, ← ties, ← device?_eq_some_iff]
    exact related
  have touched := touched_touchOwner took.held own
  rw [took.touched] at touched
  simp only [withMerged, modify, Store.find?_modify] at there
  split at there
  · rw [took.held] at there
    cases Option.some.inj there
    have none := device?_of_kind (r := (g.mergedRecord r delta).1) (by rw [Record.kind, wiring]; rfl)
    cases none.symm.trans related
  · exact touched s synced there wiring live

theorem upsert_of_coherent (took : Took delta g r)
    (restates : delta.diff.changes.forM r.checkRelation = .ok ()) (coherent : delta.Coherent r) :
    upsert delta g = .ok none g := by
  obtain ⟨before, takes⟩ := took.takes
  have unchanged := (mergedRecord_snd_eq_false_iff takes).mpr coherent
  have same := takes.eq_of_coherent (mergedRecord_takes g r delta)
    (mergedRecord_standing g r delta) coherent
  have kept : g.withMerged r delta = g :=
    congrArg (fun store => { g with store }) (Store.modify_eq_self fun r' held' =>
      same.trans (Option.some.inj (took.held.symm.trans held')))
  rw [upsert_of_live took.held took.live took.kind, restates]
  simp [unchanged, afterMerge, kept, took.touched]

theorem coherent_of_upsert (took : Took delta g r) (unheard : upsert delta g = .ok none h) :
    delta.diff.changes.forM r.checkRelation = .ok () ∧ delta.Coherent r := by
  obtain ⟨before, takes⟩ := took.takes
  rw [upsert_of_live took.held took.live took.kind] at unheard
  cases restates : delta.diff.changes.forM r.checkRelation with
  | error e =>
      rw [restates] at unheard
      cases unheard
  | ok _ =>
      refine ⟨rfl, (mergedRecord_snd_eq_false_iff takes).mp ?_⟩
      cases changed : (g.mergedRecord r delta).2 with
      | false => rfl
      | true => simp [restates, changed] at unheard

/-- Whatever is told of a delta that comes a second time, records hold what they held. -/
theorem keeps (took : Took delta g r) {how : Option Lifecycle} (again : upsert delta g = .ok how h) :
    h.store.order = g.store.order ∧
      (∀ id, id ≠ delta.id → h.store.find? id = g.store.find? id) ∧
      ∃ s, h.store.find? delta.id = some s ∧ r.Alike s := by
  rw [upsert_of_live took.held took.live took.kind] at again
  split at again <;> cases again
  have merged := find?_withMerged took.held
  simp only [afterMerge, took.touchOwner_withMerged]
  split
  · rw [store_noteChange]
    refine ⟨rfl, ?_, { (g.mergedRecord r delta).1 with status := .modified }, ?_, ?_⟩
    · intro id other
      rw [Store.find?_modify, if_neg other.symm, merged, if_neg other.symm]
    · rw [Store.find?_modify, if_pos rfl, merged, if_pos rfl, Option.map_some]
    · have alike := took.alike
      exact ⟨congrArg (fun s : Standing => { s with status := .modified }) alike.standing,
        alike.properties, alike.slots, alike.pool, alike.synced, alike.confirmed⟩
  · refine ⟨rfl, fun id other => ?_, _, (merged delta.id).trans (if_pos rfl), took.alike⟩
    rw [merged, if_neg other.symm]

end Took

/-- An announcement or an update that is accepted and comes once more at the same time leaves the
    graph exactly as it is, and nobody hears of it, just if all that it says of relations is what
    the object is bound to, and it speaks of each key with one voice. In any case, if it is accepted
    once more, records hold what they held. -/
theorem duplicate_delivery {type : EventType} {how : Option Lifecycle}
    (heard : type = .announce ∨ type = .update) (accepted : applyEvent type delta g = .ok how h) :
    ∃ r, h.store.find? delta.id = some r ∧
      (applyEvent type delta h = .ok none h ↔
        (∀ c ∈ delta.diff.changes, r.checkRelation c = .ok ()) ∧ delta.Coherent r) ∧
      ∀ again k, applyEvent type delta h = .ok again k →
        (again = none → k = h) ∧ k.store.order = h.store.order ∧
        (∀ id, id ≠ delta.id → k.store.find? id = h.store.find? id) ∧
        ∃ s, k.store.find? delta.id = some s ∧ r.Alike s := by
  have same : applyEvent (α := α) type delta = upsert delta := by
    rcases heard with rfl | rfl <;> rfl
  rw [same] at accepted ⊢
  obtain ⟨r, took⟩ := took_of_accepted accepted
  refine ⟨r, took.held, ?_, ?_⟩
  · rw [← forM_eq_ok_iff]
    exact ⟨took.coherent_of_upsert, fun ⟨restates, coherent⟩ =>
      took.upsert_of_coherent restates coherent⟩
  · intro again k accepted'
    refine ⟨?_, took.keeps accepted'⟩
    rintro rfl
    obtain ⟨restates, coherent⟩ := took.coherent_of_upsert accepted'
    have absorbed := took.upsert_of_coherent restates coherent
    cases absorbed.symm.trans accepted'
    rfl

/-- A device of which it is said which number it has, in as many ways as there are numbers. -/
def numbered (numbers : List Int32) : Delta where
  kind := .device
  id := ⟨1⟩
  diff := ⟨numbers.map fun n => .set (.named "number") ⟨.int32 [n], .inr Nat.one_ne_zero⟩⟩
  slots := []

theorem numbered_once_absorbed :
    let g : Graph Unit := make (.quiet ⟨0, 0⟩) .standard
    let h := (applyEvent .announce (numbered [1])).after g
    applyEvent .announce (numbered [1]) g = .ok (some .added) h ∧
      applyEvent .announce (numbered [1]) h = .ok none h := by
  intro g h
  have accepted : applyEvent .announce (numbered [1]) g = .ok (some .added) h := rfl
  obtain ⟨r, -, absorbed, -⟩ := duplicate_delivery (.inl rfl) accepted
  refine ⟨accepted, absorbed.mpr ⟨?_, ?_, ?_⟩⟩
  · intro c member
    rw [List.mem_singleton.mp member]
    rfl
  · intro c member c' member' _ _ _
    rw [List.mem_singleton.mp member, List.mem_singleton.mp member']
    exact .sets (by decide)
  · exact fun location _ c member => absurd member List.not_mem_nil

/-- Listeners hear of the second of two deliveries of one announcement, which left all as it was. -/
theorem numbered_twice_heard :
    let g : Graph Unit := make (.quiet ⟨0, 0⟩) .standard
    Reachable .standard g ∧ ∃ h k, applyEvent .announce (numbered [1, 2]) g = .ok (some .added) h ∧
      applyEvent .announce (numbered [1, 2]) h = .ok (some .modified) k ∧
      h.notifications = [.record ⟨1⟩ .added] ∧
      k.notifications = [.record ⟨1⟩ .added, .record ⟨1⟩ .modified] :=
  ⟨.make _ _, _, _, rfl, rfl, rfl, rfl⟩

end Graph

end SignalGraph
