import SignalGraph.Proofs.RecordOperations

/-! # Announcements and updates

What becomes of a record event: it is refused and leaves no trace, or it makes a new record in place
of none or of that of an object gone, or it is merged into a live record of its kind.
-/

namespace SignalGraph

theorem forM_eq_ok_iff {β : Type} (items : List β) (check : β → Except Error Unit) :
    items.forM check = .ok () ↔ ∀ b ∈ items, check b = .ok () := by
  induction items with
  | nil => simp [pure, Except.pure]
  | cons b items ih =>
      cases first : check b <;>
        simp_all [List.forM_cons, bind, Except.bind]

namespace Store

variable {s : Store} {id owner destination : ObjectId} {sources : List ObjectId} {config : Config}

/-- What may become a device for an object is one, or nothing that is there. -/
theorem checkDevice_eq_ok_iff :
    s.checkDevice owner id = .ok () ↔ id ≠ owner ∧ (s.HasLive id .device ∨ s.IsVacant id) := by
  simp only [checkDevice, HasLive, IsVacant]
  by_cases same : id = owner
  · simp [same]
  · cases held : s.find? id with
    | none => simp [same]
    | some r =>
        by_cases device : r.kind = .device <;> cases live : r.isLive <;> simp [same, device, live]

theorem checkMapEnds_eq_ok_iff :
    s.checkMapEnds config sources destination = .ok () ↔
      sources ≠ [] ∧ sources.length ≤ config.maxMapSources ∧
        ∀ id ∈ sources ++ [destination], s.HasLive id .signal := by
  have ends (id : ObjectId) : ((s.getLive id .signal).map fun _ => ()) = .ok () ↔
      s.HasLive id .signal := by
    cases got : s.getLive id .signal with
    | ok r => simp [Except.map, hasLive_of_getLive got]
    | error e =>
        refine ⟨fun absurd => by simp [Except.map] at absurd, fun ⟨r, there⟩ => ?_⟩
        rw [getLive_eq_ok_iff.mpr there] at got
        exact absurd got (by simp)
  simp only [← ends, ← forM_eq_ok_iff, checkMapEnds]
  generalize ((sources ++ [destination]).forM fun id =>
    (s.getLive id .signal).map fun _ => () : Except Error Unit) = all
  cases sources with
  | nil => simp [bind, Except.bind]
  | cons source rest =>
      by_cases fits : rest.length + 1 ≤ config.maxMapSources
      · simp [fits, Nat.not_lt.mpr fits]
      · simp [fits, Nat.not_le.mp fits, bind, Except.bind]

end Store

namespace Graph

variable {α : Type} {g h : Graph α} {delta : Delta} {wiring : Wiring}

/-! ## New records -/

/-- The graph with the record that a delta describes in it, before anything else comes of that. -/
def founded (g : Graph α) (delta : Delta) (wiring : Wiring) : Graph α :=
  ({ g with store := g.store.discard delta.id } : Graph α).insert (g.recordOf delta wiring)

theorem find?_founded (g : Graph α) (delta : Delta) (wiring : Wiring) (id : ObjectId) :
    (g.founded delta wiring).store.find? id =
      if delta.id = id then some (g.recordOf delta wiring) else g.store.find? id := by
  have same : (g.recordOf delta wiring).id = delta.id :=
    congrArg Frame.id (recordOf_frame g delta wiring)
  simp only [founded, insert, notify, Store.find?_insert, Store.find?_discard, same]
  split <;> rfl

/-- To subscribe to a new device does nothing to the records. -/
theorem store_establish (g : Graph α) (delta : Delta) (wiring : Wiring) :
    (g.establish delta wiring).store = ((g.founded delta wiring).touchOwner delta.id).store := by
  simp only [establish]
  split
  · exact (autosubscribe_quiet _ delta.id).store
  · rfl

theorem founded_does (vacant : g.store.IsVacant delta.id)
    (fits : g.store.Fits g.config.maxMapSources wiring.ties)
    (stocked : (Record.make delta.id wiring).Stocked g.config.maxInstances) :
    (RecordChange.found (g.recordOf delta wiring)).Does g [.record delta.id .added]
      (g.founded delta wiring) := by
  have frame := recordOf_frame g delta wiring
  have id : (g.recordOf delta wiring).id = delta.id := congrArg Frame.id frame
  have live : (g.recordOf delta wiring).isLive = true := congrArg Frame.isLive frame
  have ties : (g.recordOf delta wiring).wiring.ties = wiring.ties := congrArg Frame.ties frame
  have restocked := stocked.of_restocks (recordOf_restocks g delta wiring)
  refine ⟨⟨live, id.symm ▸ vacant, ties.symm ▸ fits, restocked⟩, ?_, rfl, ?_, ?_⟩
  · simp only [founded, insert, notify, RecordChange.store, id]
  · simp only [founded, insert, notify, id]
  · simp only [created, RecordChange.creates, id, List.filterMap_cons, List.filterMap_nil]

theorem establish_leads (g : Graph α) (delta : Delta) (wiring : Wiring) :
    Leads RecordChange.IsFilling (g.founded delta wiring) (g.establish delta wiring) := by
  have touched := touchOwner_leads (g.founded delta wiring) delta.id
  simp only [establish]
  split
  · exact touched.trans (autosubscribe_quiet _ delta.id).leads
  · exact touched

theorem outline_establish (g : Graph α) (delta : Delta) (wiring : Wiring) (id : ObjectId) :
    (g.establish delta wiring).store.outline id =
      if delta.id = id then some ⟨delta.id, true, wiring.ties⟩ else g.store.outline id := by
  rw [(establish_leads g delta wiring).sameOutline.outline id, Store.outline, find?_founded]
  split
  · exact congrArg some (recordOf_frame g delta wiring)
  · rfl

/-! ## Placeholders -/

/-- What it takes that a device has a record: at most a new record that says nothing of it. -/
structure Ensures (g : Graph α) (device : ObjectId) (h : Graph α) : Prop where
  leads : Leads RecordChange.IsPlain g h
  there : h.store.HasLive device .device
  others : ∀ id, id ≠ device → h.store.outline id = g.store.outline id
  stays : ∀ id kind, g.store.HasLive id kind → h.store.HasLive id kind

/-- What could become a device still can. -/
theorem Ensures.free {device : ObjectId} (ensures : g.Ensures device h) (id : ObjectId)
    (free : g.store.HasLive id .device ∨ g.store.IsVacant id) :
    h.store.HasLive id .device ∨ h.store.IsVacant id := by
  by_cases same : id = device
  · exact .inl (same ▸ ensures.there)
  · exact free.imp (ensures.stays id .device) (.congr (ensures.others id same))

theorem ensureDevice_of_hasLive {device : ObjectId} (there : g.store.HasLive device .device) :
    ensureDevice device g = .ok () g := by
  obtain ⟨r, held, kind, live⟩ := there
  simp [ensureDevice, Attempt.bind_apply, held, live, kind]

theorem ensureDevice_of_isVacant {device : ObjectId} (vacant : g.store.IsVacant device) :
    ensureDevice device g = .ok () (g.establish (.empty .device device) (.device g.now)) := by
  simp only [ensureDevice, Attempt.bind_apply, Attempt.current_apply]
  cases held : g.store.find? device with
  | none => rfl
  | some r => simp [vacant r held]

/-- A device is there, or is made where nothing is, and else refused. -/
theorem ensureDevice_cases (device : ObjectId) (g : Graph α) :
    (∃ e, ensureDevice device g = .error e g) ∨ ensureDevice device g = .ok () g ∨
      (g.store.IsVacant device ∧
        ensureDevice device g = .ok () (g.establish (.empty .device device) (.device g.now))) := by
  rcases g.store.isVacant_or_isLive device with vacant | ⟨r, held, live⟩
  · exact .inr (.inr ⟨vacant, ensureDevice_of_isVacant vacant⟩)
  · by_cases kind : r.kind = .device
    · exact .inr (.inl (ensureDevice_of_hasLive ⟨r, held, kind, live⟩))
    · refine .inl ⟨.malformed (.notDevice device r.kind), ?_⟩
      simp [ensureDevice, Attempt.bind_apply, held, live, kind]

theorem ensureDevice_ensures {device : ObjectId}
    (free : g.store.HasLive device .device ∨ g.store.IsVacant device) :
    ∃ h, ensureDevice device g = .ok () h ∧ g.Ensures device h := by
  by_cases there : g.store.HasLive device .device
  · exact ⟨g, ensureDevice_of_hasLive there, .refl g, there, fun _ _ => rfl, fun _ _ held => held⟩
  · have vacant := free.resolve_left there
    have outline := outline_establish g (.empty .device device) (.device g.now)
    have fits : g.store.Fits g.config.maxMapSources (Wiring.device g.now).ties :=
      ⟨fun _ member => absurd member List.not_mem_nil, trivial⟩
    refine ⟨_, ensureDevice_of_isVacant vacant, ?_, ?_, ?_, ?_⟩
    · have plain : (RecordChange.found (g.recordOf (.empty .device device) (.device g.now))).IsPlain :=
        ⟨recordOf_kind g _ _, (recordOf_fills g _ _).properties⟩
      have stocked : (Record.make device (.device g.now)).Stocked g.config.maxInstances :=
        Record.stocked_of_none rfl
      exact .trans (.one plain (founded_does vacant fits stocked)) (establish_leads g _ _).plain
    · exact Store.hasLive_iff_outline.mpr ⟨_, (outline device).trans (if_pos rfl), rfl, rfl⟩
    · exact fun id different => (outline id).trans (if_neg different.symm)
    · exact fun id kind held => held.congr
        ((outline id).trans (if_neg (held.ne_of_isVacant vacant)))

/-- Whether the wiring of a new record is what a delta says. -/
inductive Says (delta : Delta) : Wiring → Prop
  | device (kind : delta.kind = .device) (synced : Timetag) : Says delta (.device synced)
  | signal (kind : delta.kind = .signal) {device : ObjectId} (pool : Pool)
      (related : delta.diff.relatedId .device = .ok device) : Says delta (.signal device pool)
  | map (kind : delta.kind = .map) {sources : List ObjectId} {destination : ObjectId}
      (start : delta.diff.relatedIds .sources = .ok sources)
      (goal : delta.diff.relatedId .destination = .ok destination) :
      Says delta (.map (sources.map Slot.bare) (.bare destination) false)
  | link (kind : delta.kind = .link) {first second : ObjectId}
      (related : delta.diff.relatedIds .devices = .ok [first, second]) :
      Says delta (.link first second)

theorem ties_map_bare (sources : List ObjectId) (destination : ObjectId) (isLocal : Bool) :
    (Wiring.map (sources.map Slot.bare) (.bare destination) isLocal).ties =
      .map sources destination := by
  simp [Wiring.ties, Slot.bare, Function.comp_def]

/-- What it takes to find the wiring that a delta says: placeholders for the devices in it. -/
structure Resolves (delta : Delta) (g : Graph α) (wiring : Wiring) (h : Graph α) : Prop where
  leads : Leads RecordChange.IsPlain g h
  speaks : Says delta wiring
  fits : h.store.Fits g.config.maxMapSources wiring.ties
  stocked : (Record.make delta.id wiring).Stocked g.config.maxInstances
  vacant : g.store.IsVacant delta.id → h.store.IsVacant delta.id

/-- Whether the wiring that a delta says is found, or else nothing is changed. -/
def Settles (delta : Delta) (g : Graph α) : Prop :=
  (∃ e, resolve delta g = .error e g) ∨
    ∃ wiring h, resolve delta g = .ok wiring h ∧ Resolves delta g wiring h

theorem settles_signal (kind : delta.kind = .signal) : Settles delta g := by
  simp only [Settles, resolve, kind, Attempt.bind_apply, Attempt.current_apply]
  cases related : delta.diff.relatedId .device with
  | error e => exact .inl ⟨e, rfl⟩
  | ok device =>
      simp only [Attempt.demand_ok]
      cases check : g.store.checkDevice delta.id device with
      | error e => exact .inl ⟨e, rfl⟩
      | ok _ =>
          obtain ⟨different, free⟩ := Store.checkDevice_eq_ok_iff.mp check
          obtain ⟨h, same, ensures⟩ := ensureDevice_ensures free
          simp only [Attempt.demand_ok, same]
          refine .inr ⟨_, h, rfl, ensures.leads, .signal kind _ related, ⟨?_, trivial⟩,
            fun pool held => Option.some.inj held ▸ g.newPool_made,
            .congr (ensures.others _ different.symm)⟩
          simpa [Wiring.ties, Ties.needs] using ensures.there

theorem settles_map (kind : delta.kind = .map) : Settles delta g := by
  simp only [Settles, resolve, kind, Attempt.bind_apply, Attempt.current_apply]
  cases start : delta.diff.relatedIds .sources with
  | error e => exact .inl ⟨e, rfl⟩
  | ok sources =>
      simp only [Attempt.demand_ok]
      cases goal : delta.diff.relatedId .destination with
      | error e => exact .inl ⟨e, rfl⟩
      | ok destination =>
          simp only [Attempt.demand_ok]
          cases check : g.store.checkMapEnds g.config sources destination with
          | error e => exact .inl ⟨_, rfl⟩
          | ok _ =>
              obtain ⟨some, few, live⟩ := Store.checkMapEnds_eq_ok_iff.mp check
              have ties := ties_map_bare sources destination false
              refine .inr ⟨_, g, rfl, .refl g, .map kind start goal, ⟨?_, ?_⟩,
                Record.stocked_of_none rfl, fun vacant => vacant⟩
              · intro need member
                obtain ⟨id, among, rfl⟩ := List.mem_map.mp (ties ▸ member)
                exact live id among
              · exact ties ▸ ⟨some, few⟩

theorem settles_link (kind : delta.kind = .link) : Settles delta g := by
  simp only [Settles, resolve, kind, Attempt.bind_apply, Attempt.current_apply]
  cases related : delta.diff.relatedIds .devices with
  | error e => exact .inl ⟨e, rfl⟩
  | ok ids =>
      simp only [Attempt.demand_ok]
      split
      · rename_i first second
        simp only [Attempt.bind_apply, Attempt.pure_apply]
        cases check : g.store.checkDevice delta.id first with
        | error e => exact .inl ⟨e, rfl⟩
        | ok _ =>
            simp only [Attempt.demand_ok]
            cases checkSecond : g.store.checkDevice delta.id second with
            | error e => exact .inl ⟨e, rfl⟩
            | ok _ =>
                obtain ⟨different, free⟩ := Store.checkDevice_eq_ok_iff.mp check
                obtain ⟨differentSecond, freeSecond⟩ := Store.checkDevice_eq_ok_iff.mp checkSecond
                obtain ⟨h, same, ensures⟩ := ensureDevice_ensures free
                obtain ⟨k, sameSecond, ensuresSecond⟩ :=
                  ensureDevice_ensures (ensures.free second freeSecond)
                simp only [Attempt.demand_ok, same, sameSecond]
                refine .inr ⟨_, k, rfl, ensures.leads.trans ensuresSecond.leads,
                  .link kind related, ⟨?_, trivial⟩, Record.stocked_of_none rfl, ?_⟩
                · simpa [Wiring.ties, Ties.needs] using
                    ⟨ensuresSecond.stays _ _ ensures.there, ensuresSecond.there⟩
                · intro vacant
                  exact .congr (ensuresSecond.others _ differentSecond.symm)
                    (vacant.congr (ensures.others _ different.symm))
      · exact .inl ⟨_, rfl⟩

theorem resolve_settles (delta : Delta) (g : Graph α) : Settles delta g := by
  cases kind : delta.kind with
  | device =>
      refine .inr ⟨.device g.now, g, ?_, .refl g, .device kind g.now, ?_,
        Record.stocked_of_none rfl, fun vacant => vacant⟩
      · simp [resolve, Attempt.bind_apply, kind]
      · exact ⟨fun _ member => absurd member List.not_mem_nil, trivial⟩
  | signal => exact settles_signal kind
  | map => exact settles_map kind
  | link => exact settles_link kind

/-- A record is made unless its wiring is refused. -/
theorem create_cases (delta : Delta) (g : Graph α) :
    (∃ e, create delta g = .error e g) ∨
      ∃ wiring h, resolve delta g = .ok wiring h ∧ Resolves delta g wiring h ∧
        create delta g = .ok (some .added) (h.establish delta wiring) := by
  simp only [create, Attempt.bind_apply]
  rcases resolve_settles delta g with ⟨e, refused⟩ | ⟨wiring, h, resolved, resolves⟩
  · exact .inl ⟨e, by rw [refused]⟩
  · exact .inr ⟨wiring, h, resolved, resolves, by rw [resolved]; rfl⟩

/-- What making devices keeps, and making the record behind them, the whole keeps. -/
theorem create_walks_of {R : Graph α → Graph α → Prop} [IsPreorder (Graph α) R]
    (ensures : ∀ id, Attempt.Walks R (ensureDevice id))
    (establishes : ∀ wiring h, resolve delta g = .ok wiring h → Resolves delta g wiring h →
      R h (h.establish delta wiring)) : R g ((create delta).after g) := by
  have resolving := resolve_walks ensures delta g
  rcases create_cases delta g with ⟨e, refused⟩ | ⟨wiring, h, resolved, resolves, created⟩
  · rw [Attempt.after, refused]
    exact Std.Refl.refl g
  · rw [Attempt.after, resolved] at resolving
    rw [Attempt.after, created]
    exact IsTrans.trans _ _ _ resolving (establishes wiring h resolved resolves)

/-! ## Known records -/

def withMerged (g : Graph α) (r : Record) (delta : Delta) : Graph α :=
  g.modify delta.id fun _ => (g.mergedRecord r delta).1

theorem find?_withMerged {r : Record} (held : g.store.find? delta.id = some r) (id : ObjectId) :
    (g.withMerged r delta).store.find? id =
      if delta.id = id then some (g.mergedRecord r delta).1 else g.store.find? id := by
  simp only [withMerged, modify, Store.find?_modify, held, Option.map_some]

/-- The graph after a merge, when all that it changes is noted. -/
def afterMerge (g : Graph α) (r : Record) (delta : Delta) : Graph α :=
  let h := (g.withMerged r delta).touchOwner delta.id
  if (g.mergedRecord r delta).2 then h.noteChange delta else h

theorem upsert_of_vacant (vacant : g.store.IsVacant delta.id) :
    upsert delta g = create delta g := by
  simp only [upsert, Attempt.bind_apply, Attempt.current_apply]
  cases held : g.store.find? delta.id with
  | none => rfl
  | some r => simp [vacant r held]

theorem upsert_of_mismatch {r : Record} (held : g.store.find? delta.id = some r) (live : r.isLive)
    (other : r.kind ≠ delta.kind) :
    upsert delta g = .error (.malformed (.kindChange r.kind delta.id delta.kind)) g := by
  simp only [upsert, Attempt.bind_apply, Attempt.current_apply, held, live, Bool.not_true,
    Bool.false_eq_true, ↓reduceIte, ne_eq, other, not_false_eq_true, Attempt.throw_apply]

/-- A merge is refused where a relation is not said again as it is, and else told of just if it
    changed something. -/
theorem upsert_of_live {r : Record} (held : g.store.find? delta.id = some r) (live : r.isLive)
    (kind : r.kind = delta.kind) : upsert delta g =
      match delta.diff.changes.forM r.checkRelation with
      | .error e => .error e g
      | .ok _ => .ok (if (g.mergedRecord r delta).2 then some .modified else none)
          (g.afterMerge r delta) := by
  have merges : upsert delta g = merge delta g := by
    simp [upsert, Attempt.bind_apply, held, live, kind]
  rw [merges]
  simp only [merge, Attempt.bind_apply, Attempt.current_apply, held]
  cases delta.diff.changes.forM r.checkRelation with
  | error e => rfl
  | ok _ =>
      simp only [Attempt.demand_ok, Attempt.change_apply, afterMerge, withMerged]
      cases (g.mergedRecord r delta).2 <;> rfl

/-- An announcement or an update makes a record, or is refused, or is merged into the record of a live
    object of its kind. -/
theorem upsert_cases (delta : Delta) (g : Graph α) :
    (g.store.IsVacant delta.id ∧ upsert delta g = create delta g) ∨
      (∃ e, upsert delta g = .error e g) ∨
      ∃ r how, g.store.find? delta.id = some r ∧ r.isLive ∧ r.kind = delta.kind ∧
        delta.diff.changes.forM r.checkRelation = .ok () ∧
        upsert delta g = .ok how (g.afterMerge r delta) := by
  rcases g.store.isVacant_or_isLive delta.id with vacant | ⟨r, held, live⟩
  · exact .inl ⟨vacant, upsert_of_vacant vacant⟩
  · by_cases kind : r.kind = delta.kind
    · rw [upsert_of_live held live kind]
      cases check : delta.diff.changes.forM r.checkRelation with
      | error e => exact .inr (.inl ⟨e, rfl⟩)
      | ok _ => exact .inr (.inr ⟨r, _, held, live, kind, check, rfl⟩)
    · exact .inr (.inl ⟨_, upsert_of_mismatch held live kind⟩)

/-- What becomes of an announcement or an update. -/
inductive Upserts (delta : Delta) (g : Graph α) :
    EStateM.Result Error (Graph α) (Option Lifecycle) → Prop
  | refused (e : Error) : Upserts delta g (.error e g)
  | created {wiring : Wiring} {h : Graph α} (vacant : g.store.IsVacant delta.id)
      (resolves : Resolves delta g wiring h) :
      Upserts delta g (.ok (some .added) (h.establish delta wiring))
  | merged {r : Record} (held : g.store.find? delta.id = some r) (live : r.isLive)
      (kind : r.kind = delta.kind) (restates : delta.diff.changes.forM r.checkRelation = .ok ())
      (how : Option Lifecycle) : Upserts delta g (.ok how (g.afterMerge r delta))

theorem create_upserts (vacant : g.store.IsVacant delta.id) :
    Upserts delta g (create delta g) := by
  rcases create_cases delta g with ⟨e, refused⟩ | ⟨wiring, h, -, resolves, created⟩
  · exact refused ▸ .refused e
  · exact created ▸ .created vacant resolves

theorem upsert_upserts (delta : Delta) (g : Graph α) : Upserts delta g (upsert delta g) := by
  rcases upsert_cases delta g with ⟨vacant, same⟩ | ⟨e, refused⟩ |
    ⟨r, how, held, live, kind, restates, merged⟩
  · exact same ▸ create_upserts vacant
  · exact refused ▸ .refused e
  · exact merged ▸ .merged held live kind restates how

theorem withMerged_does {r : Record} (held : g.store.find? delta.id = some r) (live : r.isLive)
    (kind : r.kind = delta.kind) (restates : delta.diff.changes.forM r.checkRelation = .ok ()) :
    (RecordChange.merge delta).Does g [] (g.withMerged r delta) := by
  refine ⟨⟨r, held, live, kind, restates⟩, ?_, rfl, (List.append_nil _).symm, rfl⟩
  simp only [withMerged, modify, RecordChange.store, held]

theorem withMerged_sameOutline {r : Record} (held : g.store.find? delta.id = some r) :
    g.store.SameOutline (g.withMerged r delta).store :=
  Store.sameOutline_modify fun _ held' =>
    Option.some.inj (held.symm.trans held') ▸ (mergedRecord_spec g r delta).1

theorem noteChange_leads (live : ∀ r, g.store.find? delta.id = some r → r.isLive) :
    Leads RecordChange.IsFilling g (g.noteChange delta) := by
  have marked : Leads RecordChange.IsFilling g (g.modify delta.id ({ · with status := .modified })) := by
    refine .fill (fun r held => ⟨?_, rfl, rfl⟩) fun r _ => .of_same rfl
    exact congrArg (Frame.mk r.id · r.wiring.ties) (live r held).symm
  have noted : Leads RecordChange.IsFilling g
      ((g.modify delta.id ({ · with status := .modified })).notify delta.id .modified) :=
    marked.trans (.one (d := .keep) trivial ⟨trivial, rfl, rfl, rfl, rfl⟩)
  simp only [noteChange]
  split
  · exact noted.trans (autosubscribe_quiet _ delta.id).leads
  · exact noted

theorem afterMerge_leads {r : Record} (held : g.store.find? delta.id = some r) (live : r.isLive) :
    Leads RecordChange.IsFilling (g.withMerged r delta) (g.afterMerge r delta) := by
  have touched := touchOwner_leads (g.withMerged r delta) delta.id
  simp only [afterMerge]
  split
  · refine touched.trans (noteChange_leads ?_)
    intro r' held'
    have frame : r'.frame = r.frame := Option.some.inj <| calc
      some r'.frame = ((g.withMerged r delta).touchOwner delta.id).store.outline delta.id :=
        (Store.outline_of_find? held').symm
      _ = (g.withMerged r delta).store.outline delta.id := touched.sameOutline.outline delta.id
      _ = g.store.outline delta.id := (withMerged_sameOutline held).outline delta.id
      _ = some r.frame := Store.outline_of_find? held
    exact (congrArg Frame.isLive frame).trans live
  · exact touched

end Graph

end SignalGraph
