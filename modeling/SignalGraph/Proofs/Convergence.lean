import SignalGraph.Proofs.Duplicate

/-! # Announcements in any order

What devices, signals and links are announced may come in any order. A signal or a link that comes
before a device it names makes a placeholder for it, and the announcement of the device is merged
into that. Which records there are in the end, and all that they hold, depends only on what was
announced: the one difference is whether a record counts as changed since it was new.
-/

namespace SignalGraph

/-! ## Records but for marks of changes -/

def Status.unmarked : Status → Status
  | .modified => .new
  | s => s

namespace Record

variable {r : Record}

/-- The record as if no change of it had been noted. -/
def unmarked (r : Record) : Record := { r with status := r.status.unmarked }

@[simp] theorem isLive_unmarked (r : Record) : r.unmarked.isLive = r.isLive := by
  cases status : r.status <;> simp [unmarked, isLive, status, Status.unmarked, Status.isTerminal]

theorem unmarked_of_new (new : r.status = .new) : r.unmarked = r := by
  cases r
  cases new
  rfl

theorem unmarked_of_modified (live : r.isLive) :
    { r with status := .modified }.unmarked = r.unmarked := by
  cases status : r.status with
  | new | modified => simp only [unmarked, status, Status.unmarked]
  | removed | expired => simp [isLive, status, Status.isTerminal] at live

/-- The record of a device of which nothing is said. -/
def blank (id : ObjectId) (now : Timetag) : Record := .make id (.device now)

theorem checkRelation_of_blank {id : ObjectId} {now : Timetag} (same : r.unmarked = .blank id now)
    (c : Change) : r.checkRelation c = .ok () := by
  have properties : r.properties = .empty := congrArg Record.properties same
  have wiring : r.wiring = .device now := congrArg Record.wiring same
  have unbound (p : Property) : r.boundIds? p = none := by
    cases p <;> simp only [boundIds?, wiring, properties] <;> rfl
  simp only [checkRelation, unbound]
  split
  · rfl
  · split <;> rfl

/-- What a delta makes of a record is settled by that record. -/
theorem Takes.unique {s t : Record} {now : Timetag} {config : Config} {delta : Delta}
    (first : r.Takes now config delta s) (second : r.Takes now config delta t)
    (standing : t.standing = s.standing) : t = s := by
  have properties := second.properties.trans first.properties.symm
  refine eq_of_parts standing properties ?_ ?_ ?_ ?_
  · exact fun location => (second.slots location).trans (first.slots location).symm
  · rw [second.pool, first.pool, properties]
  · exact second.synced.trans first.synced.symm
  · exact second.confirmed.trans first.confirmed.symm

theorem Takes.unmarked {s : Record} {now : Timetag} {config : Config} {delta : Delta}
    (takes : r.Takes now config delta s) : r.unmarked.Takes now config delta s.unmarked :=
  ⟨takes.properties, takes.slots, takes.pool, takes.synced, takes.confirmed⟩

end Record

namespace Store

variable {s t : Store} {id : ObjectId} {r : Record}

/-- What is held of an object, whether or not changes of it were noted. -/
def view? (s : Store) (id : ObjectId) : Option Record := (s.find? id).map Record.unmarked

theorem hasLive_of_view? {kind : ObjectKind} (view : s.view? id = some r) (live : r.isLive)
    (same : r.kind = kind) : s.HasLive id kind := by
  obtain ⟨r', held, rfl⟩ := Option.map_eq_some_iff.mp view
  exact ⟨r', held, same, r'.isLive_unmarked ▸ live⟩

theorem IsVacant.of_view? (same : t.view? id = s.view? id) (vacant : s.IsVacant id) :
    t.IsVacant id := by
  intro r held
  have view : t.view? id = some r.unmarked := congrArg (Option.map Record.unmarked) held
  obtain ⟨r', held', same'⟩ := Option.map_eq_some_iff.mp (same.symm.trans view)
  rw [← r.isLive_unmarked, ← same', r'.isLive_unmarked]
  exact vacant r' held'

end Store

namespace Graph

variable {α : Type} {g h k : Graph α} {delta : Delta} {wiring : Wiring} {id : ObjectId}

/-! ## What an announcement does -/

theorem recordOf_congr (config : h.config = g.config) (delta : Delta) (wiring : Wiring) :
    h.recordOf delta wiring = g.recordOf delta wiring := by
  simp only [recordOf, config]

theorem status_recordOf (g : Graph α) (delta : Delta) (wiring : Wiring) :
    (g.recordOf delta wiring).status = .new :=
  congrArg Standing.status (recordOf_standing g delta wiring)

/-- A new record leaves the others as they were, where the devices of the object were heard of just
    now. -/
theorem view?_establish (touched : ∀ device, (g.recordOf delta wiring).device? = some device →
      device ≠ delta.id ∧ g.Touched device) (id : ObjectId) :
    (g.establish delta wiring).store.view? id =
      if delta.id = id then some (g.recordOf delta wiring) else g.store.view? id := by
  have founded := (find?_founded g delta wiring delta.id).trans (if_pos rfl)
  have untouched : (g.founded delta wiring).touchOwner delta.id = g.founded delta wiring := by
    refine touchOwner_of_touched founded fun device own => ?_
    obtain ⟨apart, touched⟩ := touched device own
    intro r synced held
    rw [find?_founded, if_neg apart.symm] at held
    exact touched r synced held
  rw [Store.view?, store_establish, untouched, find?_founded]
  split
  · exact congrArg some (Record.unmarked_of_new (status_recordOf g delta wiring))
  · rfl

/-- What is announced of a device is all there is to it, also where it was named before. -/
theorem mergedRecord_of_blank {r : Record} (blank : r.unmarked = .blank delta.id g.now) :
    (g.mergedRecord r delta).1.unmarked = g.recordOf delta (.device g.now) := by
  have merged : (Record.blank delta.id g.now).Takes g.now g.config delta
      (g.mergedRecord r delta).1.unmarked := blank ▸ (mergedRecord_takes g r delta).unmarked
  refine (recordOf_takes g delta rfl).unique merged ?_
  have stands := mergedRecord_standing g r delta
  calc (g.mergedRecord r delta).1.unmarked.standing
    _ = r.unmarked.standing :=
        congrArg (fun s : Standing => { s with status := s.status.unmarked }) stands
    _ = (Record.blank delta.id g.now).standing := congrArg Record.standing blank
    _ = (g.recordOf delta (.device g.now)).standing := (recordOf_standing g delta _).symm

theorem view?_modify (g : Graph α) {r : Record} {f : Record → Record}
    (held : g.store.find? id = some r) (other : ObjectId) :
    (g.modify id f).store.view? other =
      if id = other then some (f r).unmarked else g.store.view? other := by
  simp only [modify, Store.view?, Store.find?_modify, held]
  split <;> rfl

/-- Where a device is merged, all other records stay as they were. -/
theorem view?_afterMerge {r : Record} (held : g.store.find? delta.id = some r) (live : r.isLive)
    (device : r.kind = .device) (id : ObjectId) : (g.afterMerge r delta).store.view? id =
      if delta.id = id then some (g.mergedRecord r delta).1.unmarked else g.store.view? id := by
  have merged := (find?_withMerged held delta.id).trans (if_pos rfl)
  have frame := (mergedRecord_spec g r delta).1
  have mergedLive := (congrArg Frame.isLive frame).trans live
  have ownerless : (g.mergedRecord r delta).1.device? = none := by
    refine device?_of_kind ?_
    rw [← Record.frame_kind, frame, Record.frame_kind, device]
  have untouched : (g.withMerged r delta).touchOwner delta.id = g.withMerged r delta :=
    touchOwner_of_touched merged fun device own => nomatch ownerless.symm.trans own
  have filled := view?_modify g (f := fun _ => (g.mergedRecord r delta).1) held id
  simp only [afterMerge, untouched]
  split
  · have noted := view?_modify (g.withMerged r delta) (f := ({ · with status := .modified })) merged
      id
    rw [Store.view?, store_noteChange]
    refine noted.trans ?_
    split
    · rename_i here
      exact congrArg some (Record.unmarked_of_modified mergedLive)
    · rename_i apart
      exact filled.trans (if_neg apart)
  · exact filled

/-- What is said of a device that was only named is merged into its record, whatever it is. -/
theorem upsert_merges_of_blank {synced : Timetag} (device : delta.kind = .device)
    (blank : g.store.view? delta.id = some (.blank delta.id synced)) :
    ∃ r how, g.store.find? delta.id = some r ∧ r.unmarked = .blank delta.id synced ∧ r.isLive ∧
      r.kind = .device ∧ upsert delta g = .ok how (g.afterMerge r delta) := by
  obtain ⟨r, held, same⟩ := Option.map_eq_some_iff.mp blank
  have live : r.isLive := by
    rw [← r.isLive_unmarked, same]
    rfl
  have ofDevice : r.kind = .device := congrArg Record.kind same
  have restates := (forM_eq_ok_iff delta.diff.changes _).mpr fun c _ =>
    Record.checkRelation_of_blank same c
  have merges := upsert_of_live held live (ofDevice.trans device.symm)
  rw [restates] at merges
  exact ⟨r, _, held, same, live, ofDevice, merges⟩

/-- The announcement of a device that was only named is taken. -/
theorem upsert_of_blank (device : delta.kind = .device)
    (blank : g.store.view? delta.id = some (.blank delta.id g.now)) :
    ∃ how h, upsert delta g = .ok how h ∧ g.Goes h ∧ ∀ id, h.store.view? id =
      if delta.id = id then some (g.recordOf delta (.device g.now)) else g.store.view? id := by
  obtain ⟨r, how, held, same, live, ofDevice, merges⟩ := upsert_merges_of_blank device blank
  have kind := ofDevice.trans device.symm
  refine ⟨how, _, merges, afterMerge_goes held live kind, fun id => ?_⟩
  rw [view?_afterMerge held live ofDevice, mergedRecord_of_blank same]

/-! ## What was heard -/

/-- What an announcement names, and how its object is wired to that: a signal names its device, a
    link the two that it joins. -/
inductive Names (g : Graph α) (delta : Delta) : List ObjectId → Wiring → Prop
  | device (kind : delta.kind = .device) : Names g delta [] (.device g.now)
  | signal (kind : delta.kind = .signal) {device : ObjectId}
      (related : delta.diff.relatedId .device = .ok device) :
      Names g delta [device] (.signal device g.newPool)
  | link (kind : delta.kind = .link) {first second : ObjectId}
      (related : delta.diff.relatedIds .devices = .ok [first, second]) :
      Names g delta [first, second] (.link first second)

theorem Names.unique {devices devices' : List ObjectId} {wiring wiring' : Wiring}
    (names : g.Names delta devices wiring) (names' : g.Names delta devices' wiring') :
    devices' = devices ∧ wiring' = wiring := by
  cases names <;> cases names' <;> simp_all

/-- Whether a device is named by some announcements, or among some that are named anyway. -/
def IsNamed (g : Graph α) (heard : List Delta) (named : List ObjectId) (id : ObjectId) : Prop :=
  id ∈ named ∨ ∃ d ∈ heard, ∃ devices wiring, g.Names d devices wiring ∧ id ∈ devices

theorem Names.isNamed_cons {devices : List ObjectId} {heard : List Delta}
    (names : g.Names delta devices wiring) :
    g.IsNamed (delta :: heard) [] id ↔ g.IsNamed heard devices id := by
  simp only [IsNamed, List.exists_mem_cons_iff, List.not_mem_nil, false_or]
  refine or_congr_left ⟨?_, fun member => ⟨devices, wiring, names, member⟩⟩
  rintro ⟨devices', wiring', names', member⟩
  exact (names.unique names').1 ▸ member

theorem isNamed_append {heard : List Delta} {named : List ObjectId} {other : ObjectId} :
    g.IsNamed heard (named ++ [id]) other ↔ g.IsNamed heard named other ∨ id = other := by
  simp only [IsNamed, List.mem_append, List.mem_singleton, eq_comm, or_right_comm]

/-- Whether a graph is what another is after some announcements and the naming of some more devices.
    It goes only by which announcements these are. -/
structure Heard (g : Graph α) (heard : List Delta) (named : List ObjectId) (h : Graph α) :
    Prop where
  config : h.config = g.config
  now : h.now = g.now
  announced : ∀ d ∈ heard, ∀ devices wiring, g.Names d devices wiring →
    h.store.view? d.id = some (g.recordOf d wiring)
  placed : ∀ id, (∀ d ∈ heard, d.id ≠ id) → g.IsNamed heard named id →
    h.store.view? id = some (.blank id g.now)
  others : ∀ id, (∀ d ∈ heard, d.id ≠ id) → ¬ g.IsNamed heard named id →
    h.store.view? id = g.store.view? id

def IsKnown (g : Graph α) (heard : List Delta) (named : List ObjectId) (id : ObjectId) : Prop :=
  (∃ d ∈ heard, d.id = id) ∨ g.IsNamed heard named id

/-- Whether an object may name a device beside some announcements: not itself, nothing that was
    there before, and nothing that is announced as anything else. -/
structure MayName (g : Graph α) (ds : List Delta) (owner device : ObjectId) : Prop where
  apart : device ≠ owner
  vacant : g.store.IsVacant device
  devices : ∀ d ∈ ds, d.id = device → d.kind = .device

theorem MayName.tail {ds : List Delta} {owner device : ObjectId}
    (may : g.MayName (delta :: ds) owner device) : g.MayName ds owner device :=
  ⟨may.apart, may.vacant, fun d member => may.devices d (List.mem_cons_of_mem delta member)⟩

namespace Heard

variable {owner : ObjectId} {heard : List Delta} {named devices : List ObjectId}

theorem nothing (g : Graph α) : g.Heard [] [] g where
  config := rfl
  now := rfl
  announced _ member := absurd member List.not_mem_nil
  placed := by simp [IsNamed]
  others _ _ _ := rfl

/-- A device that was announced or named is there, and was heard of just now. -/
theorem there (sofar : g.Heard heard named h)
    (known : g.IsKnown heard named id)
    (devices : ∀ d ∈ heard, d.id = id → d.kind = .device) :
    ∃ r, h.store.view? id = some r ∧ r.isLive ∧ r.kind = .device ∧ r.synced? = some g.now := by
  by_cases announced : ∃ d ∈ heard, d.id = id
  · obtain ⟨d, member, rfl⟩ := announced
    have frame := recordOf_frame g d (.device g.now)
    refine ⟨_, sofar.announced d member _ _ (.device (devices d member rfl)),
      congrArg Frame.isLive frame, recordOf_kind .., ?_⟩
    exact (recordOf_takes g d rfl).synced
  · have unannounced : ∀ d ∈ heard, d.id ≠ id := fun d member same => announced ⟨d, member, same⟩
    exact ⟨_, sofar.placed id unannounced (known.resolve_left announced), rfl, rfl, rfl⟩

theorem touched (sofar : g.Heard heard named h) (known : id ∈ named)
    (devices : ∀ d ∈ heard, d.id = id → d.kind = .device) : h.Touched id := by
  obtain ⟨r, view, -, -, synced⟩ := sofar.there (.inr (.inl known)) devices
  obtain ⟨r', held, rfl⟩ := Option.map_eq_some_iff.mp view
  intro r'' time held' wiring _
  obtain rfl := Option.some.inj (held.symm.trans held')
  have own : r'.unmarked.synced? = some time := by
    simp only [Record.synced?, Record.unmarked, wiring]
  rw [sofar.now]
  exact Option.some.inj (own.symm.trans synced)

theorem hasLive (sofar : g.Heard heard named h)
    (known : g.IsKnown heard named id)
    (devices : ∀ d ∈ heard, d.id = id → d.kind = .device) : h.store.HasLive id .device := by
  obtain ⟨r, view, live, kind, -⟩ := sofar.there known devices
  exact Store.hasLive_of_view? view live kind

theorem isVacant (sofar : g.Heard heard named h)
    (unknown : ¬ g.IsKnown heard named id)
    (vacant : g.store.IsVacant id) : h.store.IsVacant id := by
  obtain ⟨unannounced, unnamed⟩ := not_or.mp unknown
  exact .of_view? (sofar.others id (fun d member same => unannounced ⟨d, member, same⟩) unnamed)
    vacant

/-- What is announced as nothing but a device can be named as one. -/
theorem checkDevice (sofar : g.Heard heard named h) (may : g.MayName heard owner id) :
    h.store.checkDevice owner id = .ok () := by
  refine Store.checkDevice_eq_ok_iff.mpr ⟨may.apart, ?_⟩
  by_cases known : g.IsKnown heard named id
  · exact .inl (sofar.hasLive known may.devices)
  · exact .inr (sofar.isVacant known may.vacant)

/-- A device that is named is there afterwards. -/
theorem name (sofar : g.Heard heard named h) (may : g.MayName heard owner id) :
    ∃ k, ensureDevice id h = .ok () k ∧ g.Heard heard (named ++ [id]) k := by
  by_cases known : g.IsKnown heard named id
  · refine ⟨h, ensureDevice_of_hasLive (sofar.hasLive known may.devices), sofar.config, sofar.now,
      sofar.announced, ?_, ?_⟩
    · intro other others isNamed
      rcases isNamed_append.mp isNamed with before | rfl
      · exact sofar.placed other others before
      · exact sofar.placed id others
          (known.resolve_left fun ⟨d, member, same⟩ => others d member same)
    · exact fun other others unnamed => sofar.others other others fun before =>
        unnamed (isNamed_append.mpr (.inl before))
  · have vacantHere : h.store.IsVacant (Delta.empty .device id).id :=
      sofar.isVacant known may.vacant
    have goes := establish_goes vacantHere (.device h.now)
    have ownerless : (h.recordOf (.empty .device id) (.device h.now)).device? = none := rfl
    have views (other : ObjectId) : (h.establish (.empty .device id) (.device h.now)).store.view?
        other = if id = other then some (.blank id h.now) else h.store.view? other :=
      view?_establish (fun _ own => nomatch ownerless.symm.trans own) other
    refine ⟨_, ensureDevice_of_isVacant vacantHere, goes.config.trans sofar.config,
      goes.now.trans sofar.now, ?_, ?_, ?_⟩
    · intro d member devices wiring names
      have apart : id ≠ d.id := fun same => known (.inl ⟨d, member, same.symm⟩)
      rw [views, if_neg apart]
      exact sofar.announced d member devices wiring names
    · intro other others isNamed
      rw [views]
      split
      · rename_i here
        rw [← here, sofar.now]
      · rename_i apart
        exact sofar.placed other others ((isNamed_append.mp isNamed).resolve_right apart)
    · intro other others unnamed
      obtain ⟨before, apart⟩ := not_or.mp (isNamed_append.not.mp unnamed)
      rw [views, if_neg apart]
      exact sofar.others other others before

/-- What is announced is known, with what it names, once its record is in place. -/
theorem announce (sofar : g.Heard heard devices h) (names : g.Names delta devices wiring)
    (new : ∀ d ∈ heard, d.id ≠ delta.id) (goes : h.Goes k)
    (views : ∀ id, k.store.view? id =
      if delta.id = id then some (g.recordOf delta wiring) else h.store.view? id) :
    g.Heard (delta :: heard) [] k where
  config := goes.config.trans sofar.config
  now := goes.now.trans sofar.now
  announced d member devices' wiring' names' := by
    rcases List.mem_cons.mp member with rfl | before
    · rw [views, if_pos rfl, (names.unique names').2]
    · rw [views, if_neg (new d before).symm]
      exact sofar.announced d before devices' wiring' names'
  placed id others isNamed := by
    obtain ⟨apart, unannounced⟩ := List.forall_mem_cons.mp others
    rw [views, if_neg apart]
    exact sofar.placed id unannounced (names.isNamed_cons.mp isNamed)
  others id others unnamed := by
    obtain ⟨apart, unannounced⟩ := List.forall_mem_cons.mp others
    rw [views, if_neg apart]
    exact sofar.others id unannounced (names.isNamed_cons.not.mp unnamed)

theorem establish (sofar : g.Heard heard devices h) (names : g.Names delta devices wiring)
    (new : ∀ d ∈ heard, d.id ≠ delta.id) (vacant : h.store.IsVacant delta.id)
    (may : ∀ id ∈ devices, g.MayName heard delta.id id) :
    g.Heard (delta :: heard) [] (h.establish delta wiring) := by
  refine sofar.announce names new (establish_goes vacant wiring) fun id => ?_
  rw [← recordOf_congr sofar.config]
  refine view?_establish (fun device own => ?_) id
  have ties : (h.recordOf delta wiring).wiring.ties = wiring.ties :=
    congrArg Frame.ties (recordOf_frame h delta wiring)
  have owner : wiring.ties = .signal device :=
    ties.symm.trans ((Record.device?_eq_some_iff ..).mp own)
  have member : device ∈ devices := by
    cases names with
    | device | link => cases owner
    | signal =>
        cases owner
        exact List.mem_cons_self
  exact ⟨(may device member).apart, sofar.touched member (may device member).devices⟩

end Heard

/-! ## Announcements one after another -/

/-- Whether some announcements are each of another new object, and name devices that are new too and
    announced as nothing else. -/
structure Announceable (g : Graph α) (ds : List Delta) : Prop where
  distinct : (ds.map Delta.id).Nodup
  new : ∀ d ∈ ds, g.store.IsVacant d.id
  names : ∀ d ∈ ds, ∃ devices wiring, g.Names d devices wiring ∧
    ∀ id ∈ devices, g.MayName ds d.id id

namespace Announceable

variable {heard : List Delta}

theorem unannounced (fits : g.Announceable (delta :: heard)) : ∀ d ∈ heard, d.id ≠ delta.id :=
  fun d member same => (List.nodup_cons.mp fits.distinct).1 (List.mem_map.mpr ⟨d, member, same⟩)

/-- What is announced as anything but a device was not named as one. -/
theorem not_isNamed (fits : g.Announceable (delta :: heard)) (other : delta.kind ≠ .device) :
    ¬ g.IsNamed heard [] delta.id := by
  rintro (none | ⟨d, member, devices, wiring, names, named⟩)
  · exact List.not_mem_nil none
  · obtain ⟨devices', wiring', names', may⟩ := fits.names d (List.mem_cons_of_mem delta member)
    rw [(names.unique names').1] at may
    exact other ((may delta.id named).devices delta List.mem_cons_self rfl)

end Announceable

namespace Heard

variable {heard : List Delta} {devices : List ObjectId}

theorem isVacant_of_new (sofar : g.Heard heard devices h) (fits : g.Announceable (delta :: heard))
    (unnamed : ¬ g.IsNamed heard devices delta.id) : h.store.IsVacant delta.id := by
  refine sofar.isVacant ?_ (fits.new delta List.mem_cons_self)
  rintro (⟨d, member, same⟩ | named)
  · exact fits.unannounced d member same
  · exact unnamed named

/-- Where the devices that an announcement names are there, its record is made. -/
theorem create (sofar : g.Heard heard [] h) (fits : g.Announceable (delta :: heard))
    (unnamed : ¬ g.IsNamed heard [] delta.id) (names : g.Names delta devices wiring)
    (may : ∀ id ∈ devices, g.MayName heard delta.id id)
    (resolves : ∃ k, resolve delta h = .ok wiring k ∧ g.Heard heard devices k) :
    ∃ how k, upsert delta h = .ok how k ∧ g.Heard (delta :: heard) [] k := by
  obtain ⟨k, resolved, placed⟩ := resolves
  have unnamedAfter : ¬ g.IsNamed heard devices delta.id := by
    rintro (own | before)
    · exact (may delta.id own).apart rfl
    · exact unnamed (.inr before)
  refine ⟨some .added, k.establish delta wiring, ?_,
    placed.establish names fits.unannounced (placed.isVacant_of_new fits unnamedAfter) may⟩
  rw [upsert_of_vacant (sofar.isVacant_of_new fits unnamed), Graph.create, Attempt.bind_apply, resolved]
  rfl

/-- Whatever was heard before, an announcement is taken, and it is known from then on. -/
theorem step (sofar : g.Heard heard [] h) (fits : g.Announceable (delta :: heard)) :
    ∃ how k, applyEvent .announce delta h = .ok how k ∧ g.Heard (delta :: heard) [] k := by
  obtain ⟨devices, wiring, names, may⟩ := fits.names delta List.mem_cons_self
  replace may : ∀ id ∈ devices, g.MayName heard delta.id id := fun id member => (may id member).tail
  have pool : h.newPool = g.newPool := by simp only [newPool, sofar.config]
  cases names with
  | device kind =>
      -- A device that was named has a record already, and is not made but merged.
      by_cases named : g.IsNamed heard [] delta.id
      · have blank := sofar.placed delta.id fits.unannounced named
        rw [← sofar.now] at blank
        obtain ⟨how, k, taken, goes, views⟩ := upsert_of_blank kind blank
        refine ⟨how, k, taken, sofar.announce (.device kind) fits.unannounced goes fun id => ?_⟩
        rw [views, recordOf_congr sofar.config, sofar.now]
      · refine sofar.create fits named (.device kind) may ⟨h, ?_, sofar⟩
        simp [resolve, kind, Attempt.bind_apply, sofar.now]
  | @signal kind device related =>
      have mayName := may device List.mem_cons_self
      obtain ⟨k, ensured, placed⟩ := sofar.name mayName
      refine sofar.create fits (fits.not_isNamed (by simp [kind])) (.signal kind related) may
        ⟨k, ?_, placed⟩
      simp only [resolve, kind, Attempt.bind_apply, Attempt.current_apply, related,
        sofar.checkDevice mayName, Attempt.demand_ok, ensured, Attempt.pure_apply, pool]
  | @link kind first second related =>
      have mayFirst := may first List.mem_cons_self
      have maySecond := may second (List.mem_cons_of_mem first List.mem_cons_self)
      obtain ⟨k, ensured, placed⟩ := sofar.name mayFirst
      obtain ⟨l, ensuredSecond, placedSecond⟩ := placed.name maySecond
      refine sofar.create fits (fits.not_isNamed (by simp [kind])) (.link kind related) may
        ⟨l, ?_, placedSecond⟩
      simp only [resolve, kind, Attempt.bind_apply, Attempt.current_apply, related,
        sofar.checkDevice mayFirst, sofar.checkDevice maySecond, Attempt.demand_ok, ensured,
        ensuredSecond, Attempt.pure_apply]

end Heard

/-- Announces objects one after another, until one is refused. -/
def announceAll : List Delta → Attempt (Graph α) Unit
  | [] => pure ()
  | d :: ds => do
    let _ ← applyEvent .announce d
    announceAll ds

/-- Fewer announcements are no harder to make, and their order does not matter. -/
theorem Announceable.subperm {ds es : List Delta} (fits : g.Announceable ds)
    (fewer : es.Subperm ds) : g.Announceable es where
  distinct := by
    obtain ⟨part, perm, sublist⟩ := fewer
    exact (perm.map Delta.id).nodup_iff.mp (fits.distinct.sublist (sublist.map Delta.id))
  new d member := fits.new d (fewer.subset member)
  names d member := by
    obtain ⟨devices, wiring, names, may⟩ := fits.names d (fewer.subset member)
    refine ⟨devices, wiring, names, fun id named => ?_⟩
    obtain ⟨apart, vacant, devices⟩ := may id named
    exact ⟨apart, vacant, fun d member => devices d (fewer.subset member)⟩

/-- All are taken, and all are known in the end. -/
theorem Heard.announceAll {heard ds : List Delta} (sofar : g.Heard heard [] h)
    (fits : g.Announceable (ds ++ heard)) :
    ∃ k, announceAll ds h = .ok () k ∧ g.Heard (ds.reverse ++ heard) [] k := by
  induction ds generalizing heard h with
  | nil => exact ⟨h, rfl, sofar⟩
  | cons d ds ih =>
      have next : g.Announceable (ds ++ d :: heard) := fits.subperm List.perm_middle.subperm
      have first : g.Announceable (d :: heard) :=
        next.subperm (List.sublist_append_right ds (d :: heard)).subperm
      obtain ⟨how, k, taken, known⟩ := sofar.step first
      obtain ⟨l, all, knownAll⟩ := ih known next
      refine ⟨l, ?_, ?_⟩
      · rw [Graph.announceAll, Attempt.bind_apply, taken]
        exact all
      · rwa [List.reverse_cons, List.append_assoc, List.singleton_append]

/-- It depends only on what was announced what is held in the end. -/
theorem Heard.view?_eq {ds es : List Delta} (fits : g.Announceable ds) (perm : es.Perm ds)
    (first : g.Heard ds [] h) (second : g.Heard es [] k) (id : ObjectId) :
    k.store.view? id = h.store.view? id := by
  by_cases announced : ∃ d ∈ ds, d.id = id
  · obtain ⟨d, member, rfl⟩ := announced
    obtain ⟨devices, wiring, names, -⟩ := fits.names d member
    rw [first.announced d member devices wiring names,
      second.announced d (perm.mem_iff.mpr member) devices wiring names]
  · have unannounced : ∀ d ∈ ds, d.id ≠ id := fun d member same => announced ⟨d, member, same⟩
    have unannounced' : ∀ d ∈ es, d.id ≠ id := fun d member => unannounced d (perm.subset member)
    have same : g.IsNamed es [] id ↔ g.IsNamed ds [] id := by
      simp only [IsNamed, perm.mem_iff]
    by_cases named : g.IsNamed ds [] id
    · rw [first.placed id unannounced named, second.placed id unannounced' (same.mpr named)]
    · rw [first.others id unannounced named, second.others id unannounced' (same.not.mpr named)]

/-- New devices, signals and links that name each other as they should are all taken in any order in
    which they are announced, and what is held of each object in the end is the same: which are
    there, of what kind each is and how it is wired, its properties, its instances, and when it was
    last heard of. -/
theorem announcements_converge {ds : List Delta} (fits : g.Announceable ds) :
    ∃ h, announceAll ds g = .ok () h ∧ ∀ es, es.Perm ds →
      ∃ k, announceAll es g = .ok () k ∧ ∀ id, k.store.view? id = h.store.view? id := by
  have all (es : List Delta) (perm : es.Perm ds) :
      ∃ k, announceAll es g = .ok () k ∧ g.Heard es.reverse [] k := by
    have fitting : g.Announceable (es ++ []) := by
      rw [List.append_nil]
      exact fits.subperm perm.subperm
    have known := (Heard.nothing g).announceAll fitting
    rwa [List.append_nil] at known
  obtain ⟨h, taken, first⟩ := all ds .rfl
  refine ⟨h, taken, fun es perm => ?_⟩
  obtain ⟨k, takenToo, second⟩ := all es perm
  have reversed : es.reverse.Perm ds.reverse :=
    es.reverse_perm.trans (perm.trans ds.reverse_perm.symm)
  exact ⟨k, takenToo, Heard.view?_eq (fits.subperm ds.reverse_perm.subperm) reversed first second⟩

/-- A signal of device 1. -/
def orphan : Delta := ⟨.signal, ⟨2⟩, ⟨[.set (.wellKnown .device) (.ofId ⟨1⟩)]⟩, []⟩

/-- A link of device 1 to device 4. -/
def bridge : Delta :=
  ⟨.link, ⟨3⟩, ⟨[.set (.wellKnown .devices) ⟨.int64 [1, 4], .inr (by decide)⟩]⟩, []⟩

/-- A device counts as changed where a signal named it before it was announced, and is the same
    device. -/
theorem orphan_finds_device :
    let g : Graph Unit := make (.quiet ⟨0, 0⟩) .standard
    g.Announceable [orphan, numbered [7], bridge] ∧ ∃ h k,
      announceAll [orphan, numbered [7], bridge] g = .ok () h ∧
      announceAll [numbered [7], bridge, orphan] g = .ok () k ∧
      (∀ id, k.store.view? id = h.store.view? id) ∧
      (h.store.find? ⟨1⟩).map Record.status = some .modified ∧
      (k.store.find? ⟨1⟩).map Record.status = some .new := by
  intro g
  have vacant (id : ObjectId) : g.store.IsVacant id := fun _ held => nomatch held
  have may (owner device : ObjectId) (apart : device ≠ owner)
      (devices : ∀ d ∈ [orphan, numbered [7], bridge], d.id = device → d.kind = .device) :
      g.MayName [orphan, numbered [7], bridge] owner device := ⟨apart, vacant device, devices⟩
  have fits : g.Announceable [orphan, numbered [7], bridge] := by
    refine ⟨by decide, fun d _ => vacant d.id, ?_⟩
    simp only [List.forall_mem_cons]
    refine ⟨⟨[⟨1⟩], _, .signal rfl rfl, ?_⟩, ⟨[], _, .device rfl, ?_⟩,
      ⟨[⟨1⟩, ⟨4⟩], _, .link rfl rfl, ?_⟩, List.forall_mem_nil _⟩
    · exact List.forall_mem_cons.mpr ⟨may _ _ (by decide) (by decide), List.forall_mem_nil _⟩
    · exact List.forall_mem_nil _
    · exact List.forall_mem_cons.mpr ⟨may _ _ (by decide) (by decide),
        List.forall_mem_cons.mpr ⟨may _ _ (by decide) (by decide), List.forall_mem_nil _⟩⟩
  obtain ⟨h, taken, anyOrder⟩ := announcements_converge fits
  obtain ⟨k, takenToo, same⟩ := anyOrder [numbered [7], bridge, orphan] (by decide)
  have changed : (((announceAll [orphan, numbered [7], bridge]).after g).store.find? ⟨1⟩).map
      Record.status = some .modified := by decide
  have unchanged : (((announceAll [numbered [7], bridge, orphan]).after g).store.find? ⟨1⟩).map
      Record.status = some .new := by decide
  simp only [Attempt.after, taken, takenToo] at changed unchanged
  exact ⟨fits, h, k, taken, takenToo, same, changed, unchanged⟩

end Graph

end SignalGraph
