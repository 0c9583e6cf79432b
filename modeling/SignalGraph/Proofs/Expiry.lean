import SignalGraph.Proofs.Clock
import SignalGraph.Proofs.LifeSigns
import SignalGraph.Proofs.Polling
import SignalGraph.Proofs.RelationQueries

/-! # Silent devices

A poll takes devices for gone that have been silent for longer than the timeout, with all that rests
on them, and nothing else. How long a device has been silent is told in double numbers, which is
exact for timeouts below 2097152 seconds. With a longer one no device goes too early, but one may
stay whose silence is longer by less than numbers can tell.
-/

namespace SignalGraph

open Relation (ReflTransGen)

/-! ## What rests on a device -/

namespace Store

variable {s : Store} {id device upper lower : ObjectId}

/-- Whether an object is a device, or is there and a signal of the device, a link that ends at it,
    or a map that is attached to one of its signals. -/
def RestsOn (s : Store) (device id : ObjectId) : Prop :=
  id = device ∨ ∃ r, s.find? id = some r ∧ r.isLive ∧
    (r.device? = some device ∨ device ∈ r.linkEnds ∨ ∃ signal ∈ r.mapSignals, s.Owns device signal)

/-- What rests on a device drags along only what does too. -/
theorem RestsOn.drags (rests : s.RestsOn device upper) (indexed : s.Indexed)
    (there : s.HasLive device .device) (drags : s.Drags upper lower) : s.RestsOn device lower := by
  obtain ⟨u, r, heldUpper, held, live, hangs⟩ := drags
  obtain rfl := indexed.keyed upper u heldUpper
  refine .inr ⟨r, held, live, ?_⟩
  rcases rests with rfl | ⟨u', heldUpper', -, rests⟩
  · obtain ⟨u', heldUpper', kind, -⟩ := there
    obtain rfl := Option.some.inj (heldUpper.symm.trans heldUpper')
    simp only [HangsOn, kind] at hangs
    exact hangs.imp_right .inl
  · obtain rfl := Option.some.inj (heldUpper.symm.trans heldUpper')
    rcases rests with owned | ends | ⟨signal, member, -⟩
    · simp only [HangsOn, Record.kind_of_device? owned] at hangs
      exact .inr (.inr ⟨u.id, hangs, Option.bind_eq_some_iff.mpr ⟨u, heldUpper, owned⟩⟩)
    · simp only [HangsOn, Record.kind_of_mem_linkEnds ends] at hangs
      exact .inr (.inr (hangs.2 device ends))
    · simp only [HangsOn, Record.kind_of_mem_mapSignals member] at hangs

/-- Where nothing lacks what it needs, what rests on a device goes with it. -/
theorem RestsOn.path (rests : s.RestsOn device id) (indexed : s.Indexed) (sound : s.Sound [])
    (there : s.HasLive device .device) : ReflTransGen s.Drags device id := by
  obtain ⟨d, heldDevice, kind, -⟩ := there
  obtain rfl := indexed.keyed device d heldDevice
  have drags {id : ObjectId} {r : Record} (held : s.find? id = some r) (live : r.isLive)
      (tied : r.device? = some d.id ∨ d.id ∈ r.linkEnds) : s.Drags d.id id := by
    refine ⟨d, r, heldDevice, held, live, ?_⟩
    simp only [HangsOn, kind]
    exact tied
  rcases rests with rfl | ⟨r, held, live, owned | ends | ⟨signal, member, owns⟩⟩
  · exact .refl
  · exact .single (drags held live (.inl owned))
  · exact .single (drags held live (.inr ends))
  · obtain ⟨t, heldSignal, kindSignal, liveSignal⟩ := sound.hasLive_signal held live member
    obtain ⟨t', heldSignal', owned⟩ := Option.bind_eq_some_iff.mp owns
    obtain rfl := Option.some.inj (heldSignal.symm.trans heldSignal')
    obtain rfl := indexed.keyed signal t heldSignal
    have last : s.Drags t.id id := by
      refine ⟨t, r, heldSignal, held, live, ?_⟩
      simp only [HangsOn, kindSignal]
      exact member
    exact .head (drags heldSignal liveSignal (.inl owned)) (.single last)

/-- What goes with a device is what rests on it. -/
theorem path_iff_restsOn (indexed : s.Indexed) (sound : s.Sound [])
    (there : s.HasLive device .device) :
    ReflTransGen s.Drags device id ↔ s.RestsOn device id := by
  refine ⟨fun path => ?_, fun rests => rests.path indexed sound there⟩
  induction path with
  | refl => exact .inl rfl
  | tail _ drags ih => exact ih.drags indexed there drags

/-- No device but itself rests on a device. -/
theorem RestsOn.eq_of_device {r : Record} (rests : s.RestsOn device id)
    (held : s.find? id = some r) (kind : r.kind = .device) : id = device := by
  rcases rests with same | ⟨r', held', -, rests⟩
  · exact same
  · obtain rfl := Option.some.inj (held.symm.trans held')
    rcases rests with owned | ends | ⟨signal, member, -⟩
    · cases kind.symm.trans (Record.kind_of_device? owned)
    · cases kind.symm.trans (Record.kind_of_mem_linkEnds ends)
    · cases kind.symm.trans (Record.kind_of_mem_mapSignals member)

end Store

namespace Graph

variable {α : Type} {config : Config} {g h : Graph α} {id device : ObjectId} {r : Record}
  {how : Lifecycle} {ids : List ObjectId} {ticks limit : Nat}

/-! ## Silence -/

/-- Whether a device is there and was last heard of at some time. -/
def LastHeard (g : Graph α) (device : ObjectId) (synced : Timetag) : Prop :=
  ∃ r, g.store.find? device = some r ∧ r.isLive ∧ r.wiring = .device synced

/-- Whether a device is there and was last heard of more than some ticks ago. -/
def IsSilent (g : Graph α) (device : ObjectId) (ticks : Nat) : Prop :=
  ∃ synced, g.LastHeard device synced ∧ synced.ticks + ticks < g.now.ticks

/-- Whether a device is there and was last heard of longer ago than the timeout, if the distance of
    the two times is rounded as numbers are. -/
def IsOverdue (g : Graph α) (device : ObjectId) : Prop :=
  ∃ synced, g.LastHeard device synced ∧
    g.config.deviceTimeoutSecs.toNat * 2 ^ 32 < Binary.rounded (g.now.ticks - synced.ticks)

theorem LastHeard.hasLive {synced : Timetag} (heard : g.LastHeard device synced) :
    g.store.HasLive device .device := by
  obtain ⟨r, held, live, wiring⟩ := heard
  exact ⟨r, held, by rw [Record.kind, wiring]; rfl, live⟩

theorem isStale_iff : g.isStale r ↔ ∃ synced, r.wiring = .device synced ∧
    g.config.deviceTimeoutSecs.toNat * 2 ^ 32 <
      Binary.rounded (g.now.ticks - synced.ticks) := by
  simp only [isStale]
  split
  · rename_i synced wiring
    simp only [wiring, Wiring.device.injEq, exists_eq_left', Timetag.since_isAbove_iff]
  · rename_i other
    refine iff_of_false Bool.false_ne_true ?_
    rintro ⟨synced, wiring, -⟩
    exact other synced wiring

theorem mem_stale_iff (indexed : g.store.Indexed) :
    device ∈ ((g.store.live .device).filter g.isStale).map Record.id ↔ g.IsOverdue device := by
  have kind (r : Record) (silent : g.isStale r) : r.kind = .device := by
    obtain ⟨synced, wiring, -⟩ := isStale_iff.mp silent
    rw [Record.kind, wiring]
    rfl
  rw [indexed.mem_filter_live_iff kind]
  simp only [isStale_iff, IsOverdue, LastHeard]
  tauto

/-- No device is overdue that has not been silent for longer than the timeout. -/
theorem IsOverdue.isSilent (overdue : g.IsOverdue device) :
    g.IsSilent device (g.config.deviceTimeoutSecs.toNat * 2 ^ 32) := by
  obtain ⟨synced, heard, passed⟩ := overdue
  have small := g.config.deviceTimeoutSecs.toNat_lt
  have short := (Binary.isShort_of_lt (Nat.lt_trans small (by decide))).mul 32
  have apart := short.lt_of_lt_rounded passed
  exact ⟨synced, heard, by omega⟩

/-- A device whose silence is longer by more than numbers stand apart is overdue. -/
theorem IsSilent.isOverdue
    (silent : g.IsSilent device (g.config.deviceTimeoutSecs.toNat * 2 ^ 32 + 2 ^ 10)) :
    g.IsOverdue device := by
  obtain ⟨synced, heard, passed⟩ := silent
  have bound := g.now.ticks_lt
  have near := Binary.le_rounded_add (n := g.now.ticks - synced.ticks) (by omega)
  exact ⟨synced, heard, by omega⟩

theorem isOverdue_iff (exact : g.config.deviceTimeoutSecs.toNat < 2 ^ 21) :
    g.IsOverdue device ↔ g.IsSilent device (g.config.deviceTimeoutSecs.toNat * 2 ^ 32) := by
  refine ⟨IsOverdue.isSilent, ?_⟩
  rintro ⟨synced, heard, passed⟩
  refine ⟨synced, heard, ?_⟩
  rw [Binary.lt_rounded_iff (by omega)]
  omega

/-- Who was heard of just now is not overdue. -/
theorem Touched.not_isOverdue (touched : g.Touched device) : ¬g.IsOverdue device := by
  rintro ⟨synced, ⟨r, held, live, wiring⟩, passed⟩
  rw [touched r synced held wiring live, Nat.sub_self] at passed
  exact Nat.not_lt_zero _ passed

/-! ## Several removals -/

/-- Whether a graph differs from another, subscriptions apart, in that some objects have gone, each
    told of once. -/
structure PartsWith (g : Graph α) (ids : List ObjectId) (how : Lifecycle) (h : Graph α) : Prop where
  nodup : ids.Nodup
  found : ∀ id, h.store.find? id =
    (g.store.find? id).map fun r => if id ∈ ids then g.retired r how else r
  order : h.store.order = g.store.order
  said : h.notifications = g.notifications ++ ids.map (.record · how)

theorem PartsWith.none (g : Graph α) : g.PartsWith [] how g :=
  ⟨List.nodup_nil, fun id => by simp, rfl, (List.append_nil _).symm⟩

theorem PartsWith.aside {k : Graph α} (parts : g.PartsWith ids how h) (aside : IsAside h k) :
    g.PartsWith ids how k where
  nodup := parts.nodup
  found := aside.store ▸ parts.found
  order := aside.store ▸ parts.order
  said := aside.notifications ▸ parts.said

theorem retireAll_withSubscriptions (g : Graph α) (ids : List ObjectId) (how : Lifecycle)
    (subscriptions : Directory Subscription) :
    ({ g with subscriptions } : Graph α).retireAll ids how =
      { g.retireAll ids how with subscriptions } := by
  induction ids generalizing g with
  | nil => rfl
  | cons id ids ih => exact ih (g.retire id how)

/-- Of objects that are removed one after the other those go that are there, with all that is
    dragged along. -/
theorem removeAll_sweeps (terminal : how.status.isTerminal) (tops : List ObjectId) (g : Graph α)
    (indexed : g.store.Indexed) : ∃ ids subscriptions, g.store.Avalanche tops ids ∧
      tops.foldl (fun g id => (g.remove id how).1) g =
        { g.retireAll ids how with subscriptions } := by
  induction tops generalizing g with
  | nil => exact ⟨[], g.subscriptions, .nil _, rfl⟩
  | cons top tops ih =>
      have one : ∃ ids subscriptions, g.store.Avalanche [top] ids ∧
          (g.remove top how).1 = { g.retireAll ids how with subscriptions } := by
        rcases g.store.isVacant_or_isLive top with vacant | ⟨r, held, live⟩
        · refine ⟨[], g.subscriptions, .ofIsVacant vacant, ?_⟩
          rw [remove, removeWithin_of_isVacant vacant]
          rfl
        · obtain ⟨rest, avalanche, removed⟩ := remove_sweeps terminal indexed held live
          exact ⟨top :: rest, _, avalanche, removed⟩
      obtain ⟨first, table, avalanche, removed⟩ := one
      have fades := retireAll_fades terminal g first
      obtain ⟨rest, later, others, swept⟩ :=
        ih { g.retireAll first how with subscriptions := table } (indexed.fades fades)
      refine ⟨first ++ rest, later, (retireAll_without terminal g first).cons avalanche others, ?_⟩
      rw [List.foldl_cons, removed, swept, retireAll_withSubscriptions, retireAll_append]

theorem expireDevices_zero (never : g.config.deviceTimeoutSecs = 0) : g.expireDevices = g :=
  if_pos never

/-- What goes when silent devices are taken for gone is what rests on overdue ones. -/
theorem expireDevices_partsWith (complete : g.Complete) (some : g.config.deviceTimeoutSecs ≠ 0) :
    ∃ ids, g.PartsWith ids .expired g.expireDevices ∧
      ∀ id, id ∈ ids ↔ ∃ device, g.IsOverdue device ∧ g.store.RestsOn device id := by
  obtain ⟨ids, subscriptions, avalanche, swept⟩ := removeAll_sweeps
    (show Lifecycle.expired.status.isTerminal from rfl)
    (((g.store.live .device).filter g.isStale).map Record.id) g complete.indexed
  have expired : g.expireDevices = { g.retireAll ids .expired with subscriptions } := by
    rw [← swept, expireDevices, if_neg some, List.foldl_map]
  refine ⟨ids, ⟨avalanche.nodup, ?_, ?_, ?_⟩, fun id => ?_⟩
  · rw [expired]
    exact find?_retireAll g ids .expired
  · rw [expired]
    exact order_retireAll g ids .expired
  · rw [expired]
    exact congrArg Graph.notifications (retireAll_eq g ids .expired)
  · rw [avalanche.mem_iff]
    refine exists_congr fun device => ?_
    rw [mem_stale_iff complete.indexed]
    refine and_congr_right fun overdue => ?_
    obtain ⟨synced, heard, -⟩ := overdue
    obtain ⟨r, held, -, live⟩ := heard.hasLive
    rw [Store.path_iff_restsOn complete.indexed complete.sound heard.hasLive]
    exact and_iff_right (Store.not_isVacant held live)

/-- Where all has gone that rests on overdue devices, none is left. -/
theorem PartsWith.not_isOverdue (parts : g.PartsWith ids .expired h) (now : h.now = g.now)
    (config : h.config = g.config)
    (all : ∀ id, id ∈ ids ↔ ∃ device, g.IsOverdue device ∧ g.store.RestsOn device id)
    (device : ObjectId) : ¬h.IsOverdue device := by
  rintro ⟨synced, ⟨r, held, live, wiring⟩, passed⟩
  rw [parts.found] at held
  obtain ⟨before, there, rfl⟩ := Option.map_eq_some_iff.mp held
  by_cases gone : device ∈ ids
  · rw [if_pos gone] at live
    exact Bool.false_ne_true live
  · rw [if_neg gone] at live wiring
    rw [now, config] at passed
    have overdue : g.IsOverdue device := ⟨synced, ⟨before, there, live, wiring⟩, passed⟩
    exact gone ((all device).mpr ⟨device, overdue, .inl rfl⟩)

/-- A device that was heard of just now stays. -/
theorem Touched.find?_expireDevices (touched : g.Touched device) (complete : g.Complete)
    (held : g.store.find? device = some r) (kind : r.kind = .device) :
    g.expireDevices.store.find? device = some r := by
  by_cases never : g.config.deviceTimeoutSecs = 0
  · exact (expireDevices_zero never).symm ▸ held
  · obtain ⟨ids, parts, all⟩ := expireDevices_partsWith complete never
    have stays : device ∉ ids := by
      intro member
      obtain ⟨other, overdue, rests⟩ := (all device).mp member
      exact touched.not_isOverdue (rests.eq_of_device held kind ▸ overdue)
    rw [parts.found, held, Option.map_some, if_neg stays]

/-! ## Polls -/

/-- The graph when a poll has taken in at most `limit` messages, before it looks after anything. -/
def drained (limit : Nat) (g : Graph α) : Graph α := (g.beginPoll.drain limit).1

theorem drained_goes (limit : Nat) (g : Graph α) : Goes g.beginPoll (g.drained limit) :=
  drain_goes limit g.beginPoll

theorem complete_drained (complete : g.Complete) (limit : Nat) : (g.drained limit).Complete := by
  have began : Leads RecordChange.IsFilling g g.beginPoll := .keep rfl rfl rfl
  obtain ⟨said, changes⟩ := began.any.trans (drain_leads limit g.beginPoll)
  exact complete_isHeld.changes changes complete

theorem looks_aside (limit : Nat) (g : Graph α) :
    IsAside (g.drained limit).expireDevices (g.intakeUpTo limit) :=
  renewSubscriptions_aside (g.drained limit).expireDevices

/-- A poll that has taken in its messages takes for gone what rests on overdue devices. -/
theorem looked_partsWith (complete : g.Complete) (limit : Nat)
    (some : (g.drained limit).config.deviceTimeoutSecs ≠ 0) :
    ∃ ids, (g.drained limit).PartsWith ids .expired (g.intakeUpTo limit) ∧ ∀ id, id ∈ ids ↔
      ∃ device, (g.drained limit).IsOverdue device ∧ (g.drained limit).store.RestsOn device id := by
  obtain ⟨ids, parts, all⟩ := expireDevices_partsWith (complete_drained complete limit) some
  exact ⟨ids, parts.aside (looks_aside limit g), all⟩

/-- A poll takes for gone what rests on devices that have been silent for longer than the timeout,
    tells of each once, and leaves no such device. Where there is no timeout, nothing goes. A device
    of which the poll has taken in a sign of life stays as it is. A silence is rounded to the
    nearest double number: that is exact for timeouts below 2097152 seconds, and with longer ones no
    device goes too early, and none stays whose silence is a quarter of a microsecond longer. -/
theorem silent_devices_expire (reachable : Reachable config g) (limit : Nat) :
    let k := g.drained limit
    let h := g.intakeUpTo limit
    let timeout := config.deviceTimeoutSecs.toNat * 2 ^ 32
    (k.now = g.now ∧ h.now = g.now) ∧
    (∀ device, k.IsOverdue device → k.IsSilent device timeout) ∧
    (∀ device, k.IsSilent device (timeout + 2 ^ 10) → k.IsOverdue device) ∧
    (config.deviceTimeoutSecs.toNat < 2 ^ 21 →
      ∀ device, k.IsOverdue device ↔ k.IsSilent device timeout) ∧
    (config.deviceTimeoutSecs = 0 → k.PartsWith [] .expired h) ∧
    (config.deviceTimeoutSecs ≠ 0 →
      (∃ ids, k.PartsWith ids .expired h ∧
        ∀ id, id ∈ ids ↔ ∃ device, k.IsOverdue device ∧ k.store.RestsOn device id) ∧
      ∀ device, ¬h.IsOverdue device) ∧
    ∀ j event device, (j, event) ∈ g.beginPoll.takings limit → j.Hears device event →
      ∀ r, k.store.find? device = some r → r.kind = .device → r.isLive →
        h.store.find? device = some r := by
  obtain ⟨complete, same⟩ := reachable.complete
  have drained := drained_goes limit g
  have looked := (expireDevices_goes (g.drained limit)).trans (looks_aside limit g).goes
  obtain rfl : (g.drained limit).config = config := drained.config.trans same
  intro k h timeout
  refine ⟨⟨drained.now, looked.now.trans drained.now⟩, fun _ => IsOverdue.isSilent,
    fun _ => IsSilent.isOverdue, fun exact _ => isOverdue_iff exact, fun never => ?_,
    fun some => ?_, fun j event device taken hears r held kind _ => ?_⟩
  · have idle : k.PartsWith [] .expired k.expireDevices := expireDevices_zero never ▸ .none k
    exact idle.aside (looks_aside limit g)
  · obtain ⟨ids, parts, all⟩ := looked_partsWith complete limit some
    exact ⟨⟨ids, parts, all⟩, parts.not_isOverdue looked.now looked.config all⟩
  · have touched : k.Touched device := touched_of_taken taken hears
    have stays := touched.find?_expireDevices (complete_drained complete limit) held kind
    exact (looks_aside limit g).store ▸ stays

/-- The clock goes on for a second more than the timeout, and only device 2 gives a sign of life. -/
def halfSilent : Graph Unit := crossed.call (.network ⟨11, 0⟩ [.sync ⟨2⟩] 0 0)

/-- Device 1 goes, and with it the map between the devices. -/
theorem halfSilent_expires :
    Reachable .standard halfSilent ∧ (halfSilent.drained 2).IsSilent ⟨1⟩ (10 * 2 ^ 32) ∧
      (∀ id ∈ [⟨1⟩, ⟨6⟩], ∃ r, (halfSilent.drained 2).store.find? id = some r ∧ r.isLive ∧
        halfSilent.intake.store.find? id = some ((halfSilent.drained 2).retired r .expired)) ∧
      (∃ r, (halfSilent.drained 2).store.find? ⟨2⟩ = some r ∧ r.isLive ∧
        halfSilent.intake.store.find? ⟨2⟩ = some r) ∧
      ∀ device, ¬halfSilent.intake.IsOverdue device := by
  have reachable : Reachable .standard halfSilent := by
    iterate 7 refine .call ?_ _
    exact .make _ _
  obtain ⟨-, -, -, exact, -, expires, stays⟩ := silent_devices_expire reachable 2
  obtain ⟨⟨ids, parts, all⟩, none⟩ := expires (by decide)
  have first : ((halfSilent.drained 2).store.find? ⟨1⟩).any fun r =>
      r.isLive ∧ r.wiring = .device ⟨0, 0⟩ := by decide +kernel
  have second : ((halfSilent.drained 2).store.find? ⟨2⟩).any fun r =>
      r.kind = .device ∧ r.isLive := by decide +kernel
  have map : ((halfSilent.drained 2).store.find? ⟨6⟩).any fun r =>
      r.isLive ∧ ⟨3⟩ ∈ r.mapSignals := by decide +kernel
  have owns : (halfSilent.drained 2).store.Owns ⟨1⟩ ⟨3⟩ := by
    unfold Store.Owns
    decide +kernel
  obtain ⟨d, heldFirst, facts⟩ := (Option.any_eq_true ..).mp first
  obtain ⟨liveFirst, wiring⟩ := of_decide_eq_true facts
  obtain ⟨e, heldSecond, facts⟩ := (Option.any_eq_true ..).mp second
  obtain ⟨kind, liveSecond⟩ := of_decide_eq_true facts
  obtain ⟨m, heldMap, facts⟩ := (Option.any_eq_true ..).mp map
  obtain ⟨liveMap, attached⟩ := of_decide_eq_true facts
  have silent : (halfSilent.drained 2).IsSilent ⟨1⟩ (10 * 2 ^ 32) :=
    ⟨⟨0, 0⟩, ⟨d, heldFirst, liveFirst, wiring⟩, by decide +kernel⟩
  have overdue := (exact (by decide) ⟨1⟩).mpr silent
  have goes {id : ObjectId} {r : Record} (held : (halfSilent.drained 2).store.find? id = some r)
      (rests : (halfSilent.drained 2).store.RestsOn ⟨1⟩ id) :
      halfSilent.intake.store.find? id = some ((halfSilent.drained 2).retired r .expired) := by
    have found := parts.found id
    rwa [held, Option.map_some, if_pos ((all id).mpr ⟨⟨1⟩, overdue, rests⟩)] at found
  refine ⟨reachable, silent, ?_, ⟨e, heldSecond, liveSecond, ?_⟩, none⟩
  · simp only [List.forall_mem_cons, List.not_mem_nil, false_implies, implies_true, and_true]
    exact ⟨⟨d, heldFirst, liveFirst, goes heldFirst (.inl rfl)⟩, m, heldMap, liveMap,
      goes heldMap (.inr ⟨m, heldMap, liveMap, .inr (.inr ⟨⟨3⟩, attached, owns⟩)⟩)⟩
  · exact stays _ (.sync ⟨2⟩) ⟨2⟩ List.mem_cons_self .sync e heldSecond kind liveSecond

/-- A device that was heard of one tick more than the timeout ago stays, since the distance of the
    two times is rounded down to the timeout. -/
theorem silent_device_stays :
    let config : Config := { Config.standard with deviceTimeoutSecs := 2097152 }
    let g : Graph Unit :=
      ((make (.quiet ⟨1000, 0⟩) config).call (.apply .announce (.empty .device ⟨1⟩))).call
        (.network ⟨2098152, 1⟩ [] 0 0)
    Reachable config g ∧ (g.drained 1).IsSilent ⟨1⟩ (config.deviceTimeoutSecs.toNat * 2 ^ 32) ∧
      g.intake.IsSilent ⟨1⟩ (config.deviceTimeoutSecs.toNat * 2 ^ 32) := by
  intro config g
  have before : ((g.drained 1).store.find? ⟨1⟩).any fun r =>
      r.isLive ∧ r.wiring = .device ⟨1000, 0⟩ := by decide +kernel
  have after : (g.intake.store.find? ⟨1⟩).any fun r =>
      r.isLive ∧ r.wiring = .device ⟨1000, 0⟩ := by decide +kernel
  obtain ⟨r, held, facts⟩ := (Option.any_eq_true ..).mp before
  obtain ⟨live, wiring⟩ := of_decide_eq_true facts
  obtain ⟨s, held', facts'⟩ := (Option.any_eq_true ..).mp after
  obtain ⟨live', wiring'⟩ := of_decide_eq_true facts'
  refine ⟨.call (.call (.make _ _) _) _, ⟨⟨1000, 0⟩, ⟨r, held, live, wiring⟩, ?_⟩,
    ⟨1000, 0⟩, ⟨s, held', live', wiring'⟩, ?_⟩ <;> decide +kernel

end Graph

end SignalGraph
