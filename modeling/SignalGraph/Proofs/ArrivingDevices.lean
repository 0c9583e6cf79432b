import SignalGraph.Proofs.Convergence
import SignalGraph.Proofs.EndedSubscriptions
import SignalGraph.Proofs.Leases
import SignalGraph.Proofs.SimilarStores
import SignalGraph.Proofs.UnheardDeltas

/-! # Patterns and devices that come

Whoever subscribes to a pattern subscribes to the devices that are there, and a device that comes is
subscribed to by the patterns that are there. The two look at names in their own ways: the one skips
a device without a name, to the other that is a device whose name a star alone matches. So it
can matter what comes first, and this module says when.
-/

namespace SignalGraph

/-- The name that a new device takes from what is said of it. -/
def Delta.name? (d : Delta) : Option String :=
  ((Table.empty.applyDiff d.diff).1.get? (.wellKnown .name)).bind Value.toString?

namespace Store

variable {s : Store} {r : Record}

/-- A new record is found behind the others of its kind. -/
theorem live_found (indexed : s.Indexed) (vacant : s.IsVacant r.id) (live : r.isLive)
    (kind : ObjectKind) : ((s.discard r.id).insert r).live kind =
      s.live kind ++ if kind = r.kind then [r] else [] := by
  have others : (s.liveIds kind).filterMap ((s.discard r.id).insert r).live? =
      (s.liveIds kind).filterMap s.live? := by
    refine List.filterMap_congr fun id member => ?_
    rw [live?_found live, if_neg]
    rintro rfl
    have there := (List.mem_filter.mp member).2
    simp [live?_eq_none_iff.mpr vacant] at there
  rw [live_eq_filterMap, liveIds_found indexed vacant live, List.filterMap_append, others,
    ← live_eq_filterMap]
  split
  · simp [live?_found live]
  · rfl

end Store

namespace Graph

variable {α : Type} {g h : Graph α} {d : Delta} {ds : List Delta} {device : ObjectId}
  {config : Config} {glob : String} {categories : Categories} {lease : Lease}

/-! ## New devices -/

theorem name?_recordOf (g : Graph α) (d : Delta) (wiring : Wiring) :
    (g.recordOf d wiring).name? = d.name? := by
  rw [Record.name?, (recordOf_fills g d wiring).properties]
  rfl

/-- The graph after a device has come that was not there. -/
def welcome (g : Graph α) (d : Delta) : Graph α := g.establish d (.device g.now)

theorem welcome_eq (kind : d.kind = .device) (g : Graph α) :
    g.welcome d = (g.founded d (.device g.now)).autosubscribe d.id := by
  have founded := (find?_founded g d (.device g.now) d.id).trans (if_pos rfl)
  have ownerless : (g.recordOf d (.device g.now)).device? = none :=
    device?_of_kind (recordOf_kind g d (.device g.now))
  have untouched : (g.founded d (.device g.now)).touchOwner d.id = g.founded d (.device g.now) :=
    touchOwner_of_touched founded fun owner own => nomatch ownerless.symm.trans own
  exact (if_pos kind).trans (congrArg (·.autosubscribe d.id) untouched)

theorem store_welcome (kind : d.kind = .device) (g : Graph α) :
    (g.welcome d).store = (g.founded d (.device g.now)).store := by
  rw [welcome_eq kind, (autosubscribe_quiet _ d.id).store]

theorem applyEvent_of_isVacant (kind : d.kind = .device) (vacant : g.store.IsVacant d.id) :
    applyEvent .announce d g = .ok (some .added) (g.welcome d) := by
  change upsert d g = _
  rw [upsert_of_vacant vacant]
  simp only [create, resolve, kind, Attempt.bind_apply, Attempt.current_apply, Attempt.pure_apply,
    Attempt.change_apply]
  rfl

theorem isVacant_welcome (kind : d.kind = .device) (vacant : g.store.IsVacant device)
    (apart : d.id ≠ device) : (g.welcome d).store.IsVacant device := by
  intro r held
  rw [store_welcome kind, find?_founded, if_neg apart] at held
  exact vacant r held

theorem indexed_welcome (indexed : g.store.Indexed) (kind : d.kind = .device) :
    (g.welcome d).store.Indexed := by
  have own : (g.recordOf d (.device g.now)).id = d.id :=
    congrArg Frame.id (recordOf_frame g d (.device g.now))
  rw [store_welcome kind]
  refine (indexed.discard d.id).insert ?_
  rw [own, Store.find?_discard, if_pos rfl]

/-- A new device matches a glob after all that did before. -/
theorem matching_welcome (indexed : g.store.Indexed) (kind : d.kind = .device)
    (vacant : g.store.IsVacant d.id) (glob : String) :
    (g.welcome d).matching glob =
      g.matching glob ++ if d.name?.any (Text.matchesGlob glob) then [d.id] else [] := by
  have frame := recordOf_frame g d (.device g.now)
  have own : (g.recordOf d (.device g.now)).id = d.id := congrArg Frame.id frame
  have live : (g.recordOf d (.device g.now)).isLive = true := congrArg Frame.isLive frame
  have ofDevice : (g.recordOf d (.device g.now)).kind = .device :=
    recordOf_kind g d (.device g.now)
  have found := Store.live_found (s := g.store) indexed (own ▸ vacant) live .device
  rw [if_pos ofDevice.symm, own] at found
  rw [matching, store_welcome kind]
  refine (congrArg (fun rs : List Record => (rs.filter fun r =>
    r.name?.any (Text.matchesGlob glob)).map Record.id) found).trans ?_
  rw [List.filter_append, List.map_append, List.filter_singleton, name?_recordOf]
  cases d.name?.any (Text.matchesGlob glob) <;> simp [matching, own]

/-! ## Subscriptions beside records -/

/-- The same subscriptions beside other records, with other things to tell of them. -/
def beside (g : Graph α) (store : Store) (notifications : List Notification) : Graph α :=
  { g with store, notifications }

theorem ask_beside (g : Graph α) (store : Store) (notifications : List Notification)
    (device : ObjectId) (s : Subscription) : (g.beside store notifications).ask device s =
      (g.ask device s).beside store notifications := by
  have asked : (g.beside store notifications).request s =
      ((g.request s).1.beside store notifications, (g.request s).2) := by
    simp only [request, beside, leaseSeconds, now]
    split <;> rfl
  rw [ask, asked]
  rfl

theorem enterAll_beside (devices : List ObjectId) (g : Graph α) (store : Store)
    (notifications : List Notification) (p : PatternSubscription) :
    (g.beside store notifications).enterAll devices p =
      (g.enterAll devices p).beside store notifications := by
  induction devices generalizing g with
  | nil => rfl
  | cons first devices ih =>
      simp only [enterAll, List.foldl_cons, subscribeDevice_eq, ask_beside]
      exact ih _

theorem enterAll_append (first rest : List ObjectId) (g : Graph α) (p : PatternSubscription) :
    g.enterAll (first ++ rest) p = (g.enterAll first p).enterAll rest p := List.foldl_append

/-- A new record is the same beside whatever subscriptions. -/
theorem founded_of_isAside (aside : IsAside g h) (d : Delta) :
    h.founded d (.device h.now) = h.beside (g.founded d (.device g.now)).store
      (g.founded d (.device g.now)).notifications := by
  simp only [founded, beside, insert, notify, recordOf, aside.store, aside.config,
    aside.notifications, aside.now]

/-! ## A pattern and a device -/

theorem autosubscribe_of_free (free : g.patterns = []) (device : ObjectId) :
    g.autosubscribe device = g := by
  simp only [autosubscribe, free, List.find?_nil, ite_self]

/-- A device that has no subscription gets that of the first pattern that covers it, if any does. -/
theorem autosubscribe_of_absent (absent : g.subscription? device = none) :
    g.autosubscribe device =
      match g.patterns.find? fun p => covers p (g.name? device) with
      | some p => g.enterAll [device] p
      | none => g := by
  simp only [autosubscribe, absent, Option.isSome_none, Bool.false_eq_true, ↓reduceIte, name?]
  rfl

/-- Without a pattern a device that comes gets its record and nothing else. -/
theorem welcome_of_free (free : g.patterns = []) (kind : d.kind = .device) :
    g.welcome d = g.founded d (.device g.now) :=
  (welcome_eq kind g).trans (autosubscribe_of_free (g := g.founded d (.device g.now)) free d.id)

theorem name?_founded (g : Graph α) (d : Delta) (wiring : Wiring) :
    (g.founded d wiring).name? d.id = d.name? := by
  rw [name?, find?_founded, if_pos rfl, Option.bind_some, name?_recordOf]

/-- The one pattern of a graph subscribes to a device that comes if it covers the name. -/
theorem welcome_of_single {p : PatternSubscription} (single : g.patterns = [p])
    (kind : d.kind = .device) (absent : g.subscription? d.id = none) :
    g.welcome d =
      (g.founded d (.device g.now)).enterAll (if covers p d.name? then [d.id] else []) p := by
  have absentNow : (g.founded d (.device g.now)).subscription? d.id = none := absent
  have patterns : (g.founded d (.device g.now)).patterns = [p] := single
  rw [welcome_eq kind, autosubscribe_of_absent absentNow, patterns, name?_founded,
    List.find?_singleton]
  cases covers p d.name? <;> rfl

theorem patterns_subscribe_of_free (lasting : lease ≠ .cancel) (free : g.patterns = []) :
    (g.subscribe (.pattern glob) categories lease).patterns = [⟨glob, categories, lease⟩] := by
  rw [subscribe_pattern_eq lasting, (enterAll_spec _ _ _).1]
  simp [addPattern, dropPattern, free]

/-- Subscribing to a pattern and the coming of a device give the same in either order, if both find
    the pattern to cover the device or both do not. -/
theorem subscribe_welcome (lasting : lease ≠ .cancel) (free : g.patterns = [])
    (indexed : g.store.Indexed) (kind : d.kind = .device) (vacant : g.store.IsVacant d.id)
    (absent : g.subscription? d.id = none)
    (agree : covers ⟨glob, categories, lease⟩ d.name? = d.name?.any (Text.matchesGlob glob)) :
    (g.welcome d).subscribe (.pattern glob) categories lease =
      (g.subscribe (.pattern glob) categories lease).welcome d := by
  have unmatched : d.id ∉ g.matching glob := fun member => by
    obtain ⟨r, held, -, live, -⟩ := (mem_matching_iff indexed).mp member
    exact Store.not_isVacant held live vacant
  have single : (g.subscribe (.pattern glob) categories lease).patterns =
      [⟨glob, categories, lease⟩] := patterns_subscribe_of_free lasting free
  have aside := subscribe_aside g (.pattern glob) categories lease
  have absentNow : (g.subscribe (.pattern glob) categories lease).subscription? d.id = none := by
    rw [subscribe_pattern_eq lasting, ((enterAll_spec _ _ _).2 d.id).1 unmatched]
    exact absent
  rw [welcome_of_single single kind absentNow, founded_of_isAside aside, agree]
  rw [subscribe_pattern_eq lasting, matching_welcome indexed kind vacant, enterAll_append,
    welcome_of_free free kind, subscribe_pattern_eq lasting, ← enterAll_beside]
  rfl

/-! ## A pattern and some devices -/

/-- Whether announcements are of devices that are not there, of each once. -/
structure Newcomers (g : Graph α) (ds : List Delta) : Prop where
  devices : ∀ d ∈ ds, d.kind = .device
  distinct : (ds.map Delta.id).Nodup
  new : ∀ d ∈ ds, g.store.IsVacant d.id

namespace Newcomers

theorem tail (new : g.Newcomers (d :: ds)) : (g.welcome d).Newcomers ds := by
  obtain ⟨unlisted, distinct⟩ := List.nodup_cons.mp new.distinct
  refine ⟨fun e member => new.devices e (List.mem_cons_of_mem d member), distinct, ?_⟩
  intro e member
  refine isVacant_welcome (new.devices d List.mem_cons_self)
    (new.new e (List.mem_cons_of_mem d member)) fun same => unlisted ?_
  exact List.mem_map.mpr ⟨e, member, same.symm⟩

/-- They are all taken, one after another. -/
theorem announceAll (new : g.Newcomers ds) :
    Graph.announceAll ds g = .ok () (ds.foldl welcome g) := by
  induction ds generalizing g with
  | nil => rfl
  | cons d ds ih =>
      have taken := applyEvent_of_isVacant (new.devices d List.mem_cons_self)
        (new.new d List.mem_cons_self)
      rw [Graph.announceAll, Attempt.bind_apply, taken]
      exact ih new.tail

theorem eq_of_id (new : g.Newcomers ds) {e : Delta} (first : d ∈ ds) (second : e ∈ ds)
    (same : d.id = e.id) : d = e := List.inj_on_of_nodup_map new.distinct first second same

end Newcomers

theorem patterns_autosubscribe (g : Graph α) (device : ObjectId) :
    (g.autosubscribe device).patterns = g.patterns := by
  simp only [autosubscribe]
  split
  · rfl
  · split
    · exact patterns_ask _ _ _
    · rfl

theorem patterns_welcome (kind : d.kind = .device) (g : Graph α) :
    (g.welcome d).patterns = g.patterns := by
  rw [welcome_eq kind, patterns_autosubscribe]
  rfl

/-- A device that comes is subscribed to if it was before, or a pattern covers its name. -/
theorem isSome_welcome (kind : d.kind = .device) (g : Graph α) (device : ObjectId) :
    ((g.welcome d).subscription? device).isSome ↔ (g.subscription? device).isSome ∨
      d.id = device ∧ ∃ p ∈ g.patterns, covers p d.name? := by
  have same : (g.founded d (.device g.now)).subscription? device = g.subscription? device := rfl
  rw [welcome_eq kind]
  by_cases own : d.id = device
  · subst own
    have covered : (g.founded d (.device g.now)).IsCovered d.id ↔
        ∃ p ∈ g.patterns, covers p d.name? := by
      rw [IsCovered, name?_founded]
      rfl
    rw [isSome_autosubscribe, same, covered]
    simp
  · rw [autosubscribe_of_ne own, same]
    simp [own]

theorem isSome_welcomeAll (devices : ∀ d ∈ ds, d.kind = .device) (g : Graph α)
    (device : ObjectId) : ((ds.foldl welcome g).subscription? device).isSome ↔
      (g.subscription? device).isSome ∨
        ∃ d ∈ ds, d.id = device ∧ ∃ p ∈ g.patterns, covers p d.name? := by
  induction ds generalizing g with
  | nil => simp
  | cons d ds ih =>
      have kind := devices d List.mem_cons_self
      rw [List.foldl_cons, ih (fun e member => devices e (List.mem_cons_of_mem d member)),
        isSome_welcome kind, patterns_welcome kind, List.exists_mem_cons_iff, or_assoc]

theorem mem_matching_welcomeAll (new : g.Newcomers ds) (indexed : g.store.Indexed)
    (glob : String) (device : ObjectId) : device ∈ (ds.foldl welcome g).matching glob ↔
      device ∈ g.matching glob ∨
        ∃ d ∈ ds, d.id = device ∧ d.name?.any (Text.matchesGlob glob) := by
  induction ds generalizing g with
  | nil => simp
  | cons d ds ih =>
      have kind := new.devices d List.mem_cons_self
      have first := matching_welcome indexed kind (new.new d List.mem_cons_self) glob
      have here : device ∈ (if d.name?.any (Text.matchesGlob glob) then [d.id] else []) ↔
          d.id = device ∧ d.name?.any (Text.matchesGlob glob) := by
        split <;> simp [*, eq_comm]
      rw [List.foldl_cons, ih new.tail (indexed_welcome indexed kind), first, List.mem_append, here,
        List.exists_mem_cons_iff, or_assoc]

theorem subscribe_welcomeAll (lasting : lease ≠ .cancel) (free : g.patterns = [])
    (indexed : g.store.Indexed) (new : g.Newcomers ds)
    (absent : ∀ d ∈ ds, g.subscription? d.id = none)
    (agree : ∀ d ∈ ds,
      covers ⟨glob, categories, lease⟩ d.name? = d.name?.any (Text.matchesGlob glob)) :
    (ds.foldl welcome g).subscribe (.pattern glob) categories lease =
      ds.foldl welcome (g.subscribe (.pattern glob) categories lease) := by
  induction ds generalizing g with
  | nil => rfl
  | cons d ds ih =>
      have kind := new.devices d List.mem_cons_self
      have first := subscribe_welcome lasting free indexed kind (new.new d List.mem_cons_self)
        (absent d List.mem_cons_self) (agree d List.mem_cons_self)
      rw [List.foldl_cons, List.foldl_cons, ← first]
      refine ih ((patterns_welcome kind g).trans free) (indexed_welcome indexed kind) new.tail
        (fun e member => ?_) fun e member => agree e (List.mem_cons_of_mem d member)
      have before := absent e (List.mem_cons_of_mem d member)
      rw [← Option.not_isSome_iff_eq_none, isSome_welcome kind, free]
      simp [before]

/-- Who subscribes to a pattern subscribes to the devices whose names match. -/
theorem isSome_subscribe (lasting : lease ≠ .cancel) (absent : g.subscription? device = none) :
    ((g.subscribe (.pattern glob) categories lease).subscription? device).isSome ↔
      device ∈ g.matching glob := by
  obtain ⟨missed, found⟩ := (enterAll_spec (g.matching glob)
    (g.addPattern ⟨glob, categories, lease⟩) ⟨glob, categories, lease⟩).2 device
  have absentNow : (g.addPattern ⟨glob, categories, lease⟩).subscription? device = none := absent
  rw [subscribe_pattern_eq lasting]
  by_cases member : device ∈ g.matching glob
  · obtain ⟨s, held, -⟩ := found member
    simp [held, member]
  · simp [missed member, absentNow, member]

theorem covers_eq_any_iff (p : PatternSubscription) (name : Option String) :
    covers p name = name.any (Text.matchesGlob p.glob) ↔ (p.glob = "*" → name.isSome) := by
  cases name with
  | none => by_cases star : p.glob = "*" <;> simp [covers, star]
  | some name => simp [covers]

/-- Some devices that come after a pattern was subscribed to are subscribed to just if the pattern
    covers their names, and if they come before, just if their names match. So it does not matter
    which comes first, to what is subscribed to nor to anything else in the graph, unless a device
    without a name comes where all names are subscribed to: it is subscribed to if it comes later,
    and passed over if it is there already. -/
theorem pattern_finds_devices (reachable : Reachable config g) (free : g.patterns = [])
    (bare : ∀ device, g.subscription? device = none) (lasting : lease ≠ .cancel)
    (new : g.Newcomers ds) (glob : String) (categories : Categories) : ∃ h k,
      announceAll ds g = .ok () h ∧
      announceAll ds (g.subscribe (.pattern glob) categories lease) = .ok () k ∧
      (h.subscribe (.pattern glob) categories lease = k ↔
        (glob = "*" → ∀ d ∈ ds, d.name?.isSome)) ∧
      (∀ device, ((h.subscribe (.pattern glob) categories lease).subscription? device).isSome ↔
        g.Matches glob device ∨ ∃ d ∈ ds, d.id = device ∧ d.name?.any (Text.matchesGlob glob)) ∧
      ∀ device, (k.subscription? device).isSome ↔ g.Matches glob device ∨
        ∃ d ∈ ds, d.id = device ∧ covers ⟨glob, categories, lease⟩ d.name? := by
  have indexed := reachable.indexed
  have aside := subscribe_aside g (.pattern glob) categories lease
  have newToo : (g.subscribe (.pattern glob) categories lease).Newcomers ds :=
    ⟨new.devices, new.distinct, aside.store ▸ new.new⟩
  have later (device : ObjectId) :
      ((ds.foldl welcome (g.subscribe (.pattern glob) categories lease)).subscription?
        device).isSome ↔ g.Matches glob device ∨
          ∃ d ∈ ds, d.id = device ∧ covers ⟨glob, categories, lease⟩ d.name? := by
    rw [isSome_welcomeAll new.devices, isSome_subscribe lasting (bare device),
      mem_matching_iff indexed, patterns_subscribe_of_free lasting free]
    simp only [List.mem_singleton, exists_eq_left]
  have earlier (device : ObjectId) :
      (((ds.foldl welcome g).subscribe (.pattern glob) categories lease).subscription?
        device).isSome ↔ g.Matches glob device ∨
          ∃ d ∈ ds, d.id = device ∧ d.name?.any (Text.matchesGlob glob) := by
    have absent : (ds.foldl welcome g).subscription? device = none := by
      rw [← Option.not_isSome_iff_eq_none, isSome_welcomeAll new.devices, free, bare]
      simp
    rw [isSome_subscribe lasting absent, mem_matching_welcomeAll new indexed,
      mem_matching_iff indexed]
  refine ⟨_, _, new.announceAll, newToo.announceAll,
    ⟨fun same star d member => ?_, fun named => ?_⟩, earlier, later⟩
  · by_contra unnamed
    have none : d.name? = none := Option.not_isSome_iff_eq_none.mp unnamed
    have covered : covers ⟨glob, categories, lease⟩ d.name? := by simp [none, covers, star]
    -- A device without a name is subscribed to if it comes later; so it is if it comes earlier.
    have held := (later d.id).mpr (.inr ⟨d, member, rfl, covered⟩)
    rw [← same, earlier] at held
    rcases held with ⟨r, found, -, live, -⟩ | ⟨e, among, own, named⟩
    · exact Store.not_isVacant found live (new.new d member)
    · obtain rfl := new.eq_of_id among member own
      simp [none] at named
  · refine subscribe_welcomeAll lasting free indexed new (fun d _ => bare d.id) fun d member => ?_
    exact (covers_eq_any_iff _ _).mpr fun star => named star d member

/-- A device that says nothing of itself. -/
def nameless : Delta := .empty .device ⟨1⟩

/-- A device with a name. -/
def synth (id : ObjectId) : Delta :=
  (Delta.empty .device id).set (.wellKnown .name) (.ofString "synth")

theorem name?_synth (id : ObjectId) : (synth id).name? = some "synth" := by
  have named : (synth ⟨1⟩).name? = some "synth" := by decide +kernel
  exact named

theorem synth_found :
    let g : Graph Unit := make (.quiet ⟨0, 0⟩) .standard
    Reachable .standard g ∧ g.Newcomers [nameless, synth ⟨2⟩] ∧ ∃ h k,
      announceAll [nameless, synth ⟨2⟩] g = .ok () h ∧
      announceAll [nameless, synth ⟨2⟩] (g.subscribe (.pattern "s*") .signal .renewing) =
        .ok () k ∧
      h.subscribe (.pattern "s*") .signal .renewing = k ∧ (k.subscription? ⟨2⟩).isSome := by
  intro g
  have reachable : Reachable .standard g := .make _ _
  have new : g.Newcomers [nameless, synth ⟨2⟩] :=
    ⟨by decide, by decide, fun d _ r held => nomatch held⟩
  obtain ⟨h, k, before, after, agree, -, entries⟩ := pattern_finds_devices reachable rfl
    (fun _ => rfl) (show Lease.renewing ≠ .cancel by decide) new "s*" .signal
  have covered : covers ⟨"s*", .signal, .renewing⟩ (synth ⟨2⟩).name? := by
    simp [covers, name?_synth, Text.matchesGlob, Text.wildcardMatches, Text.scanBehindStar]
  exact ⟨reachable, new, h, k, before, after, agree.mpr fun star => absurd star (by decide),
    (entries ⟨2⟩).mpr (.inr ⟨synth ⟨2⟩, by simp, rfl, covered⟩)⟩

/-- Who subscribes to all names before a device without a name comes is subscribed to it, and who
    does so afterwards is not. -/
theorem nameless_passed_over :
    let g : Graph Unit := make (.quiet ⟨0, 0⟩) .standard
    Reachable .standard g ∧ g.patterns = [] ∧ (∀ device, g.subscription? device = none) ∧
      g.Newcomers [nameless] ∧
      (((announceAll [nameless]).after g).subscribe (.pattern "*") .signal .renewing).subscription?
        ⟨1⟩ = none ∧
      (((announceAll [nameless]).after
        (g.subscribe (.pattern "*") .signal .renewing)).subscription? ⟨1⟩).isSome := by
  intro g
  have new : g.Newcomers [nameless] :=
    ⟨by decide, by decide, fun d _ r held => nomatch held⟩
  refine ⟨.make _ _, rfl, fun _ => rfl, new, ?_, ?_⟩
  · decide +kernel
  · decide +kernel

/-! ## A device and a signal of it -/

/-- What a graph is subscribed to a device for. -/
def terms? (g : Graph α) (device : ObjectId) : Option (Categories × Lease × Option String) :=
  (g.subscription? device).map fun s => (s.categories, s.lease, s.pattern)

/-- The first pattern that covers a name, and what it subscribes to devices for. -/
def covering? (g : Graph α) (name : Option String) :
    Option (Categories × Lease × Option String) :=
  (g.patterns.find? fun p => covers p name).map fun p => (p.categories, p.lease, some p.glob)

theorem SameBook.terms? (same : g.SameBook h) (device : ObjectId) :
    h.terms? device = g.terms? device := by
  rw [Graph.terms?, Graph.terms?, same.subscription?]

theorem covering?_congr (patterns : h.patterns = g.patterns) (name : Option String) :
    h.covering? name = g.covering? name := by
  rw [covering?, covering?, patterns]

/-- A subscription that there is stays, and where there is none the first pattern counts that covers
    the device, whether or not the request is taken. -/
theorem terms?_autosubscribe (g : Graph α) (device : ObjectId) :
    (g.autosubscribe device).terms? device =
      (g.terms? device).or (g.covering? (g.name? device)) := by
  cases held : g.subscription? device with
  | some s =>
      have stays : g.autosubscribe device = g := by simp [autosubscribe, held]
      rw [stays, terms?, held]
      rfl
  | none =>
      rw [autosubscribe_of_absent held, terms?, terms?, held, covering?]
      cases g.patterns.find? fun p => covers p (g.name? device) with
      | none => simp [held]
      | some p =>
          obtain ⟨-, -, _, _, asked⟩ :=
            g.request_spec ⟨device, p.categories, p.lease, none, true, some p.glob⟩
          have entered : (g.enterAll [device] p).subscription? device = _ :=
            (g.subscription?_ask device _ device).trans (if_pos rfl)
          rw [entered, asked]
          rfl

theorem terms?_welcome (kind : d.kind = .device) (absent : g.subscription? d.id = none) :
    (g.welcome d).terms? d.id = g.covering? d.name? := by
  have absentNow : (g.founded d (.device g.now)).terms? d.id = none :=
    congrArg (Option.map _) absent
  rw [welcome_eq kind, terms?_autosubscribe, absentNow, name?_founded, Option.none_or]
  rfl

variable {sig : Delta} {r : Record}

/-- A new record that is not one of a device leaves subscriptions alone. -/
theorem establish_sameBook (other : d.kind ≠ .device) (g : Graph α) (wiring : Wiring) :
    g.SameBook (g.establish d wiring) := by
  have founded : g.SameBook (g.founded d wiring) := ⟨rfl, rfl, rfl, rfl⟩
  rw [establish, if_neg other]
  exact founded.trans (touchOwner_tends (g.founded d wiring) d.id).beside.sameBook

theorem afterMerge_sameBook (other : d.kind ≠ .device) (g : Graph α) (r : Record) :
    g.SameBook (g.afterMerge r d) := by
  have merged := (merged_tends g r d).beside.sameBook
  simp only [afterMerge]
  split
  · rw [noteChange, if_neg other]
    exact merged.trans ⟨rfl, rfl, rfl, rfl⟩
  · exact merged

/-- A signal of a device that is there leaves subscriptions alone. -/
theorem signal_sameBook (kind : sig.kind = .signal)
    (owner : sig.diff.relatedId .device = .ok device) (there : g.store.HasLive device .device) :
    g.SameBook ((applyEvent .announce sig).after g) := by
  have other : sig.kind ≠ .device := by simp [kind]
  change g.SameBook ((upsert sig).after g)
  rcases upsert_cases sig g with ⟨vacant, made⟩ | ⟨e, refused⟩ | ⟨r, how, held, live, -, -, merged⟩
  · simp only [Attempt.after, made, create, resolve, kind, Attempt.bind_apply,
      Attempt.current_apply, owner, Attempt.demand_ok]
    cases g.store.checkDevice sig.id device with
    | error e => exact .refl g
    | ok _ =>
        simp only [Attempt.demand_ok, ensureDevice_of_hasLive there, Attempt.pure_apply]
        exact establish_sameBook other g _
  · simp only [Attempt.after, refused]
    exact .refl g
  · simp only [Attempt.after, merged]
    exact afterMerge_sameBook other g r

/-- Whether a signal makes a placeholder for a device that is not there: it is new, and is not given
    as its own device. -/
def Places (g : Graph α) (sig : Delta) (device : ObjectId) : Prop :=
  g.store.IsVacant sig.id ∧ sig.id ≠ device

/-- A signal that makes no placeholder leaves subscriptions alone; the device is still to come. -/
theorem signal_of_not_places (kind : sig.kind = .signal)
    (owner : sig.diff.relatedId .device = .ok device) (vacant : g.store.IsVacant device)
    (unplaced : ¬g.Places sig device) :
    g.SameBook ((applyEvent .announce sig).after g) ∧
      ((applyEvent .announce sig).after g).store.IsVacant device := by
  change g.SameBook ((upsert sig).after g) ∧ ((upsert sig).after g).store.IsVacant device
  rcases upsert_cases sig g with ⟨free, made⟩ | ⟨e, refused⟩ | ⟨r, how, held, live, -, -, merged⟩
  · obtain rfl : sig.id = device := Decidable.byContradiction fun apart => unplaced ⟨free, apart⟩
    have itself : g.store.checkDevice sig.id sig.id = .error (.malformed (.selfReference sig.id)) :=
      if_pos rfl
    simp only [Attempt.after, made, create, resolve, kind, Attempt.bind_apply,
      Attempt.current_apply, owner, Attempt.demand_ok, itself]
    exact ⟨.refl g, vacant⟩
  · simp only [Attempt.after, refused]
    exact ⟨.refl g, vacant⟩
  · simp only [Attempt.after, merged]
    have outline : g.store.SameOutline (g.afterMerge r sig).store :=
      (withMerged_sameOutline held).trans (afterMerge_leads held live).sameOutline
    exact ⟨afterMerge_sameBook (by simp [kind]) g r, vacant.congr (outline.outline device)⟩

/-- A signal that makes a placeholder is taken, and the device is subscribed to as one without a
    name. -/
theorem signal_of_places (kind : sig.kind = .signal)
    (owner : sig.diff.relatedId .device = .ok device) (vacant : g.store.IsVacant device)
    (absent : g.subscription? device = none) (places : g.Places sig device) :
    let h := (applyEvent .announce sig).after g
    h.terms? device = g.covering? none ∧ h.patterns = g.patterns ∧
      h.store.view? device = some (.blank device g.now) := by
  obtain ⟨free, apart⟩ := places
  have fits : g.Announceable [sig] := by
    refine ⟨List.nodup_singleton _, by simpa using free, ?_⟩
    simp only [List.mem_singleton, forall_eq]
    refine ⟨[device], _, .signal kind owner, ?_⟩
    simp only [List.mem_singleton, forall_eq]
    exact ⟨apart.symm, vacant, by simpa using fun same => absurd same apart⟩
  obtain ⟨how, k, taken, known⟩ := (Heard.nothing g).step fits
  have named : g.IsNamed [sig] [] device :=
    .inr ⟨sig, List.mem_singleton_self sig, _, _, .signal kind owner, List.mem_singleton_self _⟩
  have placed := known.placed device (by simpa using apart) named
  have check : g.store.checkDevice sig.id device = .ok () :=
    Store.checkDevice_eq_ok_iff.mpr ⟨apart.symm, .inr vacant⟩
  have made : (applyEvent .announce sig).after g =
      (g.welcome (.empty .device device)).establish sig (.signal device g.newPool) := by
    change (upsert sig).after g = _
    simp only [Attempt.after, upsert_of_vacant free, create, resolve, kind, Attempt.bind_apply,
      Attempt.current_apply, owner, Attempt.demand_ok, check, ensureDevice_of_isVacant vacant,
      Attempt.pure_apply, Attempt.change_apply]
    rfl
  have same := establish_sameBook (d := sig) (by simp [kind]) (g.welcome (.empty .device device))
    (.signal device g.newPool)
  intro h
  refine ⟨?_, ?_, ?_⟩
  · exact (made ▸ same.terms? device).trans (terms?_welcome (d := .empty .device device) rfl absent)
  · exact (congrArg Graph.patterns made).trans (same.patterns.trans (patterns_welcome rfl g))
  · have reached : h = k := by simp only [h, Attempt.after, taken]
    exact reached ▸ placed

theorem name?_eq_of_view? (view : g.store.view? device = some r) :
    g.name? device = r.name? := by
  obtain ⟨r', held, rfl⟩ := Option.map_eq_some_iff.mp view
  rw [name?, held]
  rfl

/-- A change of a device is noted, and then a pattern is looked for. -/
theorem afterMerge_eq_autosubscribe (kind : d.kind = .device) (changed : (g.mergedRecord r d).2) :
    ∃ noted, g.SameBook noted ∧ g.afterMerge r d = noted.autosubscribe d.id := by
  have merged := (merged_tends g r d).beside.sameBook
  refine ⟨(((g.withMerged r d).touchOwner d.id).modify d.id ({ · with status := .modified })).notify
    d.id .modified, merged.trans ⟨rfl, rfl, rfl, rfl⟩, ?_⟩
  rw [afterMerge, if_pos changed, noteChange, if_pos kind]

/-- Where nothing is said of a device that was only named, it is given no name. -/
theorem name?_of_unchanged (empty : r.properties = .empty)
    (unchanged : (g.mergedRecord r d).2 = false) : d.name? = none := by
  have states := (states_of_mergedRecord unchanged).1
  rw [empty] at states
  have same : (Table.empty.applyDiff d.diff).1 = .empty :=
    (Table.applyDiff_eq_afterChanges ..).trans (Table.Sound.empty.afterChanges_of_states states)
  rw [Delta.name?, same]
  rfl

/-- A device that was only named so far keeps the subscription that it has. If it has none, it is
    looked for one by its name. -/
theorem terms?_announce_of_blank {synced : Timetag} (kind : d.kind = .device)
    (blank : g.store.view? d.id = some (.blank d.id synced))
    (settled : g.terms? d.id = g.covering? none) :
    ((applyEvent .announce d).after g).terms? d.id =
      (g.covering? none).or (g.covering? d.name?) := by
  obtain ⟨r, how, held, same, live, ofDevice, merges⟩ := upsert_merges_of_blank kind blank
  have empty : r.properties = .empty := congrArg Record.properties same
  have reached : (applyEvent .announce d).after g = g.afterMerge r d := by
    change (upsert d).after g = _
    simp only [Attempt.after, merges]
  rw [reached]
  cases changed : (g.mergedRecord r d).2 with
  | true =>
      obtain ⟨noted, book, merged⟩ := afterMerge_eq_autosubscribe kind changed
      have view := (view?_afterMerge held live ofDevice d.id).trans (if_pos rfl)
      rw [merged, (autosubscribe_quiet noted d.id).store] at view
      have name : noted.name? d.id = d.name? := by
        rw [name?_eq_of_view? view, Record.name?]
        change ((g.mergedRecord r d).1.properties.get? _).bind _ = _
        rw [(mergedRecord_spec g r d).2.1, empty, Delta.name?]
      rw [merged, terms?_autosubscribe, book.terms?, covering?_congr book.patterns, settled, name]
  | false =>
      have merged : g.afterMerge r d = (g.withMerged r d).touchOwner d.id := by
        simp [afterMerge, changed]
      rw [merged, (merged_tends g r d).beside.sameBook.terms?, settled,
        name?_of_unchanged empty changed, Option.or_self]

theorem terms?_announce_of_isVacant (kind : d.kind = .device) (vacant : g.store.IsVacant d.id)
    (absent : g.subscription? d.id = none) :
    ((applyEvent .announce d).after g).terms? d.id = g.covering? d.name? := by
  simp only [Attempt.after, applyEvent_of_isVacant kind vacant, terms?_welcome kind absent]

theorem hasLive_welcome (kind : d.kind = .device) (g : Graph α) :
    (g.welcome d).store.HasLive d.id .device := by
  have frame := recordOf_frame g d (.device g.now)
  rw [store_welcome kind]
  exact ⟨_, (find?_founded g d _ d.id).trans (if_pos rfl), recordOf_kind g d _,
    congrArg Frame.isLive frame⟩

theorem covering?_none_eq_none_iff : g.covering? none = none ↔ ¬g.HasPattern "*" := by
  simp [covering?, HasPattern, covers]

/-- To look first for what covers devices without a name changes what covers a name just if there is
    a pattern for all names, and it is not that one. -/
theorem or_covering?_eq_iff (name : Option String) :
    (g.covering? none).or (g.covering? name) = g.covering? name ↔
      (g.HasPattern "*" → g.covering? name = g.covering? none) := by
  cases star : g.covering? none with
  | none => simp [covering?_none_eq_none_iff.mp star]
  | some terms =>
      have registered : g.HasPattern "*" := by
        by_contra none
        cases (covering?_none_eq_none_iff.mpr none).symm.trans star
      simp only [registered, forall_const, Option.some_or, eq_comm]

/-- A device and a signal of it come one after the other, at whatever times and whichever requests
    fail. If the device comes first it is subscribed to by the first pattern that covers its name.
    If the signal comes first and makes a placeholder, the pattern for all names gets hold of that
    and keeps it; only where there is none the first pattern counts that covers the name. So the
    order matters just if there is a pattern for all names and another one before it covers the
    name. -/
theorem first_pattern_or_star (g : Graph α) (dev sig : Delta) (isDevice : dev.kind = .device)
    (isSignal : sig.kind = .signal) (owner : sig.diff.relatedId .device = .ok dev.id)
    (vacant : g.store.IsVacant dev.id) (absent : g.subscription? dev.id = none)
    (clock : Timetag) (failingSends : Nat) :
    let deviceFirst := (applyEvent .announce sig).after
      (((applyEvent .announce dev).after g).facing clock failingSends)
    let signalFirst := (applyEvent .announce dev).after
      (((applyEvent .announce sig).after g).facing clock failingSends)
    deviceFirst.terms? dev.id = g.covering? dev.name? ∧
      (¬g.Places sig dev.id → signalFirst.terms? dev.id = g.covering? dev.name?) ∧
      (g.Places sig dev.id → signalFirst.terms? dev.id =
        (g.covering? none).or (g.covering? dev.name?)) ∧
      (signalFirst.terms? dev.id = deviceFirst.terms? dev.id ↔
        (g.Places sig dev.id → g.HasPattern "*" → g.covering? dev.name? = g.covering? none)) := by
  intro deviceFirst signalFirst
  have first : deviceFirst.terms? dev.id = g.covering? dev.name? := by
    have came : (applyEvent .announce dev).after g = g.welcome dev := by
      simp only [Attempt.after, applyEvent_of_isVacant isDevice vacant]
    have there : (((applyEvent .announce dev).after g).facing clock failingSends).store.HasLive
        dev.id .device := came ▸ hasLive_welcome isDevice g
    rw [(signal_sameBook isSignal owner there).terms?]
    exact terms?_announce_of_isVacant isDevice vacant absent
  have unplaced (free : ¬g.Places sig dev.id) :
      signalFirst.terms? dev.id = g.covering? dev.name? := by
    obtain ⟨same, still⟩ := signal_of_not_places isSignal owner vacant free
    have absentNow := (same.subscription? dev.id).trans absent
    refine (terms?_announce_of_isVacant (g := ((applyEvent .announce sig).after g).facing clock
      failingSends) isDevice still absentNow).trans (covering?_congr same.patterns dev.name?)
  have placed (places : g.Places sig dev.id) :
      signalFirst.terms? dev.id = (g.covering? none).or (g.covering? dev.name?) := by
    obtain ⟨terms, patterns, blank⟩ := signal_of_places isSignal owner vacant absent places
    have covering (name : Option String) : (((applyEvent .announce sig).after g).facing clock
        failingSends).covering? name = g.covering? name := covering?_congr patterns name
    have settled := terms.trans (covering none).symm
    have announced := terms?_announce_of_blank (g := ((applyEvent .announce sig).after g).facing
      clock failingSends) isDevice blank settled
    rw [covering, covering] at announced
    exact announced
  refine ⟨first, unplaced, placed, ?_⟩
  rw [first]
  by_cases places : g.Places sig dev.id
  · rw [placed places, or_covering?_eq_iff]
    simp only [places, forall_const]
  · simp [unplaced places, places]

/-- A graph that has subscribed to the devices of a name, and then to all. -/
def watching (name : String) : Graph Unit :=
  ((make (.quiet ⟨0, 0⟩) .standard).call (.subscribe (.pattern name) .signal .renewing)).call
    (.subscribe (.pattern "*") .device .renewing)

theorem watching_first_pattern_or_star :
    let g := watching "piano"
    let deviceFirst := (applyEvent .announce orphan).after
      (((applyEvent .announce (synth ⟨1⟩)).after g).facing ⟨5, 0⟩ 0)
    let signalFirst := (applyEvent .announce (synth ⟨1⟩)).after
      (((applyEvent .announce orphan).after g).facing ⟨5, 0⟩ 0)
    orphan.diff.relatedId .device = .ok ⟨1⟩ ∧ g.store.IsVacant ⟨1⟩ ∧
      g.subscription? ⟨1⟩ = none ∧ g.Places orphan ⟨1⟩ ∧
      deviceFirst.terms? ⟨1⟩ = some (.device, .renewing, some "*") ∧
      signalFirst.terms? ⟨1⟩ = deviceFirst.terms? ⟨1⟩ := by
  intro g deviceFirst signalFirst
  have owner : orphan.diff.relatedId .device = .ok ⟨1⟩ := by decide +kernel
  have vacant (id : ObjectId) : g.store.IsVacant id := fun _ held => nomatch held
  have places : g.Places orphan ⟨1⟩ := ⟨vacant _, by decide⟩
  have named : g.covering? (synth ⟨1⟩).name? = some (.device, .renewing, some "*") := by
    have patterns : g.patterns = [⟨"piano", .signal, .renewing⟩, ⟨"*", .device, .renewing⟩] := by
      decide +kernel
    simp [covering?, name?_synth, patterns, covers, Text.matchesGlob, Text.wildcardMatches,
      Text.scanBehindStar]
  have unnamed : g.covering? none = some (.device, .renewing, some "*") := by decide +kernel
  obtain ⟨first, -, -, agree⟩ := first_pattern_or_star g (synth ⟨1⟩) orphan rfl rfl owner
    (vacant _) rfl ⟨5, 0⟩ 0
  exact ⟨owner, vacant _, rfl, places, first.trans named,
    agree.mpr fun _ _ => named.trans unnamed.symm⟩

/-- Where the name of the device is subscribed to before all names are, the device is subscribed to
    by its name if it comes before its signal, and as any device if it comes after it. -/
theorem watching_order_matters :
    let g := watching "synth"
    let deviceFirst := (applyEvent .announce orphan).after
      ((applyEvent .announce (synth ⟨1⟩)).after g)
    let signalFirst := (applyEvent .announce (synth ⟨1⟩)).after
      ((applyEvent .announce orphan).after g)
    Reachable .standard g ∧ g.store.find? ⟨1⟩ = none ∧ g.subscription? ⟨1⟩ = none ∧
      g.wire.failingSends = 0 ∧
      deviceFirst.terms? ⟨1⟩ = some (.signal, .renewing, some "synth") ∧
      signalFirst.terms? ⟨1⟩ = some (.device, .renewing, some "*") := by
  intro g deviceFirst signalFirst
  refine ⟨.call (.call (.make _ _) _) _, rfl, rfl, rfl, ?_, ?_⟩
  · decide +kernel
  · decide +kernel

end Graph

end SignalGraph
