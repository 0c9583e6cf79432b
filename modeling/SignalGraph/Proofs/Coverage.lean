import SignalGraph.Proofs.Index
import SignalGraph.Proofs.Reference
import SignalGraph.Proofs.SubscriptionOperations

/-! # Patterns that cover the same device

A device has at most one subscription, which names the pattern that it comes from. Who subscribes
last takes it over, and takes it along when the pattern goes: what the device was subscribed to by
before, or by what else it is covered, does not count then.
-/

namespace SignalGraph.Graph

variable {α : Type} {g h : Graph α} {device : ObjectId} {glob : String} {config : Config}

/-- Whether a live device has a name that matches a glob. -/
def Matches (g : Graph α) (glob : String) (device : ObjectId) : Prop :=
  ∃ r, g.store.find? device = some r ∧ r.kind = .device ∧ r.isLive ∧
    r.name?.any (Text.matchesGlob glob)

def HasPattern (g : Graph α) (glob : String) : Prop := ∃ p ∈ g.patterns, p.glob = glob

/-- Whether a subscription is kept under its device, and comes from no pattern but one that is
    registered. -/
structure IsTraced (g : Graph α) (device : ObjectId) (s : Subscription) : Prop where
  own : s.device = device
  registered : ∀ glob, s.pattern = some glob → g.HasPattern glob

def Traced (g : Graph α) : Prop := ∀ device s, g.subscription? device = some s → g.IsTraced device s

namespace Traced

theorem make (wire : Wire) (config : Config) : (make wire config : Graph α).Traced :=
  fun _ _ held => (by cases held)

/-- While no pattern goes, only the subscriptions that are new count. -/
theorem grow (traced : g.Traced) (patterns : ∀ glob, g.HasPattern glob → h.HasPattern glob)
    (entries : ∀ device s, h.subscription? device = some s →
      g.subscription? device = some s ∨ h.IsTraced device s) : h.Traced := by
  intro device s held
  rcases entries device s held with before | new
  · obtain ⟨own, registered⟩ := traced device s before
    exact ⟨own, fun glob tag => patterns glob (registered glob tag)⟩
  · exact new

theorem sameBook (traced : g.Traced) (same : g.SameBook h) : h.Traced := by
  refine traced.grow (fun glob registered => ?_) fun device s held => .inl ?_
  · rwa [HasPattern, same.patterns]
  · rwa [← same.subscription?]

theorem drop (traced : g.Traced) (device : ObjectId) : (g.dropSubscription device).Traced := by
  refine traced.grow (fun _ registered => registered) fun other s held => .inl ?_
  rw [subscription?_dropSubscription] at held
  split at held
  · cases held
  · exact held

theorem ask (traced : g.Traced) {s : Subscription} (own : s.device = device)
    (registered : ∀ glob, s.pattern = some glob → g.HasPattern glob) :
    (g.ask device s).Traced := by
  have kept (glob : String) : g.HasPattern glob → (g.ask device s).HasPattern glob := by
    rw [HasPattern, HasPattern, patterns_ask]
    exact id
  refine traced.grow kept fun other t held => ?_
  rw [subscription?_ask] at held
  split at held
  · rename_i here
    obtain ⟨-, -, _, _, same⟩ := g.request_spec s
    obtain rfl := Option.some.inj (same ▸ held)
    exact .inr ⟨own.trans here, fun glob tag => kept glob (registered glob tag)⟩
  · exact .inl held

theorem seek (traced : g.Traced) (device : ObjectId) : (g.autosubscribe device).Traced := by
  simp only [autosubscribe]
  split
  · exact traced
  · split
    · rename_i p found
      refine traced.ask rfl fun glob tag => ?_
      exact ⟨p, List.mem_of_find?_eq_some found, Option.some.inj tag⟩
    · exact traced

theorem renew (traced : g.Traced) (device : ObjectId) : (g.renewDevice device).Traced := by
  rcases g.renewDevice_cases device with stays | lapsed | ⟨s, held, again⟩
  · exact stays.symm ▸ traced
  · exact lapsed.symm ▸ traced.drop device
  · obtain ⟨own, registered⟩ := traced device s held
    exact again.symm ▸ traced.ask own registered

theorem does {e : SubscriptionChange} (traced : g.Traced) (own : e.IsOwn) (does : e.Does g h) :
    h.Traced := by
  obtain ⟨k, same, rfl⟩ := does.book
  replace traced := traced.sameBook same
  cases e with
  | keep said => exact traced
  | tell => exact traced
  | seek device how => exact traced.seek device
  | drop device => exact traced.drop device
  | renew device => exact traced.renew device
  | _ => exact own.elim

end Traced

/-! ## Unsubscribing -/

theorem patterns_unsubscribeDevice (g : Graph α) (device : ObjectId) :
    (g.unsubscribeDevice device).patterns = g.patterns := by
  simp only [unsubscribeDevice]
  split <;> rfl

theorem cancelAll_spec (devices : List ObjectId) (g : Graph α) :
    (devices.foldl unsubscribeDevice g).patterns = g.patterns ∧
      ∀ other, (devices.foldl unsubscribeDevice g).subscription? other =
        if other ∈ devices then none else g.subscription? other := by
  induction devices generalizing g with
  | nil => simp
  | cons device devices ih =>
      obtain ⟨patterns, entries⟩ := ih (g.unsubscribeDevice device)
      refine ⟨patterns.trans (g.patterns_unsubscribeDevice device), fun other => ?_⟩
      rw [List.foldl_cons, entries, subscription?_unsubscribeDevice]
      by_cases here : device = other
      · simp [here]
      · simp [here, Ne.symm here]

/-- With a pattern those subscriptions go that come from it. -/
theorem Traced.unsubscribe_spec (traced : g.Traced) (glob : String) :
    (g.unsubscribe (.pattern glob)).patterns = (g.dropPattern glob).patterns ∧
      ∀ device, (g.unsubscribe (.pattern glob)).subscription? device =
        (g.subscription? device).filter fun s => s.pattern ≠ some glob := by
  obtain ⟨patterns, entries⟩ := cancelAll_spec ((g.subscriptions.values.filter fun s =>
    s.pattern = some glob).map Subscription.device) (g.dropPattern glob)
  refine ⟨patterns, fun device => (entries device).trans ?_⟩
  have member : device ∈ ((g.subscriptions.values.filter fun s => s.pattern = some glob).map
      Subscription.device) ↔ ∃ s, g.subscription? device = some s ∧ s.pattern = some glob := by
    simp only [List.mem_map, List.mem_filter, Directory.mem_values_iff, decide_eq_true_eq]
    constructor
    · rintro ⟨s, ⟨⟨id, held⟩, tag⟩, rfl⟩
      exact ⟨s, (traced id s held).own ▸ held, tag⟩
    · rintro ⟨s, held, tag⟩
      exact ⟨s, ⟨⟨device, held⟩, tag⟩, (traced device s held).own⟩
  have same : (g.dropPattern glob).subscription? device = g.subscription? device := rfl
  rw [same]
  simp only [member]
  cases held : g.subscription? device with
  | none => simp
  | some s => by_cases tag : s.pattern = some glob <;> simp [tag, Option.filter_some]

theorem Traced.unsubscribe (traced : g.Traced) (target : SubscriptionTarget) :
    (g.unsubscribe target).Traced := by
  cases target with
  | device id =>
      change (g.unsubscribeDevice id).Traced
      refine traced.grow (fun glob registered => ?_) fun other s held => .inl ?_
      · rwa [HasPattern, patterns_unsubscribeDevice]
      · rw [subscription?_unsubscribeDevice] at held
        split at held
        · cases held
        · exact held
  | pattern glob =>
      obtain ⟨patterns, entries⟩ := traced.unsubscribe_spec glob
      intro device s held
      rw [entries] at held
      obtain ⟨before, other⟩ := Option.filter_eq_some_iff.mp held
      obtain ⟨own, registered⟩ := traced device s before
      refine ⟨own, fun glob' tag => ?_⟩
      obtain ⟨p, member, rfl⟩ := registered glob' tag
      refine ⟨p, patterns.symm ▸ List.mem_filter.mpr ⟨member, ?_⟩, rfl⟩
      simpa [tag] using other

/-! ## Subscribing -/

/-- The live devices whose names match a glob, in order. -/
def matching (g : Graph α) (glob : String) : List ObjectId :=
  ((g.store.live .device).filter fun r => r.name?.any (Text.matchesGlob glob)).map Record.id

theorem mem_matching_iff (indexed : g.store.Indexed) :
    device ∈ g.matching glob ↔ g.Matches glob device := by
  simp only [matching, List.mem_map, List.mem_filter, indexed.mem_live_iff]
  constructor
  · rintro ⟨r, ⟨⟨held, kind, live⟩, named⟩, rfl⟩
    exact ⟨r, held, kind, live, named⟩
  · rintro ⟨r, held, kind, live, named⟩
    have own := indexed.keyed device r held
    exact ⟨r, ⟨⟨own.symm ▸ held, kind, live⟩, named⟩, own⟩

/-- Subscribes to some devices by a pattern. -/
def enterAll (g : Graph α) (devices : List ObjectId) (p : PatternSubscription) : Graph α :=
  devices.foldl (fun g device => g.subscribeDevice device p.categories p.lease (some p.glob)) g

theorem subscribe_pattern_eq {lease : Lease} (lasting : lease ≠ .cancel) (g : Graph α)
    (glob : String) (categories : Categories) :
    g.subscribe (.pattern glob) categories lease =
      (g.addPattern ⟨glob, categories, lease⟩).enterAll (g.matching glob)
        ⟨glob, categories, lease⟩ := by
  simp only [subscribe, if_neg lasting, enterAll, matching, List.foldl_map]
  rfl

/-- To subscribe to some devices by a pattern takes these over, and leaves the others. -/
theorem enterAll_spec (devices : List ObjectId) (g : Graph α) (p : PatternSubscription) :
    (g.enterAll devices p).patterns = g.patterns ∧ ∀ device,
      (device ∉ devices → (g.enterAll devices p).subscription? device = g.subscription? device) ∧
      (device ∈ devices → ∃ s, (g.enterAll devices p).subscription? device = some s ∧
        s.device = device ∧ s.pattern = some p.glob) := by
  induction devices generalizing g with
  | nil => simp [enterAll]
  | cons first devices ih =>
      obtain ⟨patterns, entries⟩ :=
        ih (g.ask first ⟨first, p.categories, p.lease, none, true, some p.glob⟩)
      have same : g.enterAll (first :: devices) p =
          (g.ask first ⟨first, p.categories, p.lease, none, true, some p.glob⟩).enterAll devices p := rfl
      rw [same]
      refine ⟨patterns.trans (g.patterns_ask _ _), fun device => ⟨fun absent => ?_, fun member => ?_⟩⟩
      · obtain ⟨other, absent⟩ := not_or.mp (List.mem_cons.not.mp absent)
        rw [(entries device).1 absent, subscription?_ask, if_neg fun same => other same.symm]
      · by_cases later : device ∈ devices
        · exact (entries device).2 later
        · obtain rfl := (List.mem_cons.mp member).resolve_right later
          obtain ⟨-, -, _, _, same⟩ :=
            g.request_spec ⟨device, p.categories, p.lease, none, true, some p.glob⟩
          rw [(entries device).1 later, subscription?_ask, if_pos rfl, same]
          exact ⟨_, rfl, rfl, rfl⟩

theorem hasPattern_addPattern (g : Graph α) (p : PatternSubscription) (glob : String) :
    (g.addPattern p).HasPattern glob ↔ glob = p.glob ∨ g.HasPattern glob := by
  simp only [HasPattern, addPattern, dropPattern, List.mem_append, List.mem_filter,
    List.mem_singleton, decide_eq_true_eq]
  constructor
  · rintro ⟨q, ⟨member, -⟩ | rfl, rfl⟩
    · exact .inr ⟨q, member, rfl⟩
    · exact .inl rfl
  · rintro (rfl | ⟨q, member, rfl⟩)
    · exact ⟨p, .inr rfl, rfl⟩
    · by_cases same : q.glob = p.glob
      · exact ⟨p, .inr rfl, same.symm⟩
      · exact ⟨q, .inl ⟨member, same⟩, rfl⟩

theorem Traced.enterAll (traced : g.Traced) (p : PatternSubscription) (devices : List ObjectId) :
    ((g.addPattern p).enterAll devices p).Traced := by
  obtain ⟨patterns, entries⟩ := enterAll_spec devices (g.addPattern p) p
  have registered (glob : String) : ((g.addPattern p).enterAll devices p).HasPattern glob ↔
      glob = p.glob ∨ g.HasPattern glob := by
    rw [HasPattern, patterns]
    exact g.hasPattern_addPattern p glob
  refine traced.grow (fun glob before => (registered glob).mpr (.inr before)) fun device s held => ?_
  by_cases member : device ∈ devices
  · obtain ⟨t, entered, own, tag⟩ := (entries device).2 member
    obtain rfl := Option.some.inj (entered.symm.trans held)
    refine .inr ⟨own, fun glob named => (registered glob).mpr (.inl ?_)⟩
    exact Option.some.inj (named.symm.trans tag)
  · exact .inl ((entries device).1 member ▸ held)

theorem Traced.subscribe (traced : g.Traced) (target : SubscriptionTarget) (categories : Categories)
    (lease : Lease) : (g.subscribe target categories lease).Traced := by
  by_cases lasting : lease = .cancel
  · simp only [Graph.subscribe, if_pos lasting]
    exact traced.unsubscribe target
  · cases target with
    | device id =>
        simp only [Graph.subscribe, if_neg lasting]
        exact traced.ask rfl fun glob tag => by cases tag
    | pattern glob =>
        rw [subscribe_pattern_eq lasting]
        exact traced.enterAll _ _

theorem Reachable.traced (reachable : Reachable config g) : g.Traced := by
  obtain ⟨wire, said, run⟩ := reachable
  refine run.heeds (fun upkeep traced => ?_) (fun {k input} _ traced => ?_) (.make wire config)
  · exact upkeep.keeps
      (fun kept does traced => traced.does (SubscriptionChange.IsUpkeep.isOwn _ kept) does) traced
  · rcases k.step_deals input with ⟨target, categories, lease, rfl⟩ | ⟨target, rfl⟩ | deals
    · exact traced.subscribe target categories lease
    · exact traced.unsubscribe target
    · exact deals.tends.keeps (fun own does traced => traced.does own does) traced

/-! ## A pattern that comes and goes -/

/-- Without a pattern nothing goes when it is ended. -/
theorem Traced.unsubscribe_free (traced : g.Traced) (free : ¬g.HasPattern glob) :
    (g.dropPattern glob).patterns = g.patterns ∧ ∀ device,
      (g.subscription? device).filter (fun s => s.pattern ≠ some glob) = g.subscription? device := by
  refine ⟨List.filter_eq_self.mpr fun p member => decide_eq_true fun same => free ⟨p, member, same⟩,
    fun device => ?_⟩
  cases held : g.subscription? device with
  | none => rfl
  | some s =>
      have other : s.pattern ≠ some glob := fun tag => free ((traced device s held).registered _ tag)
      simp [Option.filter_some, other]

/-- A pattern that is registered and ended again leaves no trace but that each live device whose name
    it matches is subscribed to no longer, by whatever it was before and whatever else covers it. -/
theorem pattern_passes (reachable : Reachable config g) (free : ¬g.HasPattern glob)
    (categories : Categories) (lease : Lease) (device : ObjectId) :
    let passed := (g.subscribe (.pattern glob) categories lease).unsubscribe (.pattern glob)
    passed.patterns = g.patterns ∧
      (lease ≠ .cancel → g.Matches glob device → passed.subscription? device = none) ∧
      (lease = .cancel ∨ ¬g.Matches glob device →
        passed.subscription? device = g.subscription? device) := by
  have traced := reachable.traced
  have dropped (h : Graph α) :
      (h.dropPattern glob).patterns = h.patterns.filter fun p => p.glob ≠ glob := rfl
  obtain ⟨unlisted, untagged⟩ := traced.unsubscribe_free free
  obtain ⟨patterns, entries⟩ :=
    (traced.subscribe (.pattern glob) categories lease).unsubscribe_spec glob
  by_cases lasting : lease = .cancel
  · have same : g.subscribe (.pattern glob) categories lease = g.unsubscribe (.pattern glob) :=
      if_pos lasting
    obtain ⟨unlisted', untagged'⟩ := traced.unsubscribe_spec glob
    rw [same] at patterns entries ⊢
    refine ⟨?_, fun other => absurd lasting other, fun _ => ?_⟩
    · rw [patterns, dropped, unlisted', unlisted, ← dropped, unlisted]
    · rw [entries, untagged', untagged, untagged]
  · obtain ⟨listed, entered⟩ := enterAll_spec (g.matching glob)
      (g.addPattern ⟨glob, categories, lease⟩) ⟨glob, categories, lease⟩
    have added : (g.addPattern ⟨glob, categories, lease⟩).patterns =
        (g.dropPattern glob).patterns ++ [⟨glob, categories, lease⟩] := rfl
    rw [← mem_matching_iff reachable.indexed]
    rw [subscribe_pattern_eq lasting] at patterns entries ⊢
    refine ⟨?_, fun _ covered => ?_, fun spared => ?_⟩
    · rw [patterns, dropped, listed, added, List.filter_append, unlisted, ← dropped, unlisted]
      simp
    · obtain ⟨s, held, -, tag⟩ := (entered device).2 covered
      rw [entries, held, Option.filter_some, if_neg (by simp [tag])]
    · rw [entries, (entered device).1 (spared.resolve_left lasting)]
      exact untagged device

/-- A graph that has heard of device 1, and then of its name. -/
def heardOfName (config : Config) : Graph Unit :=
  ((make (.quiet ⟨0, 0⟩) config).call (.apply .announce (.empty .device ⟨1⟩))).call
    (.apply .update ((Delta.empty .device ⟨1⟩).set (.wellKnown .name) (.ofString "synth")))

/-- The same, subscribed to the device until told otherwise. -/
def followingName : Graph Unit :=
  (heardOfName .standard).call (.subscribe (.device ⟨1⟩) .signal .renewing)

theorem heardOfName_reachable (config : Config) : Reachable config (heardOfName config) :=
  .call (.call (.make _ _) _) _

theorem followingName_reachable : Reachable .standard followingName :=
  (heardOfName_reachable .standard).call _

/-- A pattern for other names leaves the subscription to the device. -/
theorem followingName_stays :
    ((followingName.subscribe (.pattern "drum") .all .renewing).unsubscribe
      (.pattern "drum")).subscription? ⟨1⟩ = followingName.subscription? ⟨1⟩ ∧
      (followingName.subscription? ⟨1⟩).isSome := by
  have free : ¬followingName.HasPattern "drum" := by
    rintro ⟨p, member, -⟩
    cases member
  have passes := pattern_passes followingName_reachable free .all .renewing ⟨1⟩
  refine ⟨passes.2.2 (.inr ?_), by decide +kernel⟩
  rintro ⟨r, held, -, -, matched⟩
  have named : (followingName.store.find? ⟨1⟩).bind Record.name? = some "synth" := by decide +kernel
  rw [held, Option.bind_some] at named
  rw [named] at matched
  exact absurd matched (by decide +kernel)

/-- Device 1 is covered by the pattern for all names, or subscribed to directly, until told otherwise.
    A pattern for its name that comes and goes ends either. -/
theorem followingName_taken :
    let pass (g : Graph Unit) :=
      (g.subscribe (.pattern "synth") .all .renewing).unsubscribe (.pattern "synth")
    let covered := heardOfName { Config.standard with autosubscribe := .signal }
    (Reachable { Config.standard with autosubscribe := .signal } covered ∧
      covered.HasPattern "*" ∧ Text.matchesGlob "*" "synth" ∧
      (covered.subscription? ⟨1⟩).map (fun s => (s.lease, s.pattern)) =
        some (.renewing, some "*") ∧ (pass covered).subscription? ⟨1⟩ = none) ∧
    Reachable .standard followingName ∧
      (followingName.subscription? ⟨1⟩).map (fun s => (s.lease, s.pattern)) =
        some (.renewing, none) ∧
      (pass followingName).subscription? ⟨1⟩ = none := by
  intro pass covered
  refine ⟨⟨heardOfName_reachable _, ⟨_, List.mem_singleton_self _, rfl⟩, ?_, ?_, ?_⟩,
    followingName_reachable, ?_, ?_⟩
  · simp [Text.matchesGlob, Text.wildcardMatches, Text.scanBehindStar]
  all_goals decide +kernel

end SignalGraph.Graph
