import SignalGraph.Proofs.SubscriptionOperations

/-! # Subscriptions and requests

What a graph keeps of a subscription is what it last asked the device for: unless it is pending, no
later request for that device was taken. A request for no time at all cancels, though, and that is
what a renewing subscription asks for where the settings renew after no time.
-/

namespace SignalGraph

/-- The last request for a device that was taken. -/
def Wire.latest? (w : Wire) (device : ObjectId) : Option SubscriptionRequest :=
  w.requests.reverse.find? fun r => r.device = device

theorem Wire.latest?_push (w : Wire) (r : SubscriptionRequest) (device : ObjectId) :
    ({ w with requests := w.requests ++ [r] } : Wire).latest? device =
      if r.device = device then some r else w.latest? device := by
  by_cases own : r.device = device <;> simp [latest?, own]

namespace Graph

variable {α : Type} {g h : Graph α} {may : Lease → Prop} {device : ObjectId} {s t : Subscription}

/-- Whether a subscription, unless it is pending, is what a device was last asked for. -/
structure IsBooked (g : Graph α) (device : ObjectId) (s : Subscription) : Prop where
  own : s.device = device
  asked : s.pending = false → s.expires.isSome ∧
    g.wire.latest? device = some ⟨device, s.categories, g.leaseSeconds s.lease⟩

/-- Whether all subscriptions are, with leases as they may be. -/
structure Booked (may : Lease → Prop) (g : Graph α) : Prop where
  entries : ∀ {device s}, g.subscription? device = some s → g.IsBooked device s ∧ may s.lease
  patterns : ∀ p ∈ g.patterns, may p.lease

theorem IsBooked.congr (booked : g.IsBooked device s)
    (requests : h.wire.requests = g.wire.requests) (config : h.config = g.config) :
    h.IsBooked device s := by
  have latest : h.wire.latest? device = g.wire.latest? device := by
    rw [Wire.latest?, Wire.latest?, requests]
  have seconds : h.leaseSeconds s.lease = g.leaseSeconds s.lease := by
    cases lease : s.lease <;> simp [leaseSeconds, config]
  exact ⟨booked.own, fun taken => by rw [latest, seconds]; exact booked.asked taken⟩

theorem Booked.sameBook (booked : g.Booked may) (same : g.SameBook h) : h.Booked may :=
  ⟨fun held => (booked.entries (same.subscription? _ ▸ held)).imp_left
    (·.congr same.requests same.config), same.patterns ▸ booked.patterns⟩

/-! ## Requests -/

/-- A request leaves those for other devices as they were. -/
theorem isBooked_request_of_ne (other : s.device ≠ device) (booked : g.IsBooked device t) :
    (g.request s).1.IsBooked device t := by
  rcases g.request_cases s with ⟨expires, taken⟩ | ⟨failingSends, refused⟩
  · rw [taken]
    refine ⟨booked.own, fun asked => ?_⟩
    rw [Wire.latest?_push, if_neg other]
    exact booked.asked asked
  · rw [refused]
    exact booked.congr rfl rfl

theorem isBooked_request (g : Graph α) (s : Subscription) :
    (g.request s).1.IsBooked s.device (g.request s).2 := by
  rcases g.request_cases s with ⟨expires, taken⟩ | ⟨failingSends, refused⟩
  · rw [taken]
    exact ⟨rfl, fun _ => ⟨rfl, (Wire.latest?_push ..).trans (if_pos rfl)⟩⟩
  · rw [refused]
    exact ⟨rfl, fun taken => by cases taken⟩

/-! ## Changes -/

theorem Booked.ask (booked : g.Booked may) (own : s.device = device) (granted : may s.lease) :
    (g.ask device s).Booked may := by
  subst own
  refine ⟨fun {other t} held => ?_, (g.patterns_ask _ s).symm ▸ booked.patterns⟩
  rw [subscription?_ask] at held
  split at held
  · rename_i own
    obtain ⟨-, -, _, _, same⟩ := g.request_spec s
    have lease : (g.request s).2.lease = s.lease := by rw [same]
    obtain rfl := Option.some.inj held
    exact ⟨own ▸ (isBooked_request g s).congr rfl rfl, lease ▸ granted⟩
  · rename_i other
    exact (booked.entries held).imp_left fun kept =>
      (isBooked_request_of_ne other kept).congr rfl rfl

theorem Booked.seek (booked : g.Booked may) (device : ObjectId) :
    (g.autosubscribe device).Booked may := by
  simp only [autosubscribe]
  split
  · exact booked
  · split
    · rename_i p found
      exact booked.ask rfl (booked.patterns p (List.mem_of_find?_eq_some found))
    · exact booked

theorem Booked.drop (booked : g.Booked may) (device : ObjectId) :
    (g.dropSubscription device).Booked may := by
  refine ⟨fun {other s} held => ?_, booked.patterns⟩
  rw [subscription?_dropSubscription] at held
  split at held
  · cases held
  · exact (booked.entries held).imp_left (·.congr rfl rfl)

/-- What is asked for to end a subscription is the last request for a device without one. -/
theorem Booked.cancel (booked : g.Booked may) (device : ObjectId) :
    (g.unsubscribeDevice device).Booked may := by
  simp only [unsubscribeDevice]
  split
  · exact booked
  · rename_i s _
    have dropped := booked.drop device
    refine ⟨fun {other t} held => ?_, dropped.patterns⟩
    have held : (g.dropSubscription device).subscription? other = some t := held
    have different : device ≠ other := by
      rintro rfl
      simp [subscription?_dropSubscription] at held
    refine (dropped.entries held).imp_left fun kept => ⟨kept.own, fun asked => ?_⟩
    have latest : ((g.dropSubscription device).wire.request ⟨device, s.categories, 0⟩).2.latest?
        other = (g.dropSubscription device).wire.latest? other := by
      rcases (g.dropSubscription device).wire.request_cases ⟨device, s.categories, 0⟩ with
        taken | ⟨failingSends, refused⟩
      · rw [taken, Wire.latest?_push, if_neg different]
      · rw [refused]
        rfl
    exact latest ▸ kept.asked asked

theorem Booked.renew (booked : g.Booked may) (device : ObjectId) :
    (g.renewDevice device).Booked may := by
  rcases g.renewDevice_cases device with stays | lapsed | ⟨s, held, again⟩
  · exact stays.symm ▸ booked
  · exact lapsed.symm ▸ booked.drop device
  · obtain ⟨kept, granted⟩ := booked.entries held
    exact again.symm ▸ booked.ask kept.own granted

theorem Booked.does {e : SubscriptionChange} (booked : g.Booked may) (granted : e.Grants may)
    (does : e.Does g h) : h.Booked may := by
  obtain ⟨k, same, rfl⟩ := does.book
  replace booked := booked.sameBook same
  cases e with
  | keep said => exact booked
  | tell => exact booked
  | seek device how => exact booked.seek device
  | enter device categories lease pattern => exact booked.ask rfl granted
  | cancel device => exact booked.cancel device
  | drop device => exact booked.drop device
  | renew device => exact booked.renew device
  | addPattern p =>
      refine ⟨fun held => (booked.entries held).imp_left (·.congr rfl rfl), fun q member => ?_⟩
      rcases List.mem_append.mp member with before | last
      · exact booked.patterns q (List.mem_of_mem_filter before)
      · exact List.mem_singleton.mp last ▸ granted
  | dropPattern glob =>
      exact ⟨fun held => (booked.entries held).imp_left (·.congr rfl rfl),
        fun q member => booked.patterns q (List.mem_of_mem_filter member)⟩

/-! ## Runs -/

/-- Whatever happens to a graph is a chain of changes to its subscriptions. -/
theorem Run.tends {law : Law α} {said : List Notification} (run : Run law g said h)
    (granted : ∀ {g target categories lease}, law g (.call (.subscribe target categories lease)) →
      lease ≠ .cancel → may lease) : Tends (SubscriptionChange.Grants may) g h := by
  refine run.heeds (P := Tends (SubscriptionChange.Grants may) g) (fun upkeep sofar => ?_) ?_ (.refl g)
  · exact sofar.trans (upkeep.mono fun e kept => (SubscriptionChange.IsUpkeep.isOwn e kept).grants)
  · intro k input allowed sofar
    refine sofar.trans ?_
    rcases k.step_deals input with ⟨target, categories, lease, rfl⟩ | ⟨target, rfl⟩ | deals
    · exact subscribe_tends (granted allowed) k target categories
    · exact unsubscribe_tends k target
    · exact deals.tends.mono SubscriptionChange.IsOwn.grants

theorem Booked.make (renews : may .renewing) (wire : Wire) (config : Config) :
    (make wire config : Graph α).Booked may := by
  refine ⟨fun held => (by cases held), fun p member => ?_⟩
  simp only [Graph.make] at member
  split at member
  · cases member
  · exact List.mem_singleton.mp member ▸ renews

theorem leaseSeconds_eq_zero_iff {lease : Lease} (lasting : lease ≠ .cancel) :
    g.leaseSeconds lease = 0 ↔
      lease = .seconds 0 ∨ lease = .renewing ∧ g.config.autorenewIntervalSecs = 0 := by
  cases lease with
  | renewing => simp [leaseSeconds]
  | seconds n => simp [leaseSeconds]
  | cancel => exact absurd rfl lasting

/-- Whatever comes to a graph, and whichever of its requests fail: a subscription is kept under its
    device, with a lease that it may have. Unless it is pending it runs out some time, and the last
    request for the device that was taken is for what it says. That request is for no time at all,
    which cancels, only with a lease of no seconds, or a renewing one where the settings renew after
    none. -/
theorem last_request (law : Law α) (may : Lease → Prop) (wire : Wire) (config : Config)
    (renews : may .renewing) (lasting : ¬may .cancel)
    (granted : ∀ {g target categories lease}, law g (.call (.subscribe target categories lease)) →
      lease ≠ .cancel → may lease) :
    (∀ {said} {g : Graph α}, Run law (make wire config) said g →
        Tends (SubscriptionChange.Grants may) (make wire config) g) ∧
      ∀ {g : Graph α}, Tends (SubscriptionChange.Grants may) (make wire config) g →
        ∀ {device s}, g.subscription? device = some s → s.device = device ∧ may s.lease ∧
          (s.pending = false → s.expires.isSome ∧
            g.wire.latest? device = some ⟨device, s.categories, g.leaseSeconds s.lease⟩ ∧
            (g.leaseSeconds s.lease = 0 ↔ s.lease = .seconds 0 ∨
              s.lease = .renewing ∧ config.autorenewIntervalSecs = 0)) := by
  refine ⟨fun run => run.tends granted, fun {g} tends device s held => ?_⟩
  have booked : g.Booked may := tends.keeps (fun fits does kept => kept.does fits does)
    (.make renews wire config)
  obtain ⟨kept, allowed⟩ := booked.entries held
  refine ⟨kept.own, allowed, fun taken => ⟨(kept.asked taken).1, (kept.asked taken).2, ?_⟩⟩
  have config : g.config = config := tends.config
  exact config ▸ leaseSeconds_eq_zero_iff fun same => lasting (same ▸ allowed)

/-- A graph that subscribes to device 1 until told otherwise, and renews that from time to time. -/
def renewing (autorenewIntervalSecs : UInt32) : Graph Unit :=
  (make (.quiet ⟨0, 0⟩) { Config.standard with autorenewIntervalSecs }).call
    (.subscribe (.device ⟨1⟩) .signal .renewing)

/-- With the usual interval the device is asked for a lease of that length. -/
theorem renewing_asked : (renewing 60).wire.latest? ⟨1⟩ = some ⟨⟨1⟩, .signal, 60⟩ := by
  obtain ⟨changes, booked⟩ := last_request (Law.any Unit) (· ≠ .cancel) (.quiet ⟨0, 0⟩)
    { Config.standard with autorenewIntervalSecs := 60 } (by decide) (by decide)
    fun _ lasting => lasting
  have tends := changes ((Run.refl _).call
    (.subscribe (.device ⟨1⟩) .signal .renewing) trivial)
  have held : (renewing 60).subscription? ⟨1⟩ =
      some ⟨⟨1⟩, .signal, .renewing, some ⟨60, 0⟩, false, none⟩ := by decide +kernel
  exact ((booked tends held).2.2 rfl).2.1

/-- With an interval of no time, the subscription is in force although the last request for it
    cancels it. -/
theorem renewing_cancelled :
    Reachable { Config.standard with autorenewIntervalSecs := 0 } (renewing 0) ∧
      ((renewing 0).subscription? ⟨1⟩).map Subscription.pending = some false ∧
      (renewing 0).wire.latest? ⟨1⟩ = some ⟨⟨1⟩, .signal, 0⟩ :=
  ⟨.call (.make _ _) _, by decide +kernel, by decide +kernel⟩

end Graph

end SignalGraph
