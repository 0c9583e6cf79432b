import SignalGraph.Proofs.Coverage

/-! # Subscriptions that are over

A device without a subscription is not subscribed to again unless someone subscribes to it, it gets a
new record, or its record changes, in whatever way, while a registered pattern covers its name. So
where a pattern covers a device, to unsubscribe from it lasts until the next change of its record.
-/

namespace SignalGraph

/-- Whether a change does not subscribe to a device. -/
def SubscriptionChange.Forgoes (device : ObjectId) : SubscriptionChange → Prop
  | seek other _ | enter other _ _ _ => other ≠ device
  | _ => True

/-- Whether a subscription is in force for a time that is over. -/
structure Subscription.IsLapsed (s : Subscription) (now : Timetag) : Prop where
  taken : s.pending = false
  timed : ∃ n, s.lease = .seconds n
  ended : ∃ expires, s.expires = some expires ∧ expires ≤ now

theorem SubscriptionChange.forgoes_of_isUpkeep {device : ObjectId} :
    (e : SubscriptionChange) → e.IsUpkeep → e.Forgoes device
  | .keep _, _ | .tell, _ | .drop _, _ | .renew _, _ => trivial

/-- What new records are made of is said, so that one of which nothing is said is not subscribed
    to. -/
theorem SubscriptionChanges.forgoes {α : Type} {g h : Graph α} {said : List Notification}
    {device : ObjectId}
    (changes : SubscriptionChanges SubscriptionChange.IsFounding g said h)
    (unsaid : .record device .added ∉ said) :
    SubscriptionChanges (SubscriptionChange.Forgoes device) g said h := by
  induction changes with
  | done g => exact .done g
  | @next e g h k more fits does _ ih =>
      obtain ⟨first, later⟩ := not_or.mp (List.mem_append.not.mp unsaid)
      refine .next ?_ does (ih later)
      cases e with
      | keep said => trivial
      | seek other how =>
          obtain rfl : how = .added := fits
          rintro rfl
          exact first (List.mem_singleton_self _)
      | _ => exact fits.elim

namespace Graph

variable {α σ : Type} {g h : Graph α} {device : ObjectId} {delta : Delta} {r : Record}

def name? (g : Graph α) (id : ObjectId) : Option String := (g.store.find? id).bind Record.name?

/-- Whether a registered pattern covers a device by the name it has now. -/
def IsCovered (g : Graph α) (device : ObjectId) : Prop :=
  ∃ p ∈ g.patterns, covers p (g.name? device)

/-! ## Changes -/

theorem isSome_autosubscribe (g : Graph α) (device : ObjectId) :
    ((g.autosubscribe device).subscription? device).isSome ↔
      (g.subscription? device).isSome ∨ g.IsCovered device := by
  simp only [autosubscribe]
  split
  · rename_i there
    simp [there]
  · rename_i absent
    simp only [absent, Bool.false_eq_true, false_or, IsCovered, name?]
    split
    · rename_i p found
      refine iff_of_true ?_ ⟨p, List.mem_of_find?_eq_some found, by simpa using List.find?_some found⟩
      rw [subscribeDevice_eq, subscription?_ask, if_pos rfl]
      rfl
    · rename_i none
      refine iff_of_false absent ?_
      rintro ⟨p, member, covered⟩
      exact List.find?_eq_none.mp none p member covered

theorem autosubscribe_of_ne {other : ObjectId} (apart : other ≠ device) (g : Graph α) :
    (g.autosubscribe other).subscription? device = g.subscription? device := by
  simp only [autosubscribe]
  split
  · rfl
  · split
    · rw [subscribeDevice_eq, subscription?_ask, if_neg apart]
    · rfl

theorem isCovered_autosubscribe (g : Graph α) (other : ObjectId) :
    (g.autosubscribe other).IsCovered device ↔ g.IsCovered device := by
  have patterns : (g.autosubscribe other).patterns = g.patterns := by
    simp only [autosubscribe]
    split
    · rfl
    · split
      · exact g.patterns_ask _ _
      · rfl
  rw [IsCovered, IsCovered, name?, name?, patterns, (autosubscribe_quiet g other).store]

theorem renewDevice_of_ne {other : ObjectId} (apart : other ≠ device) (g : Graph α) :
    (g.renewDevice other).subscription? device = g.subscription? device := by
  rcases g.renewDevice_cases other with stays | lapsed | ⟨s, -, again⟩
  · rw [stays]
  · rw [lapsed, subscription?_dropSubscription, if_neg apart]
  · rw [again, subscription?_ask, if_neg apart]

theorem renewDevice_absent (absent : g.subscription? device = none) (other : ObjectId) :
    (g.renewDevice other).subscription? device = none := by
  by_cases same : other = device
  · subst same
    simp only [renewDevice, absent]
  · exact (renewDevice_of_ne same g).trans absent

theorem absent_of_does {e : SubscriptionChange} (does : e.Does g h) (forgoes : e.Forgoes device)
    (absent : g.subscription? device = none) : h.subscription? device = none := by
  obtain ⟨k, same, rfl⟩ := does.book
  have absent : k.subscription? device = none := (same.subscription? device).trans absent
  cases e with
  | keep said => exact absent
  | tell => exact absent
  | seek other how => exact (autosubscribe_of_ne forgoes k).trans absent
  | enter other categories lease pattern =>
      exact (k.subscription?_ask ..).trans ((if_neg forgoes).trans absent)
  | cancel other =>
      exact (k.subscription?_unsubscribeDevice other device).trans (by split <;> trivial)
  | drop other => exact (k.subscription?_dropSubscription other device).trans (by split <;> trivial)
  | renew other => exact renewDevice_absent absent other
  | addPattern p => exact absent
  | dropPattern glob => exact absent

theorem Tends.absent (tends : Tends (SubscriptionChange.Forgoes device) g h)
    (absent : g.subscription? device = none) : h.subscription? device = none :=
  tends.keeps (fun forgoes does => absent_of_does does forgoes) absent

/-! ## Merges -/

/-- A merge subscribes to the device that it changes if a pattern covers the name that it has
    then. -/
theorem isSome_afterMerge (g : Graph α) (r : Record) (delta : Delta) (device : ObjectId) :
    ((g.afterMerge r delta).subscription? device).isSome ↔ (g.subscription? device).isSome ∨
      (g.mergedRecord r delta).2 ∧ delta.kind = .device ∧ delta.id = device ∧
        (g.afterMerge r delta).IsCovered device := by
  have merged := (merged_tends g r delta).beside.sameBook
  simp only [afterMerge]
  split
  · rename_i changed
    have noted : g.SameBook ((((g.withMerged r delta).touchOwner delta.id).modify delta.id
        ({ · with status := .modified })).notify delta.id .modified) :=
      merged.trans ⟨rfl, rfl, rfl, rfl⟩
    simp only [noteChange]
    split
    · rename_i kind
      by_cases own : delta.id = device
      · subst own
        rw [isSome_autosubscribe, isCovered_autosubscribe, noted.subscription?]
        simp [changed, kind]
      · rw [autosubscribe_of_ne own, noted.subscription?]
        simp [own]
    · rename_i other
      simp [noted.subscription?, other]
  · rename_i unchanged
    simp [merged.subscription?, unchanged]

/-! ## Steps -/

theorem Deals.absent (deals : Deals g h) (begun : .record device .added ∉ g.news h)
    (changed : .record device .modified ∈ g.news h → ¬h.IsCovered device)
    (absent : g.subscription? device = none) : h.subscription? device = none := by
  cases deals with
  | samples samples =>
      exact (samples.tends.mono fun e beside =>
        SubscriptionChange.forgoes_of_isUpkeep e
          (SubscriptionChange.IsBeside.isUpkeep e beside)).absent absent
  | ending how terminal id =>
      exact ((remove_tends g id how).mono fun e ending =>
        SubscriptionChange.forgoes_of_isUpkeep e
          (SubscriptionChange.IsEnding.isUpkeep e ending)).absent absent
  | founding tends =>
      obtain ⟨said, changes⟩ := tends
      have untold : ∀ e : SubscriptionChange, e.IsFounding → e ≠ .tell := by
        rintro e fits rfl
        exact fits
      rw [news, changes.notifications untold, List.drop_left] at begun
      exact Tends.absent ⟨said, changes.forgoes begun⟩ absent
  | @merge delta r held live kind =>
      rw [← Option.not_isSome_iff_eq_none, isSome_afterMerge]
      rintro (there | ⟨some, -, rfl, covered⟩)
      · simp [absent] at there
      · refine changed ?_ covered
        rw [news, notifications_afterMerge, if_pos some, List.drop_left]
        exact List.mem_singleton_self _

/-- Whether what comes neither subscribes to a device, nor makes a new record for it, nor changes the
    record while a pattern covers its name. -/
structure Spares (device : ObjectId) (g : Graph α) (input : Input α) : Prop where
  direct : ∀ categories lease, input = .call (.subscribe (.device device) categories lease) →
    lease = .cancel
  pattern : ∀ glob categories lease, input = .call (.subscribe (.pattern glob) categories lease) →
    device ∈ g.matching glob → lease = .cancel
  begun : .record device .added ∉ g.news (g.step input)
  changed : .record device .modified ∈ g.news (g.step input) → ¬(g.step input).IsCovered device

theorem unsubscribe_absent (absent : g.subscription? device = none) (target : SubscriptionTarget) :
    (g.unsubscribe target).subscription? device = none := by
  cases target with
  | device id =>
      refine (g.subscription?_unsubscribeDevice id device).trans ?_
      split
      · rfl
      · exact absent
  | pattern glob =>
      refine ((cancelAll_spec _ (g.dropPattern glob)).2 device).trans ?_
      split
      · rfl
      · exact absent

theorem Spares.step {input : Input α} (spares : Spares device g input)
    (absent : g.subscription? device = none) : (g.step input).subscription? device = none := by
  rcases g.step_deals input with ⟨target, categories, lease, rfl⟩ | ⟨target, rfl⟩ | deals
  · by_cases lasting : lease = .cancel
    · have same : g.subscribe target categories lease = g.unsubscribe target := if_pos lasting
      exact (congrArg (subscription? · device) same).trans (unsubscribe_absent absent target)
    · cases target with
      | device id =>
          have apart : id ≠ device := by
            rintro rfl
            exact lasting (spares.direct categories lease rfl)
          have same : g.subscribe (.device id) categories lease =
              g.subscribeDevice id categories lease none := if_neg lasting
          refine (congrArg (subscription? · device) same).trans ?_
          exact (g.subscription?_ask ..).trans ((if_neg apart).trans absent)
      | pattern glob =>
          have missed : device ∉ g.matching glob := fun member =>
            lasting (spares.pattern glob categories lease rfl member)
          have same := subscribe_pattern_eq lasting g glob categories
          refine (congrArg (subscription? · device) same).trans ?_
          exact ((enterAll_spec _ _ _).2 device).1 missed |>.trans absent
  · exact unsubscribe_absent absent target
  · exact deals.absent spares.begun spares.changed absent

/-! ## Leases that lapse -/

/-- The graph of a poll before it looks over leases. -/
def beforeRenewal (g : Graph α) : Graph α :=
  (g.beginPoll.drain (g.wire.inbox.length + 1)).1.expireDevices

theorem renewAll_absent (devices : List ObjectId) (absent : g.subscription? device = none) :
    (devices.foldl renewDevice g).subscription? device = none :=
  List.foldlRecOn devices renewDevice (motive := fun h : Graph α => h.subscription? device = none)
    absent fun _ absent other _ => renewDevice_absent absent other

theorem renewDevice_of_lapsed {s : Subscription} (held : g.subscription? device = some s)
    (lapsed : s.IsLapsed g.now) : g.renewDevice device = g.dropSubscription device := by
  obtain ⟨n, timed⟩ := lapsed.timed
  obtain ⟨expires, ends, ended⟩ := lapsed.ended
  simp [renewDevice, held, renewOne, lapsed.taken, timed, ends, ended]

theorem renewAll_lapsed {s : Subscription} (devices : List ObjectId) (member : device ∈ devices)
    (held : g.subscription? device = some s) (lapsed : s.IsLapsed g.now) :
    (devices.foldl renewDevice g).subscription? device = none := by
  induction devices generalizing g with
  | nil => cases member
  | cons first devices ih =>
      by_cases here : first = device
      · subst here
        have absent : (g.dropSubscription first).subscription? first = none :=
          (g.subscription?_dropSubscription first first).trans (if_pos rfl)
        rw [List.foldl_cons, renewDevice_of_lapsed held lapsed]
        exact renewAll_absent devices absent
      · have same := renewDevice_of_ne here g
        have now : (g.renewDevice first).now = g.now := (renewDevice_aside g first).now
        exact ih ((List.mem_cons.mp member).resolve_left fun same => here same.symm)
          (same.trans held) (now ▸ lapsed)

/-! ## What comes and goes -/

/-- Nothing but an announcement or an update makes a record or changes one. -/
theorem spares_event {event : NetworkEvent}
    (other : ∀ delta, event ≠ .record .announce delta ∧ event ≠ .record .update delta) :
    Spares device g (.event event) := by
  have unsaid (how : Lifecycle) (mild : how = .added ∨ how = .modified) :
      .record device how ∉ g.news (g.handle event) := by
    cases event with
    | value update => exact unsaid_of_beside (applyValue_samples update g).tends device how
    | sync id => exact unsaid_of_beside (modify_tends g id _).beside device how
    | record type delta =>
        cases type with
        | announce => exact absurd rfl (other delta).1
        | update => exact absurd rfl (other delta).2
        | remove =>
            intro said
            obtain ⟨_, same⟩ := said_of_ending (remove_tends g delta.id .removed) _ said
            cases same
            simp at mild
        | expire =>
            intro said
            obtain ⟨_, same⟩ := said_of_ending (remove_tends g delta.id .expired) _ said
            cases same
            simp at mild
  refine ⟨?_, ?_, unsaid .added (.inl rfl), fun said => absurd said (unsaid .modified (.inr rfl))⟩
  · intro categories lease same
    cases same
  · intro glob categories lease same
    cases same

/-- A device that changes is subscribed to afterwards just if it was before, or some pattern covers
    the name that it has then. -/
theorem isSome_upsert (held : g.store.find? delta.id = some r) (live : r.isLive)
    (kind : r.kind = .device) (same : delta.kind = .device)
    (restates : delta.diff.changes.forM r.checkRelation = .ok ()) :
    (((upsert delta).after g).subscription? delta.id).isSome ↔
      (g.subscription? delta.id).isSome ∨
        (g.mergedRecord r delta).2 ∧ ((upsert delta).after g).IsCovered delta.id := by
  have merges : (upsert delta).after g = g.afterMerge r delta := by
    rw [Attempt.after, upsert_of_live held live (kind.trans same.symm), restates]
  rw [merges, isSome_afterMerge]
  simp [same]

/-- A device is not subscribed to once it is unsubscribed from, or a subscription for a time has
    lapsed and a poll has looked over leases. So it stays, whatever happens, until someone subscribes
    to it, it gets a new record, or its record changes while a pattern covers its name. A record that
    changes is subscribed to then, whether or not the name has changed; values, signs of life and what
    goes never are. -/
theorem ended_stays (g : Graph α) (device : ObjectId) :
    (g.unsubscribe (.device device)).subscription? device = none ∧
      (∀ s, g.beforeRenewal.subscription? device = some s → s.IsLapsed g.beforeRenewal.now →
        ∀ {σ : Type} (host : Host α σ) (x : σ),
          (g.toldAndEvicted host x).subscription? device = none) ∧
      (g.subscription? device = none → ∀ {said h}, Run (Spares device) g said h →
        h.subscription? device = none) ∧
      (∀ event, (∀ delta, event ≠ .record .announce delta ∧ event ≠ .record .update delta) →
        Spares device g (.event event)) ∧
      ∀ type ∈ [EventType.announce, .update], ∀ {delta r}, g.store.find? delta.id = some r →
        r.isLive → r.kind = .device → delta.kind = .device →
        delta.diff.changes.forM r.checkRelation = .ok () →
        ((((applyEvent type delta).after g).subscription? delta.id).isSome ↔
          (g.subscription? delta.id).isSome ∨
            (g.mergedRecord r delta).2 ∧ ((applyEvent type delta).after g).IsCovered delta.id) := by
  refine ⟨?_, fun s held lapsed σ host x => ?_, fun absent said h run => ?_, fun _ => spares_event, ?_⟩
  · exact (g.subscription?_unsubscribeDevice device device).trans (if_pos rfl)
  · have member : device ∈ g.beforeRenewal.subscribers :=
      mem_subscribers_iff.mpr (Option.isSome_of_mem held)
    have renewed : g.intake.subscription? device = none := by
      have same : g.intake = g.beforeRenewal.renewSubscriptions := rfl
      rw [same, renewSubscriptions_eq]
      exact renewAll_lapsed _ member held lapsed
    exact ((toldAndEvicted_sameBook host x g).subscription? device).trans renewed
  · refine run.heeds (P := fun h => h.subscription? device = none) (fun upkeep absent => ?_)
      (fun spares absent => spares.step absent) absent
    exact (upkeep.mono SubscriptionChange.forgoes_of_isUpkeep).absent absent
  · intro type member delta r held live kind same restates
    have upserts : applyEvent type delta = upsert (α := α) delta := by
      rcases List.mem_pair.mp member with rfl | rfl <;> rfl
    rw [upserts]
    exact isSome_upsert held live kind same restates

/-- A graph that has subscribed to a pattern for the name of device 1, and then unsubscribed from the
    device. -/
def unfollowed : Graph Unit :=
  ((heardOfName .standard).call (.subscribe (.pattern "synth") .signal .renewing)).call
    (.unsubscribe (.device ⟨1⟩))

theorem unfollowed_stays :
    (unfollowed.call (.subscribe (.device ⟨2⟩) .signal .renewing)).subscription? ⟨1⟩ = none := by
  have spares : Spares ⟨1⟩ unfollowed
      (.call (.subscribe (.device ⟨2⟩) .signal .renewing)) := by
    refine ⟨fun _ _ same => ?_, fun _ _ _ same => ?_, by decide +kernel, fun said => ?_⟩
    · cases same
    · cases same
    · exact absurd said (by decide +kernel)
  obtain ⟨-, -, stays, -⟩ := ended_stays unfollowed ⟨1⟩
  exact stays (by decide +kernel) ((Run.refl _).call _ spares)

/-- The color of device 1 changes, and it is subscribed to again. -/
theorem unfollowed_returns :
    let recolored := unfollowed.call (.apply .update
      ((Delta.empty .device ⟨1⟩).set (.named "color") (.ofString "red")))
    Reachable .standard unfollowed ∧ unfollowed.subscription? ⟨1⟩ = none ∧
      unfollowed.name? ⟨1⟩ = some "synth" ∧ recolored.name? ⟨1⟩ = some "synth" ∧
      .record ⟨1⟩ .added ∉ unfollowed.news recolored ∧
      (recolored.subscription? ⟨1⟩).map (fun s => (s.lease, s.pattern)) =
        some (.renewing, some "synth") := by
  intro recolored
  refine ⟨.call (.call (heardOfName_reachable _) _) _, ?_, ?_, ?_, ?_, ?_⟩ <;> decide +kernel

end Graph

end SignalGraph
