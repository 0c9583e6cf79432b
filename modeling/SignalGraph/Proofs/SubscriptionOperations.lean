import SignalGraph.Proofs.Polling
import SignalGraph.Proofs.StepRelations
import SignalGraph.Proofs.SubscriptionChanges

/-! # Operations as chains of changes to subscriptions

What each operation does to the subscriptions of a graph, as a chain of elementary changes. Calls
and polls are such chains, so that what changes keep, runs keep.
-/

namespace SignalGraph.Graph

variable {α σ : Type} {sort : SubscriptionChange → Prop} {g h k : Graph α} {delta : Delta}

/-! ## In silence -/

theorem Tends.beside (tends : Tends SubscriptionChange.IsSilent g h) :
    Tends SubscriptionChange.IsBeside g h :=
  tends.mono SubscriptionChange.IsSilent.isBeside

theorem Tends.notifications (tends : Tends SubscriptionChange.IsSilent g h) :
    h.notifications = g.notifications := by
  obtain ⟨said, changes⟩ := tends
  have silent : ∀ note ∈ said, False := changes.tells fun e silent note member => by
    cases e with
    | keep said => exact List.not_mem_nil (silent ▸ member)
    | _ => exact silent
  have none : said = [] := List.eq_nil_iff_forall_not_mem.mpr silent
  rw [changes.notifications (by rintro e silent rfl; exact silent), none, List.append_nil]

theorem Tends.news_eq_nil (tends : Tends SubscriptionChange.IsSilent g h) : g.news h = [] := by
  rw [news, tends.notifications, List.drop_length]

theorem modify_tends (g : Graph α) (id : ObjectId) (f : Record → Record) :
    Tends SubscriptionChange.IsSilent g (g.modify id f) :=
  SameBook.silent ⟨rfl, rfl, rfl, rfl⟩ rfl rfl

theorem touchOwner_tends (g : Graph α) (signal : ObjectId) :
    Tends SubscriptionChange.IsSilent g (g.touchOwner signal) :=
  touchOwner_walks (fun g id => modify_tends g id _) g signal

theorem withPool_tends {β : Type} (signal : ObjectId) (x : Record → Attempt Pool β) :
    Attempt.Walks (Tends SubscriptionChange.IsSilent) (withPool (α := α) signal x) :=
  withPool_walks (fun g _ => modify_tends g signal _) x

theorem editSlot_tends {β : Type} (map : ObjectId) (location : SlotLocation)
    (x : Attempt Table β) :
    Attempt.Walks (Tends SubscriptionChange.IsSilent) (editSlot (α := α) map location x) :=
  editSlot_walks (fun g _ => modify_tends g map _) x

theorem editProperties_tends {β : Type} (id : ObjectId) (x : Attempt Table β) :
    Attempt.Walks (Tends SubscriptionChange.IsSilent) (editProperties (α := α) id x) :=
  editProperties_walks fun g => modify_tends g id _

theorem send_tends (dest : Destination) (delta : Delta) :
    Attempt.Walks (Tends SubscriptionChange.IsSilent) (send (α := α) dest delta) := by
  intro g
  simp only [Attempt.after, send, Wire.send, Wire.takeFailure]
  cases g.wire.failingSends <;> exact SameBook.silent ⟨rfl, rfl, rfl, rfl⟩ rfl rfl

theorem push_tends (id : ObjectId) :
    Attempt.Walks (Tends SubscriptionChange.IsSilent) (push (α := α) id) :=
  push_walks send_tends fun g => modify_tends g id _

/-! ## Kinds -/

/-- The kind of the record that there is of an object. -/
def kind? (g : Graph α) (id : ObjectId) : Option ObjectKind := (g.store.find? id).map Record.kind

/-- Where no record begins, there is one of the same kind as before, or there is still none. -/
theorem kind?_of_goes (goes : Goes g h) {id : ObjectId} (unsaid : .record id .added ∉ g.news h) :
    h.kind? id = g.kind? id := by
  cases later : h.store.find? id with
  | none =>
      have absent : g.store.find? id = none := by
        by_contra there
        have held := goes.holds (Option.isSome_iff_ne_none.mpr there)
        simp [later] at held
      rw [kind?, kind?, later, absent]
  | some r =>
      have silent : .added ∉ words ((heard id (g.news h)).map .queued) := by
        rw [words_queued]
        exact fun member => unsaid (mem_heard_iff.mp member)
      obtain ⟨x, before, continues⟩ := (goes.changes.shifts id).continues silent (standing_life later)
      obtain ⟨r', earlier, rfl⟩ := Option.map_eq_some_iff.mp before
      rw [kind?, kind?, later, earlier, Option.map_some, Option.map_some, ← r.frame_kind,
        ← r'.frame_kind]
      exact congrArg (some ∘ Ties.kind) continues.ties

/-! ## Values of signals -/

/-- What values do: to tell of instances is all that is said, and those are of a signal. -/
inductive Samples (g : Graph α) : Graph α → Prop
  | silent {h : Graph α} (tends : Tends SubscriptionChange.IsSilent g h) : Samples g h
  | told {h : Graph α} {signal : ObjectId} (tends : Tends SubscriptionChange.IsSilent g h)
      (kind : h.kind? signal = some .signal) (events : List PoolEvent) :
      Samples g (h.notifyPool signal events)

theorem notifyPool_tends (g : Graph α) (signal : ObjectId) (events : List PoolEvent) :
    Tends SubscriptionChange.IsBeside g (g.notifyPool signal events) := by
  refine SameBook.tends ⟨rfl, rfl, rfl, rfl⟩ (events.map (.pool signal)) ?_ rfl
  intro note member
  obtain ⟨event, -, rfl⟩ := List.mem_map.mp member
  rfl

theorem Samples.tends (samples : Samples g h) : Tends SubscriptionChange.IsBeside g h := by
  cases samples with
  | silent tends => exact tends.beside
  | told tends kind events => exact tends.beside.trans (notifyPool_tends _ _ events)

theorem unsaid_of_beside (tends : Tends SubscriptionChange.IsBeside g h) (id : ObjectId)
    (how : Lifecycle) :
    .record id how ∉ g.news h := by
  refine fun member => Bool.false_ne_true (tends.tells (Q := (·.isOfPool)) ?_ ?_ _ member)
  · rintro e fits rfl
    exact fits
  · intro e fits
    cases e with
    | keep said => exact fits
    | _ => exact fits.elim

theorem Samples.pool (samples : Samples g h) {signal : ObjectId} {event : PoolEvent}
    (said : .pool signal event ∈ g.news h) : h.kind? signal = some .signal := by
  cases samples with
  | silent tends => exact absurd (tends.news_eq_nil ▸ said) List.not_mem_nil
  | @told h other tends kind events =>
      rw [news, notifyPool, tends.notifications, List.drop_left] at said
      obtain ⟨_, -, same⟩ := List.mem_map.mp said
      exact (Notification.pool.inj same).1 ▸ kind

theorem kind?_of_silent (goes : Goes g h) (silent : Tends SubscriptionChange.IsSilent g h)
    {id : ObjectId} {kind : ObjectKind} (held : g.kind? id = some kind) : h.kind? id = some kind :=
  (kind?_of_goes goes (silent.news_eq_nil ▸ List.not_mem_nil)).trans held

/-- Work on instances is done on those of a signal. -/
theorem kind?_of_withPool {β : Type} {signal : ObjectId} {x : Record → Attempt Pool β} {b : β}
    (done : withPool signal x g = .ok b h) :
    Tends SubscriptionChange.IsSilent g h ∧ h.kind? signal = some .signal := by
  have silent := withPool_tends signal x g
  have goes := withPool_goes signal x g
  simp only [Attempt.after, done] at silent goes
  refine ⟨silent, kind?_of_silent goes silent ?_⟩
  simp only [withPool, Attempt.bind_apply, Attempt.current_apply] at done
  cases live : g.store.getLive signal .signal with
  | error e => simp [live] at done
  | ok r =>
      obtain ⟨held, kind, -⟩ := Store.getLive_eq_ok_iff.mp live
      rw [kind?, held, Option.map_some, kind]

theorem withPool_refused {β : Type} {signal : ObjectId} {x : Record → Attempt Pool β} {e : Error}
    (refused : withPool signal x g = .error e h) : Tends SubscriptionChange.IsSilent g h := by
  simpa only [Attempt.after, refused] using withPool_tends signal x g

theorem withPoolEvents_samples (signal : ObjectId) (x : Record → Attempt Pool (List PoolEvent))
    (g : Graph α) : Samples g ((withPoolEvents signal x).after g) := by
  simp only [withPoolEvents, Attempt.after_bind]
  cases done : withPool signal x g with
  | error e h => exact .silent (withPool_refused done)
  | ok events h =>
      obtain ⟨silent, kind⟩ := kind?_of_withPool done
      exact .told silent kind events

theorem applyValue_samples (u : ValueUpdate) (g : Graph α) :
    Samples g ((applyValue u).after g) := by
  simp only [applyValue, Attempt.after_bind]
  split
  · rename_i events h done
    obtain ⟨silent, kind⟩ := kind?_of_withPool done
    cases events with
    | none => exact .silent silent
    | some events =>
        have touched := touchOwner_tends h u.signal
        exact .told (silent.trans touched)
          (kind?_of_silent (touchOwner_goes h u.signal) touched kind) events
  · rename_i refused
    exact .silent (withPool_refused refused)

/-! ## New records -/

theorem insert_tends (g : Graph α) (r : Record) :
    Tends SubscriptionChange.IsFounding g (g.insert r) :=
  SameBook.tends ⟨rfl, rfl, rfl, rfl⟩ [.record r.id .added]
    (fun _ member => ⟨r.id, List.mem_singleton.mp member⟩) rfl

theorem newMap_tends (sources : List ObjectId) (destination : ObjectId) :
    Attempt.Walks (Tends SubscriptionChange.IsFounding) (newMap (α := α) sources destination) :=
  newMap_walks
    (fun _ _ => SameBook.silent ⟨rfl, rfl, rfl, rfl⟩
      (fun _ none => absurd none List.not_mem_nil) rfl)
    insert_tends sources destination

theorem notifications_touchOwner (g : Graph α) (signal : ObjectId) :
    (g.touchOwner signal).notifications = g.notifications := by
  simp only [touchOwner]
  split <;> rfl

theorem establish_tends (g : Graph α) (delta : Delta) (wiring : Wiring) :
    Tends SubscriptionChange.IsFounding g (g.establish delta wiring) := by
  have id : (g.recordOf delta wiring).id = delta.id :=
    congrArg Standing.id (recordOf_standing g delta wiring)
  have founded : SameBook g (g.founded delta wiring) := ⟨rfl, rfl, rfl, rfl⟩
  have same := founded.trans (touchOwner_tends (g.founded delta wiring) delta.id).beside.sameBook
  have said : ((g.founded delta wiring).touchOwner delta.id).notifications =
      g.notifications ++ [.record delta.id .added] := by
    rw [notifications_touchOwner, ← id]
    rfl
  simp only [establish]
  split
  · have sought := (autosubscribe_quiet ((g.founded delta wiring).touchOwner delta.id)
      delta.id).notifications
    exact .one (e := .seek delta.id .added) rfl ⟨⟨_, same, rfl⟩, sought.trans said⟩
  · exact same.tends _ (fun _ member => ⟨delta.id, List.mem_singleton.mp member⟩) said

theorem create_tends (delta : Delta) :
    Attempt.Walks (Tends SubscriptionChange.IsFounding) (create (α := α) delta) :=
  create_walks establish_tends delta

/-! ## What comes -/

theorem noteChange_tends (g : Graph α) (delta : Delta) :
    Tends SubscriptionChange.IsMild g (g.noteChange delta) := by
  have noted : SameBook g ((g.modify delta.id ({ · with status := .modified })).notify delta.id
      .modified) := ⟨rfl, rfl, rfl, rfl⟩
  simp only [noteChange]
  split
  · exact .one (e := .seek delta.id .modified) trivial
      ⟨⟨_, noted, rfl⟩, (autosubscribe_quiet _ delta.id).notifications⟩
  · exact noted.tends _ trivial rfl

theorem merged_tends (g : Graph α) (r : Record) (delta : Delta) :
    Tends SubscriptionChange.IsSilent g ((g.withMerged r delta).touchOwner delta.id) :=
  (modify_tends g delta.id _).trans (touchOwner_tends _ delta.id)

theorem afterMerge_tends (g : Graph α) (r : Record) (delta : Delta) :
    Tends SubscriptionChange.IsMild g (g.afterMerge r delta) := by
  have merged : Tends SubscriptionChange.IsMild g ((g.withMerged r delta).touchOwner delta.id) :=
    (merged_tends g r delta).beside.mono SubscriptionChange.IsBeside.isMild
  simp only [afterMerge]
  split
  · exact merged.trans (noteChange_tends _ delta)
  · exact merged

theorem notifications_afterMerge (g : Graph α) (r : Record) (delta : Delta) :
    (g.afterMerge r delta).notifications = g.notifications ++
      if (g.mergedRecord r delta).2 then [.record delta.id .modified] else [] := by
  have merged := notifications_touchOwner (g.withMerged r delta) delta.id
  simp only [afterMerge]
  split
  · simp only [noteChange]
    split
    · rw [(autosubscribe_quiet _ delta.id).notifications]
      exact congrArg (· ++ _) merged
    · exact congrArg (· ++ _) merged
  · exact merged.trans (List.append_nil _).symm

theorem said_of_afterMerge {r : Record} (note : Notification)
    (said : note ∈ g.news (g.afterMerge r delta)) : note = .record delta.id .modified := by
  rw [news, notifications_afterMerge, List.drop_left] at said
  split at said
  · exact List.mem_singleton.mp said
  · exact absurd said List.not_mem_nil

theorem said_of_founding (tends : Tends SubscriptionChange.IsFounding g h) :
    ∀ note ∈ g.news h, ∃ id, note = .record id .added := by
  refine tends.tells ?_ fun e fits => ?_
  · rintro e fits rfl
    exact fits
  · cases e with
    | keep said => exact fits
    | seek device how => exact fun note said => ⟨device, fits ▸ List.mem_singleton.mp said⟩
    | _ => exact fits.elim

theorem said_of_ending {how : Lifecycle} (tends : Tends (SubscriptionChange.IsEnding how) g h) :
    ∀ note ∈ g.news h, ∃ id, note = .record id how := by
  refine tends.tells ?_ fun e fits => ?_
  · rintro e fits rfl
    exact fits
  · cases e with
    | keep said => exact fits
    | drop device => exact fun note none => absurd none List.not_mem_nil
    | _ => exact fits.elim

theorem remove_tends (g : Graph α) (id : ObjectId) (how : Lifecycle) :
    Tends (SubscriptionChange.IsEnding how) g (g.remove id how).1 := by
  refine removeWithin_walks .refl .trans (fun g id r _ _ => ?_) (fun g id => ?_) 3 g id
  · exact SameBook.tends ⟨rfl, rfl, rfl, rfl⟩ [.record id how]
      (fun _ member => ⟨id, List.mem_singleton.mp member⟩) rfl
  · exact .one (e := .drop id) trivial ⟨⟨g, .refl g, rfl⟩, (List.append_nil _).symm⟩

/-- What a graph does of itself with what comes: it takes values, ends an object with all that depends
    on it, makes new records, or merges a delta into one. -/
inductive Deals (g : Graph α) : Graph α → Prop
  | samples {h : Graph α} (samples : Samples g h) : Deals g h
  | ending (how : Lifecycle) (terminal : how.status.isTerminal) (id : ObjectId) :
      Deals g (g.remove id how).1
  | founding {h : Graph α} (tends : Tends SubscriptionChange.IsFounding g h) : Deals g h
  | merge {delta : Delta} {r : Record} (held : g.store.find? delta.id = some r) (live : r.isLive)
      (kind : r.kind = delta.kind) : Deals g (g.afterMerge r delta)

namespace Deals

theorem silent (tends : Tends SubscriptionChange.IsSilent g h) : Deals g h :=
  .samples (.silent tends)

theorem tends (deals : Deals g h) : Tends SubscriptionChange.IsOwn g h := by
  cases deals with
  | samples samples =>
      exact samples.tends.mono fun e beside => (SubscriptionChange.IsBeside.isUpkeep e beside).isOwn
  | ending how terminal id =>
      exact (remove_tends g id how).mono fun e ending =>
        (SubscriptionChange.IsEnding.isUpkeep e ending).isOwn
  | founding tends =>
      exact tends.mono fun e founding => (SubscriptionChange.IsFounding.isMild e founding).isOwn
  | merge held live kind => exact (afterMerge_tends g _ _).mono SubscriptionChange.IsMild.isOwn

/-- What is said of instances is said of those of a signal. -/
theorem pool (deals : Deals g h) {signal : ObjectId} {event : PoolEvent}
    (said : .pool signal event ∈ g.news h) : h.kind? signal = some .signal := by
  cases deals with
  | samples samples => exact samples.pool said
  | ending how terminal id =>
      obtain ⟨_, same⟩ := said_of_ending (remove_tends g id how) _ said
      cases same
  | founding tends =>
      obtain ⟨_, same⟩ := said_of_founding tends _ said
      cases same
  | merge held live kind => cases said_of_afterMerge _ said

end Deals

theorem upsert_deals (delta : Delta) (g : Graph α) : Deals g ((upsert delta).after g) := by
  rcases upsert_cases delta g with ⟨-, same⟩ | ⟨e, refused⟩ | ⟨r, how, held, live, kind, -, merged⟩
  · have created := Deals.founding (create_tends delta g)
    simpa only [Attempt.after, same] using created
  · simpa only [Attempt.after, refused] using Deals.silent (.refl g)
  · simpa only [Attempt.after, merged] using Deals.merge held live kind

theorem applyEvent_deals (type : EventType) (delta : Delta) (g : Graph α) :
    Deals g ((applyEvent type delta).after g) := by
  cases type with
  | announce | update => exact upsert_deals delta g
  | remove => exact .ending .removed rfl delta.id
  | expire => exact .ending .expired rfl delta.id

theorem handle_deals (g : Graph α) (event : NetworkEvent) : Deals g (g.handle event) := by
  cases event with
  | record type delta => exact applyEvent_deals type delta g
  | value update => exact .samples (applyValue_samples update g)
  | sync device => exact .silent (modify_tends g device _)

theorem expireDevices_tends (g : Graph α) :
    Tends (SubscriptionChange.IsEnding .expired) g g.expireDevices := by
  simp only [expireDevices]
  split
  · exact .refl g
  · exact foldl_walks _ (fun h (r : Record) => remove_tends h r.id .expired) g

/-! ## Leases -/

theorem request_withSubscriptions (g : Graph α) (s : Subscription) (table : Directory Subscription) :
    ({ g with subscriptions := table } : Graph α).request s =
      ({ (g.request s).1 with subscriptions := table }, (g.request s).2) := by
  simp only [request]
  have same : ({ g with subscriptions := table } : Graph α).leaseSeconds = g.leaseSeconds := rfl
  rw [same]
  rcases g.wire.request ⟨s.device, s.categories, g.leaseSeconds s.lease⟩ with ⟨_ | _, wire⟩ <;> rfl

/-- To look over a lease reads none but the subscription that it is given. -/
theorem renewOne_withSubscriptions (g : Graph α) (s : Subscription) (table : Directory Subscription) :
    ({ g with subscriptions := table } : Graph α).renewOne s =
      ({ (g.renewOne s).1 with subscriptions := table }, (g.renewOne s).2) := by
  have asked := request_withSubscriptions g s table
  have same : ({ g with subscriptions := table } : Graph α).now = g.now := rfl
  simp only [renewOne, asked, same]
  split
  · rfl
  · cases s.expires with
    | none => cases s.lease <;> rfl
    | some expires =>
        cases s.lease with
        | renewing => dsimp only; split <;> rfl
        | seconds n => dsimp only; split <;> rfl
        | cancel => rfl

/-- What is left of the leases can as well be put in the place of each as it is looked over. -/
theorem renewNext_eq (rest : List (ObjectId × Subscription))
    (distinct : rest.Pairwise fun a b => a.1 ≠ b.1) (g : Graph α) (kept table : Directory Subscription)
    (ahead : ∀ next ∈ rest, table.get? next.1 = some next.2 ∧ kept.get? next.1 = none)
    (behind : ∀ id ∉ rest.map Prod.fst, table.get? id = kept.get? id) :
    { (rest.foldl renewNext (g, kept)).1 with subscriptions := (rest.foldl renewNext (g, kept)).2 } =
      (rest.map Prod.fst).foldl renewDevice { g with subscriptions := table } := by
  induction rest generalizing g kept table with
  | nil =>
      have same : table = kept := Directory.ext fun id => behind id List.not_mem_nil
      rw [same]
      rfl
  | cons next rest ih =>
      obtain ⟨apart, distinct⟩ := List.pairwise_cons.mp distinct
      obtain ⟨there, fresh⟩ := ahead next List.mem_cons_self
      have others (id : ObjectId) (absent : id ∉ rest.map Prod.fst) (other : next.1 ≠ id) :
          table.get? id = kept.get? id :=
        behind id fun member => (List.mem_cons.mp member).elim (fun same => other same.symm) absent
      have looked := renewOne_withSubscriptions g next.2 table
      simp only [List.foldl_cons, List.map_cons, renewNext, renewDevice, subscription?, there, looked]
      generalize g.renewOne next.2 = outcome
      obtain ⟨h, _ | s⟩ := outcome
      · refine ih distinct h kept (table.erase next.1) ?_ ?_
        · intro later member
          rw [Directory.get?_erase, if_neg (apart later member)]
          exact ahead later (List.mem_cons_of_mem _ member)
        · intro id absent
          rw [Directory.get?_erase]
          split
          · rename_i here
            exact (here ▸ fresh).symm
          · rename_i other
            exact others id absent other
      · refine ih distinct h (kept.insert next.1 s) (table.insert next.1 s) ?_ ?_
        · intro later member
          rw [Directory.get?_insert, Directory.get?_insert, if_neg (apart later member),
            if_neg (apart later member)]
          exact ahead later (List.mem_cons_of_mem _ member)
        · intro id absent
          rw [Directory.get?_insert, Directory.get?_insert]
          split
          · rfl
          · rename_i other
            exact others id absent other

/-- The devices that are subscribed to, in order. -/
def subscribers (g : Graph α) : List ObjectId := g.subscriptions.entries.map Prod.fst

theorem nodup_subscribers (g : Graph α) : g.subscribers.Nodup :=
  List.pairwise_map.mpr
    (g.subscriptions.ascending.imp fun below same => UInt64.ne_of_lt below (congrArg _ same))

theorem mem_subscribers_iff {device : ObjectId} :
    device ∈ g.subscribers ↔ (g.subscription? device).isSome := by
  simp only [subscribers, List.mem_map, Prod.exists, exists_and_right, exists_eq_right,
    Directory.mem_entries_iff, Option.isSome_iff_exists]
  rfl

theorem renewSubscriptions_eq (g : Graph α) :
    g.renewSubscriptions = g.subscribers.foldl renewDevice g := by
  have distinct := List.pairwise_map.mp g.nodup_subscribers
  refine renewNext_eq _ distinct g .empty g.subscriptions (fun next member => ⟨?_, rfl⟩) ?_
  · exact (g.subscriptions.mem_entries_iff next.1 next.2).mp member
  · intro id absent
    rw [Directory.get?_empty]
    exact Option.not_isSome_iff_eq_none.mp (mt mem_subscribers_iff.mpr absent)

theorem renewSubscriptions_tends (g : Graph α) :
    Tends SubscriptionChange.IsRenewal g g.renewSubscriptions := by
  rw [renewSubscriptions_eq]
  exact foldl_walks _ (fun h device => .one (e := .renew device) trivial
    ⟨⟨h, .refl h, rfl⟩, (h.renewDevice_aside device).notifications.trans (List.append_nil _).symm⟩) g

/-! ## Subscribing -/

variable {may : Lease → Prop}

theorem cancel_tends (g : Graph α) (device : ObjectId) :
    Tends (SubscriptionChange.Grants may) g (g.unsubscribeDevice device) :=
  .one (e := .cancel device) trivial ⟨⟨g, .refl g, rfl⟩,
    (unsubscribeDevice_aside g device).notifications.trans (List.append_nil _).symm⟩

theorem enter_tends {lease : Lease} (granted : may lease) (g : Graph α) (device : ObjectId)
    (categories : Categories) (pattern : Option String) :
    Tends (SubscriptionChange.Grants may) g (g.subscribeDevice device categories lease pattern) :=
  .one (e := .enter device categories lease pattern) granted ⟨⟨g, .refl g, rfl⟩,
    (subscribeDevice_aside g device categories lease pattern).notifications.trans
      (List.append_nil _).symm⟩

theorem unsubscribe_tends (g : Graph α) (target : SubscriptionTarget) :
    Tends (SubscriptionChange.Grants may) g (g.unsubscribe target) := by
  cases target with
  | device id => exact cancel_tends g id
  | pattern glob =>
      have dropped : Tends (SubscriptionChange.Grants may) g (g.dropPattern glob) :=
        .one (e := .dropPattern glob) trivial ⟨⟨g, .refl g, rfl⟩, (List.append_nil _).symm⟩
      exact dropped.trans (foldl_walks _ cancel_tends _)

theorem subscribe_tends {lease : Lease} (granted : lease ≠ .cancel → may lease) (g : Graph α)
    (target : SubscriptionTarget) (categories : Categories) :
    Tends (SubscriptionChange.Grants may) g (g.subscribe target categories lease) := by
  simp only [subscribe]
  split
  · exact unsubscribe_tends g target
  · rename_i lasting
    cases target with
    | device id => exact enter_tends (granted lasting) g id categories none
    | pattern glob =>
        have added : Tends (SubscriptionChange.Grants may) g (g.addPattern ⟨glob, categories, lease⟩) :=
          .one (e := .addPattern ⟨glob, categories, lease⟩) (granted lasting)
            ⟨⟨g, .refl g, rfl⟩, (List.append_nil _).symm⟩
        exact added.trans (foldl_walks _
          (fun g (r : Record) => enter_tends (granted lasting) g r.id categories _) _)

/-! ## Calls -/

/-- What comes to a graph is to subscribe or to unsubscribe, or else the graph does of itself what
    there is to do. -/
theorem step_deals (g : Graph α) (input : Input α) :
    (∃ target categories lease, input = .call (.subscribe target categories lease)) ∨
      (∃ target, input = .call (.unsubscribe target)) ∨ Deals g (g.step input) := by
  cases input with
  | event event => exact .inr (.inr (handle_deals g event))
  | call c =>
      cases c with
      | subscribe target categories lease => exact .inl ⟨target, categories, lease, rfl⟩
      | unsubscribe target => exact .inr (.inl ⟨target, rfl⟩)
      | network | listen | unlisten | defer =>
          exact .inr (.inr (.silent (SameBook.silent ⟨rfl, rfl, rfl, rfl⟩ rfl rfl)))
      | apply type delta => exact .inr (.inr (applyEvent_deals type delta g))
      | remove id => exact .inr (.inr (applyEvent_deals .remove (.empty .device id) g))
      | newMap sources destination =>
          exact .inr (.inr (.founding (newMap_tends sources destination g)))
      | edit id action => exact .inr (.inr (.silent (editProperties_tends id action g)))
      | editSlot map location action =>
          exact .inr (.inr (.silent (editSlot_tends map location action g)))
      | push id => exact .inr (.inr (.silent (push_tends id g)))
      | reserve signal n =>
          exact .inr (.inr (.silent (withPool_tends signal (fun _ => Pool.reserve n) g)))
      | reserveIds signal ids =>
          exact .inr (.inr (.silent (withPool_tends signal (fun _ => Pool.reserveIds ids) g)))
      | tag signal slot tag =>
          exact .inr (.inr (.silent (withPool_tends signal (fun _ => Pool.setTag slot tag) g)))
      | update signal slot value =>
          exact .inr (.inr (.samples (withPoolEvents_samples signal (sample slot value g.now) g)))
      | release signal slot =>
          exact .inr (.inr (.samples
            (withPoolEvents_samples signal (fun _ => Pool.release slot .here) g)))
      | drop signal slot =>
          exact .inr (.inr (.samples (withPoolEvents_samples signal (fun _ => Pool.remove slot) g)))

/-! ## Polls -/

theorem received_tends {g : Graph α} {outcome : Wire.Reception} {wire : Wire}
    (received : g.wire.receive = (outcome, wire)) :
    Tends SubscriptionChange.IsSilent g { g with wire } := by
  have requests : wire.requests = g.wire.requests := by
    simp only [Wire.receive] at received
    split at received <;> cases received <;> rfl
  exact SameBook.silent ⟨rfl, rfl, requests, rfl⟩ rfl rfl

theorem tell_tends (host : Host α σ) (s : σ) (g : Graph α) (note : Notification) :
    Tends SubscriptionChange.IsSilent g (tell host s g note).2 := by
  obtain ⟨s', put, told⟩ := tell_eq host s g note
  rw [told]
  exact SameBook.silent ⟨rfl, rfl, rfl, rfl⟩ rfl rfl

theorem observe_tends (g : Graph α) (note : Notification) :
    Tends SubscriptionChange.IsSilent g (g.observe note) := by
  cases note with
  | record id lifecycle => exact modify_tends g id _
  | pool signal event => exact .refl g

theorem dispatch_tends (host : Host α σ) (s : σ) (g : Graph α) :
    Tends SubscriptionChange.IsSilent g.unsaid (dispatch host s g).2 := by
  have told (notes : List Notification) (h : Graph α) : Tends SubscriptionChange.IsSilent h
      (notes.foldl (fun x note => tell host x.1 x.2 note) (s, h)).2 :=
    List.foldlRecOn _ _ (motive := fun x : σ × Graph α => Tends SubscriptionChange.IsSilent h x.2)
      (.refl h) fun x sofar note _ => sofar.trans (tell_tends host x.1 x.2 note)
  exact (told g.notifications g.unsaid).trans (foldl_walks _ observe_tends _)

/-- What a poll does after all is taken out to be told, up to the actions, leaves subscriptions
    alone. -/
theorem toldAndEvicted_tends (host : Host α σ) (s : σ) (g : Graph α) :
    Tends SubscriptionChange.IsSilent g.intake.unsaid (g.toldAndEvicted host s) := by
  have evicted (h : Graph α) : Tends SubscriptionChange.IsSilent h { h.evict with deferred := [] } :=
    SameBook.silent ⟨rfl, rfl, rfl, rfl⟩ rfl rfl
  exact (dispatch_tends host s g.intake).trans (evicted _)

theorem unsaid_sameBook (g : Graph α) : SameBook g g.unsaid := ⟨rfl, rfl, rfl, rfl⟩

theorem toldAndEvicted_sameBook (host : Host α σ) (s : σ) (g : Graph α) :
    SameBook g.intake (g.toldAndEvicted host s) :=
  (unsaid_sameBook g.intake).trans (toldAndEvicted_tends host s g).beside.sameBook

/-- What upkeep keeps, and all that comes as it may, runs keep. -/
theorem Run.heeds {law : Law α} {P : Graph α → Prop} {said : List Notification}
    (run : Run law g said h) (upkeep : ∀ {g h}, Tends SubscriptionChange.IsUpkeep g h → P g → P h)
    (step : ∀ {g input}, law g input → P g → P (g.step input)) (start : P g) : P h := by
  have silent {g h : Graph α} (tends : Tends SubscriptionChange.IsSilent g h) : P g → P h :=
    upkeep (tends.beside.mono SubscriptionChange.IsBeside.isUpkeep)
  induction run with
  | refl g => exact start
  | call before c may ih => exact step may (ih start)
  | @poll σ g h said later before host s may acts ih ihActs =>
      have beginning : Tends SubscriptionChange.IsSilent h h.beginPoll :=
        SameBook.silent ⟨rfl, rfl, rfl, rfl⟩ rfl rfl
      have taken : Tends SubscriptionChange.IsUpkeep h.intake h.intake.unsaid :=
        .one (e := .tell) trivial ⟨⟨h.intake.unsaid, unsaid_sameBook h.intake, rfl⟩, rfl⟩
      have drained := may.keeps (fun received => silent (received_tends received))
        (fun may => step may) (silent beginning (ih start))
      have expired := upkeep ((expireDevices_tends _).mono SubscriptionChange.IsEnding.isUpkeep) drained
      have tookIn : P h.intake :=
        upkeep ((renewSubscriptions_tends _).mono SubscriptionChange.IsRenewal.isUpkeep) expired
      exact ihActs (silent (toldAndEvicted_tends host s h) (upkeep taken tookIn))

end SignalGraph.Graph
