import SignalGraph.Proofs.RunInvariants

/-! # What operations add to all that waits

Operations leave alone the messages that wait in a graph, the actions put off and the listeners.
What listeners are to be told only grows, and what is new is about objects that have a record.
Records go only for new ones to come in their place.
-/

namespace SignalGraph

namespace Wire

theorem inbox_request (w : Wire) (r : SubscriptionRequest) : (w.request r).2.inbox = w.inbox := by
  simp only [request, takeFailure]
  cases w.failingSends <;> rfl

theorem inbox_send (w : Wire) (dest : Destination) (delta : Delta) :
    (w.send dest delta).2.inbox = w.inbox := by
  simp only [send, takeFailure]
  cases w.failingSends <;> rfl

end Wire

namespace Graph

variable {α : Type} {g h k : Graph α} {id : ObjectId}

/-- Whether a graph comes of another by operations alone, as far as what waits is concerned. -/
structure Grows (g h : Graph α) : Prop where
  holds : ∀ id, (g.store.find? id).isSome → (h.store.find? id).isSome
  said : ∃ said, h.notifications = g.notifications ++ said ∧
    ∀ note ∈ said, (h.store.find? note.subject).isSome
  inbox : h.wire.inbox = g.wire.inbox
  deferred : h.deferred = g.deferred
  listeners : h.listeners = g.listeners
  nextListener : h.nextListener = g.nextListener

namespace Grows

/-- What says nothing keeps what listeners are to be told. -/
theorem silent (holds : ∀ id, (g.store.find? id).isSome → (h.store.find? id).isSome)
    (notifications : h.notifications = g.notifications) (inbox : h.wire.inbox = g.wire.inbox)
    (deferred : h.deferred = g.deferred) (listeners : h.listeners = g.listeners)
    (nextListener : h.nextListener = g.nextListener) : Grows g h where
  holds := holds
  said := ⟨[], notifications.trans (List.append_nil _).symm, fun _ none => by cases none⟩
  inbox := inbox
  deferred := deferred
  listeners := listeners
  nextListener := nextListener

theorem refl (g : Graph α) : Grows g g := .silent (fun _ held => held) rfl rfl rfl rfl rfl

theorem trans (first : Grows g h) (second : Grows h k) : Grows g k where
  holds id held := second.holds id (first.holds id held)
  said := by
    obtain ⟨said, notifications, about⟩ := first.said
    obtain ⟨more, later, aboutLater⟩ := second.said
    refine ⟨said ++ more, by rw [later, notifications, List.append_assoc], fun note member => ?_⟩
    rcases List.mem_append.mp member with before | after
    · exact second.holds _ (about note before)
    · exact aboutLater note after
  inbox := second.inbox.trans first.inbox
  deferred := second.deferred.trans first.deferred
  listeners := second.listeners.trans first.listeners
  nextListener := second.nextListener.trans first.nextListener

instance : IsPreorder (Graph α) Grows where
  refl := refl
  trans _ _ _ := trans

theorem foldl {β : Type} {f : Graph α → β → Graph α} (items : List β)
    (each : ∀ g b, Grows g (f g b)) (g : Graph α) : Grows g (items.foldl f g) :=
  foldl_walks items each g

theorem modify (g : Graph α) (id : ObjectId) (f : Record → Record) : Grows g (g.modify id f) := by
  refine .silent (fun other held => ?_) rfl rfl rfl rfl rfl
  simp only [Graph.modify, Store.find?_modify]
  split
  · rename_i here
    rwa [Option.isSome_map, here]
  · exact held

theorem notify (held : (g.store.find? id).isSome) (how : Lifecycle) : Grows g (g.notify id how) where
  holds _ held := held
  said := ⟨[.record id how], rfl, fun _ member => List.mem_singleton.mp member ▸ held⟩
  inbox := rfl
  deferred := rfl
  listeners := rfl
  nextListener := rfl

theorem notifyPool (held : (g.store.find? id).isSome) (events : List PoolEvent) :
    Grows g (g.notifyPool id events) where
  holds _ held := held
  said := ⟨events.map (.pool id), rfl, fun note member => by
    obtain ⟨event, -, rfl⟩ := List.mem_map.mp member
    exact held⟩
  inbox := rfl
  deferred := rfl
  listeners := rfl
  nextListener := rfl

theorem insert (g : Graph α) (r : Record) : Grows g (g.insert r) := by
  have inserted : Grows g { g with store := g.store.insert r } := by
    refine .silent (fun other held => ?_) rfl rfl rfl rfl rfl
    simp only [Store.find?_insert]
    split
    · rfl
    · exact held
  exact inserted.trans (notify (by simp [Store.find?_insert]) .added)

/-- What is said later of a graph that grew is what is new in it. -/
theorem news_about (grows : Grows g h) : h.notifications = g.notifications ++ g.news h ∧
    ∀ note ∈ g.news h, (h.store.find? note.subject).isSome := by
  obtain ⟨said, notifications, about⟩ := grows.said
  have same : g.news h = said := by rw [news, notifications, List.drop_left]
  exact same ▸ ⟨notifications, about⟩

end Grows

end Graph

namespace Attempt

variable {α β γ : Type}

/-- Whether an attempt makes a graph grow, also where it is refused. -/
def Grows (x : Attempt (Graph α) β) : Prop := ∀ g : Graph α, g.Grows (x.after g)

namespace Grows

variable {x : Attempt (Graph α) β} {f : β → Attempt (Graph α) γ}

theorem ofOk {g h : Graph α} {b : β} (grows : Grows x) (done : x g = .ok b h) : g.Grows h := by
  simpa only [after, done] using grows g

theorem ofError {g h : Graph α} {e : Error} (grows : Grows x) (refused : x g = .error e h) :
    g.Grows h := by
  simpa only [after, refused] using grows g

theorem bind (first : Grows x) (rest : ∀ b, Grows (f b)) : Grows (x >>= f) := Walks.bind first rest

theorem throw (e : Error) : Grows (MonadExcept.throw e : Attempt (Graph α) β) := Walks.throw e

theorem current : Grows (Attempt.current : Attempt (Graph α) (Graph α)) := Walks.current

end Grows

end Attempt

namespace Graph

variable {α σ : Type} {g h : Graph α} {delta : Delta}

/-! ## Subscriptions -/

theorem request_grows (g : Graph α) (s : Subscription) : Grows g (g.request s).1 := by
  have inbox := g.wire.inbox_request ⟨s.device, s.categories, g.leaseSeconds s.lease⟩
  simp only [request]
  split <;> rename_i wire same <;> rw [same] at inbox <;>
    exact .silent (fun _ held => held) rfl inbox rfl rfl rfl

theorem subscribeDevice_grows (g : Graph α) (device : ObjectId) (categories : Categories)
    (lease : Lease) (pattern : Option String) :
    Grows g (g.subscribeDevice device categories lease pattern) :=
  (request_grows g _).trans (.silent (fun _ held => held) rfl rfl rfl rfl rfl)

theorem unsubscribeDevice_grows (g : Graph α) (device : ObjectId) :
    Grows g (g.unsubscribeDevice device) := by
  simp only [unsubscribeDevice]
  split
  · exact .refl g
  · exact .silent (fun _ held => held) rfl (Wire.inbox_request ..) rfl rfl rfl

theorem unsubscribe_grows (g : Graph α) (target : SubscriptionTarget) :
    Grows g (g.unsubscribe target) := by
  cases target with
  | device id => exact unsubscribeDevice_grows g id
  | pattern glob =>
      have dropped : Grows g (g.dropPattern glob) :=
        .silent (fun _ held => held) rfl rfl rfl rfl rfl
      exact dropped.trans (.foldl _ unsubscribeDevice_grows _)

theorem subscribe_grows (g : Graph α) (target : SubscriptionTarget) (categories : Categories)
    (lease : Lease) : Grows g (g.subscribe target categories lease) := by
  simp only [subscribe]
  split
  · exact unsubscribe_grows g target
  · cases target with
    | device id => exact subscribeDevice_grows g id categories lease none
    | pattern glob =>
        have added : Grows g (g.addPattern ⟨glob, categories, lease⟩) :=
          .silent (fun _ held => held) rfl rfl rfl rfl rfl
        exact added.trans (.foldl _
          (fun g (r : Record) => subscribeDevice_grows g r.id categories lease _) _)

theorem autosubscribe_grows (g : Graph α) (device : ObjectId) :
    Grows g (g.autosubscribe device) := by
  simp only [autosubscribe]
  split
  · exact .refl g
  · split
    · exact subscribeDevice_grows g device _ _ _
    · exact .refl g

theorem renewOne_grows (g : Graph α) (s : Subscription) : Grows g (g.renewOne s).1 := by
  simp only [renewOne]
  repeat' split
  all_goals first
    | exact request_grows g s
    | exact .refl g

theorem renewNext_grows (looked : Graph α × Directory Subscription)
    (next : ObjectId × Subscription) : Grows looked.1 (renewNext looked next).1 := by
  have one := renewOne_grows looked.1 next.2
  simp only [renewNext]
  split <;> rename_i same <;> rw [same] at one <;> exact one

theorem renewSubscriptions_grows (g : Graph α) : Grows g g.renewSubscriptions := by
  have folded : Grows g (g.subscriptions.entries.foldl renewNext (g, .empty)).1 :=
    List.foldlRecOn _ _ (motive := fun x : Graph α × Directory Subscription => Grows g x.1)
      (.refl g) fun x grows next _ => grows.trans (renewNext_grows x next)
  exact folded.trans (.silent (fun _ held => held) rfl rfl rfl rfl rfl)

/-! ## Records -/

theorem touchOwner_grows (g : Graph α) (signal : ObjectId) : Grows g (g.touchOwner signal) :=
  touchOwner_walks (fun g id => .modify g id _) g signal

theorem founded_grows (g : Graph α) (delta : Delta) (wiring : Wiring) :
    Grows g (g.founded delta wiring) where
  holds other held := by
    rw [find?_founded]
    split
    · rfl
    · exact held
  said := by
    have id : (g.recordOf delta wiring).id = delta.id :=
      congrArg Frame.id (recordOf_frame g delta wiring)
    refine ⟨[.record delta.id .added], by simp only [founded, insert, notify, id], ?_⟩
    intro note member
    obtain rfl := List.mem_singleton.mp member
    rw [find?_founded, Notification.subject, if_pos rfl]
    rfl
  inbox := rfl
  deferred := rfl
  listeners := rfl
  nextListener := rfl

theorem establish_grows (g : Graph α) (delta : Delta) (wiring : Wiring) :
    Grows g (g.establish delta wiring) := by
  have touched := (founded_grows g delta wiring).trans (touchOwner_grows _ delta.id)
  simp only [establish]
  split
  · exact touched.trans (autosubscribe_grows _ delta.id)
  · exact touched

theorem create_grows (delta : Delta) : Attempt.Grows (create (α := α) delta) :=
  create_walks establish_grows delta

theorem noteChange_grows (held : (g.store.find? delta.id).isSome) : Grows g (g.noteChange delta) := by
  have changed := Grows.modify g delta.id ({ · with status := .modified })
  have noted := changed.trans (.notify (changed.holds _ held) .modified)
  simp only [noteChange]
  split
  · exact noted.trans (autosubscribe_grows _ delta.id)
  · exact noted

theorem merge_grows (delta : Delta) : Attempt.Grows (merge (α := α) delta) := by
  intro g
  cases found : g.store.find? delta.id with
  | none =>
      simp only [merge, Attempt.after_bind, Attempt.current_apply, found]
      exact .refl g
  | some r =>
      have merged : Grows g ((g.withMerged r delta).touchOwner delta.id) :=
        (Grows.modify g delta.id _).trans (touchOwner_grows _ _)
      have held := merged.holds delta.id (by rw [found]; rfl)
      simp only [merge, Attempt.after_bind, Attempt.current_apply, found]
      cases delta.diff.changes.forM r.checkRelation with
      | error e => exact .refl g
      | ok _ =>
          cases (g.mergedRecord r delta).2 with
          | false => exact merged
          | true => exact merged.trans (noteChange_grows held)

theorem upsert_grows (delta : Delta) : Attempt.Grows (upsert (α := α) delta) := by
  refine .bind .current fun g => ?_
  split
  · split
    · exact create_grows delta
    · split
      · exact .throw _
      · exact merge_grows delta
  · exact create_grows delta

theorem remove_grows (g : Graph α) (id : ObjectId) (how : Lifecycle) :
    Grows g (g.remove id how).1 := by
  refine removeWithin_walks .refl .trans (fun g id r found _ => ?_)
    (fun _ _ => .silent (fun _ held => held) rfl rfl rfl rfl rfl) 3 g id
  have retired := Grows.modify g id
    (fun r => { r with status := how.status, terminalAt := some g.now, observedCycle := none })
  exact retired.trans (.notify (retired.holds id (by rw [found]; rfl)) how)

/-! ## Instances -/

theorem withPool_grows {β : Type} (signal : ObjectId) (x : Record → Attempt Pool β) :
    Attempt.Grows (withPool (α := α) signal x) := withPool_walks (fun g _ => .modify g signal _) x

/-- Work on the instances of a signal is done only where it has a record. -/
theorem held_of_withPool {β : Type} {signal : ObjectId} {x : Record → Attempt Pool β} {b : β}
    (done : withPool signal x g = .ok b h) : (h.store.find? signal).isSome := by
  refine ((withPool_grows signal x).ofOk done).holds signal ?_
  simp only [withPool, Attempt.bind_apply, Attempt.current_apply] at done
  cases live : g.store.getLive signal .signal with
  | error e => simp [live] at done
  | ok r => simp [(Store.getLive_eq_ok_iff.mp live).1]

theorem withPoolEvents_grows (signal : ObjectId) (x : Record → Attempt Pool (List PoolEvent)) :
    Attempt.Grows (withPoolEvents (α := α) signal x) := by
  intro g
  have worked := withPool_grows (α := α) signal x
  simp only [withPoolEvents, Attempt.after_bind]
  cases done : withPool signal x g with
  | error e h => exact worked.ofError done
  | ok events h => exact (worked.ofOk done).trans (.notifyPool (held_of_withPool done) events)

theorem applyValue_grows (u : ValueUpdate) : Attempt.Grows (applyValue (α := α) u) := by
  intro g
  simp only [applyValue, Attempt.after_bind]
  split
  · rename_i events h done
    have worked := (withPool_grows u.signal _).ofOk done
    cases events with
    | none => exact worked
    | some events =>
        have touched := touchOwner_grows h u.signal
        exact worked.trans (touched.trans
          (.notifyPool (touched.holds _ (held_of_withPool done)) events))
  · rename_i refused
    exact (withPool_grows u.signal _).ofError refused

/-! ## Edits -/

theorem editProperties_grows {β : Type} (id : ObjectId) (x : Attempt Table β) :
    Attempt.Grows (editProperties (α := α) id x) := editProperties_walks fun g => .modify g id _

theorem editSlot_grows {β : Type} (map : ObjectId) (location : SlotLocation) (x : Attempt Table β) :
    Attempt.Grows (editSlot (α := α) map location x) :=
  editSlot_walks (fun g _ => .modify g map _) x

theorem send_grows (dest : Destination) (delta : Delta) :
    Attempt.Grows (send (α := α) dest delta) := by
  intro g
  have inbox := g.wire.inbox_send dest delta
  simp only [Attempt.after, send]
  split <;> rename_i same <;> split at same <;> cases same <;> rename_i sent <;>
    rw [sent] at inbox <;> exact .silent (fun _ held => held) rfl inbox rfl rfl rfl

theorem push_grows (id : ObjectId) : Attempt.Grows (push (α := α) id) :=
  push_walks send_grows fun g => .modify g id _

theorem newMap_grows (sources : List ObjectId) (destination : ObjectId) :
    Attempt.Grows (newMap (α := α) sources destination) :=
  newMap_walks (fun _ _ => .silent (fun _ held => held) rfl rfl rfl rfl rfl) .insert sources
    destination

/-! ## What comes -/

theorem applyEvent_grows (type : EventType) (delta : Delta) :
    Attempt.Grows (applyEvent (α := α) type delta) := by
  cases type with
  | announce | update => exact upsert_grows delta
  | remove | expire => exact fun g => remove_grows g delta.id _

theorem handle_grows (g : Graph α) (event : NetworkEvent) : Grows g (g.handle event) := by
  cases event with
  | record type delta => exact applyEvent_grows type delta g
  | value update => exact applyValue_grows update g
  | sync device => exact .modify g device _

theorem expireDevices_grows (g : Graph α) : Grows g g.expireDevices := by
  simp only [expireDevices]
  split
  · exact .refl g
  · exact .foldl _ (fun h (r : Record) => remove_grows h r.id .expired) g

end Graph

end SignalGraph
