import SignalGraph.Proofs.Paths
import SignalGraph.Proofs.RecordChanges

/-! # Operations as chains of changes to records

What each operation does, as a chain of elementary changes. Subscriptions and the wire are beside
the records, and the instances of a signal only fill its frame.
-/

namespace SignalGraph

/-- Whether a chain of changes of some sort leads from a graph to another. -/
def Graph.Leads {α : Type} (sort : RecordChange → Prop) (g h : Graph α) : Prop :=
  ∃ said, RecordChanges sort g said h

namespace Graph.Leads

variable {α : Type} {sort other : RecordChange → Prop} {g h k : Graph α}

theorem refl (g : Graph α) : Leads sort g g := ⟨[], .done g⟩

theorem trans (first : Leads sort g h) (second : Leads sort h k) : Leads sort g k := by
  obtain ⟨said, before⟩ := first
  obtain ⟨more, after⟩ := second
  exact ⟨said ++ more, before.trans after⟩

instance : IsPreorder (Graph α) (Leads sort) where
  refl := refl
  trans _ _ _ := trans

theorem mono (weaker : ∀ d, sort d → other d) : Leads sort g h → Leads other g h
  | ⟨said, changes⟩ => ⟨said, changes.mono weaker⟩

theorem one {d : RecordChange} {said : List Notification} (fits : sort d) (does : d.Does g said h) :
    Leads sort g h := ⟨said, .one fits does⟩

/-- A change of which nothing is said. -/
theorem silent {d : RecordChange} (fits : sort d) (guard : d.Guard g) (store : h.store = d.store g)
    (config : h.config = g.config) (notifications : h.notifications = g.notifications)
    (none : d.creates = []) : Leads sort g h :=
  one fits ⟨guard, store, config, notifications.trans (List.append_nil _).symm, none.symm⟩

theorem plain (leads : Leads RecordChange.IsFilling g h) : Leads RecordChange.IsPlain g h :=
  leads.mono RecordChange.IsFilling.isPlain

theorem foldl {β : Type} {f : Graph α → β → Graph α} (items : List β)
    (each : ∀ g b, Leads sort g (f g b)) (g : Graph α) : Leads sort g (items.foldl f g) :=
  foldl_walks items each g

theorem keep (store : h.store = g.store) (config : h.config = g.config)
    (notifications : h.notifications = g.notifications) : Leads RecordChange.IsFilling g h :=
  silent (d := .keep) trivial trivial store config notifications rfl

theorem fill {id : ObjectId} {f : Record → Record}
    (fills : ∀ r, g.store.find? id = some r → r.Fills (f r))
    (restocks : ∀ r, g.store.find? id = some r → r.Restocks (f r)) :
    Leads RecordChange.IsFilling g (g.modify id f) :=
  silent (d := .fill id f) trivial (fun r held => ⟨fills r held, restocks r held⟩) rfl rfl rfl rfl

theorem notifyPool (g : Graph α) (signal : ObjectId) (events : List PoolEvent) :
    Leads RecordChange.IsFilling g (g.notifyPool signal events) :=
  one (d := .keep) trivial ⟨trivial, rfl, rfl, rfl, created_map_pool signal events⟩

theorem sameOutline (leads : Leads RecordChange.IsFilling g h) : g.store.SameOutline h.store := by
  obtain ⟨said, changes⟩ := leads
  exact changes.keeps (P := fun k => g.store.SameOutline k.store)
    (fun d _ _ _ filling does same => same.trans (filling.isInner.sameOutline does)) (.refl _)

theorem config (leads : Leads sort g h) : h.config = g.config := leads.choose_spec.config

end Graph.Leads

/-! ## Attempts -/

namespace Attempt

variable {α β γ : Type}

/-- Whether an attempt is a chain of changes of some sort, also where it is refused. -/
def Leads (sort : RecordChange → Prop) (x : Attempt (Graph α) β) : Prop :=
  ∀ g : Graph α, g.Leads sort (x.after g)

namespace Leads

variable {sort : RecordChange → Prop} {x : Attempt (Graph α) β} {f : β → Attempt (Graph α) γ}

theorem bind (first : Leads sort x) (rest : ∀ b, Leads sort (f b)) : Leads sort (x >>= f) :=
  Walks.bind first rest

theorem pure (b : β) : Leads sort (Pure.pure b : Attempt (Graph α) β) := Walks.pure b

theorem change {f : Graph α → Graph α} (each : ∀ g : Graph α, g.Leads sort (f g)) :
    Leads sort (Attempt.change f) := each

end Leads

end Attempt

namespace Graph

variable {α σ : Type} {g : Graph α}

/-! ## Beside the records -/

/-- Whether two graphs differ in nothing that changes to records are about. -/
structure IsQuiet (g h : Graph α) : Prop where
  store : h.store = g.store
  config : h.config = g.config
  notifications : h.notifications = g.notifications

namespace IsQuiet

theorem refl (g : Graph α) : IsQuiet g g := ⟨rfl, rfl, rfl⟩

theorem trans {h k : Graph α} (first : IsQuiet g h) (second : IsQuiet h k) : IsQuiet g k :=
  ⟨second.store.trans first.store, second.config.trans first.config,
    second.notifications.trans first.notifications⟩

theorem leads {h : Graph α} (quiet : IsQuiet g h) : Leads RecordChange.IsFilling g h :=
  .keep quiet.store quiet.config quiet.notifications

end IsQuiet

/-- Whether two graphs differ neither in that nor in the time. -/
structure IsAside (g h : Graph α) : Prop extends IsQuiet g h where
  cycle : h.cycle = g.cycle
  now : h.now = g.now

namespace IsAside

variable {h k : Graph α}

theorem refl (g : Graph α) : IsAside g g := ⟨.refl g, rfl, rfl⟩

theorem trans (first : IsAside g h) (second : IsAside h k) : IsAside g k :=
  ⟨first.toIsQuiet.trans second.toIsQuiet, second.cycle.trans first.cycle,
    second.now.trans first.now⟩

instance : IsPreorder (Graph α) IsAside where
  refl := refl
  trans _ _ _ := trans

theorem foldl {β : Type} {f : Graph α → β → Graph α} (items : List β)
    (each : ∀ g b, IsAside g (f g b)) (g : Graph α) : IsAside g (items.foldl f g) :=
  foldl_walks items each g

end IsAside

theorem clock_request (w : Wire) (r : SubscriptionRequest) : (w.request r).2.clock = w.clock := by
  simp only [Wire.request, Wire.takeFailure]
  cases w.failingSends <;> rfl

theorem request_aside (g : Graph α) (s : Subscription) : IsAside g (g.request s).1 := by
  have clock := clock_request g.wire ⟨s.device, s.categories, g.leaseSeconds s.lease⟩
  simp only [request]
  split <;> rename_i wire same <;> rw [same] at clock <;> exact ⟨⟨rfl, rfl, rfl⟩, rfl, clock⟩

theorem subscribeDevice_aside (g : Graph α) (device : ObjectId) (categories : Categories)
    (lease : Lease) (pattern : Option String) :
    IsAside g (g.subscribeDevice device categories lease pattern) :=
  (request_aside g _).trans ⟨⟨rfl, rfl, rfl⟩, rfl, rfl⟩

theorem unsubscribeDevice_aside (g : Graph α) (device : ObjectId) :
    IsAside g (g.unsubscribeDevice device) := by
  simp only [unsubscribeDevice]
  split
  · exact .refl g
  · exact ⟨⟨rfl, rfl, rfl⟩, rfl, clock_request ..⟩

theorem unsubscribe_aside (g : Graph α) (target : SubscriptionTarget) :
    IsAside g (g.unsubscribe target) := by
  cases target with
  | device id => exact unsubscribeDevice_aside g id
  | pattern glob =>
      have dropped : IsAside g (g.dropPattern glob) := ⟨⟨rfl, rfl, rfl⟩, rfl, rfl⟩
      exact dropped.trans (.foldl _ unsubscribeDevice_aside _)

theorem subscribe_aside (g : Graph α) (target : SubscriptionTarget) (categories : Categories)
    (lease : Lease) : IsAside g (g.subscribe target categories lease) := by
  simp only [subscribe]
  split
  · exact unsubscribe_aside g target
  · cases target with
    | device id => exact subscribeDevice_aside g id categories lease none
    | pattern glob =>
        have added : IsAside g (g.addPattern ⟨glob, categories, lease⟩) :=
          ⟨⟨rfl, rfl, rfl⟩, rfl, rfl⟩
        exact added.trans (.foldl _
          (fun g (r : Record) => subscribeDevice_aside g r.id categories lease _) _)

theorem autosubscribe_aside (g : Graph α) (device : ObjectId) :
    IsAside g (g.autosubscribe device) := by
  simp only [autosubscribe]
  split
  · exact .refl g
  · split
    · exact subscribeDevice_aside g device _ _ _
    · exact .refl g

theorem renewOne_aside (g : Graph α) (s : Subscription) : IsAside g (g.renewOne s).1 := by
  simp only [renewOne]
  repeat' split
  all_goals first
    | exact request_aside g s
    | exact .refl g

theorem renewNext_aside (looked : Graph α × Directory Subscription)
    (next : ObjectId × Subscription) : IsAside looked.1 (renewNext looked next).1 := by
  have one := renewOne_aside looked.1 next.2
  simp only [renewNext]
  split <;> rename_i same <;> rw [same] at one <;> exact one

theorem renewSubscriptions_aside (g : Graph α) : IsAside g g.renewSubscriptions := by
  have folded : IsAside g (g.subscriptions.entries.foldl renewNext (g, .empty)).1 :=
    List.foldlRecOn _ _ (motive := fun x : Graph α × Directory Subscription => IsAside g x.1)
      (.refl g) fun x aside next _ => aside.trans (renewNext_aside x next)
  exact folded.trans ⟨⟨rfl, rfl, rfl⟩, rfl, rfl⟩

theorem unsubscribe_quiet (g : Graph α) (target : SubscriptionTarget) :
    IsQuiet g (g.unsubscribe target) := (unsubscribe_aside g target).toIsQuiet

theorem subscribe_quiet (g : Graph α) (target : SubscriptionTarget) (categories : Categories)
    (lease : Lease) : IsQuiet g (g.subscribe target categories lease) :=
  (subscribe_aside g target categories lease).toIsQuiet

theorem autosubscribe_quiet (g : Graph α) (device : ObjectId) :
    IsQuiet g (g.autosubscribe device) := (autosubscribe_aside g device).toIsQuiet

theorem renewSubscriptions_quiet (g : Graph α) : IsQuiet g g.renewSubscriptions :=
  (renewSubscriptions_aside g).toIsQuiet

/-! ## Fillings -/

theorem touch_leads (g : Graph α) (id : ObjectId) :
    Leads RecordChange.IsFilling g (g.touch id) := by
  refine .fill ?_ ?_
  · intro r _
    split
    · rename_i synced wiring
      split
      · exact r.fills_wiring (wiring ▸ rfl) (by simp only [Record.isLocal, wiring])
      · exact .refl r
    · exact .refl r
  · intro r _
    refine .of_same ?_
    split
    · rename_i synced wiring
      split
      · simp only [Record.pool?, wiring]
      · rfl
    · rfl

theorem touchOwner_leads (g : Graph α) (signal : ObjectId) :
    Leads RecordChange.IsFilling g (g.touchOwner signal) := touchOwner_walks touch_leads g signal

theorem withPool_leads {β : Type} (signal : ObjectId) {x : Record → Attempt Pool β}
    (calls : ∀ r, (x r).Calls) :
    Attempt.Leads RecordChange.IsFilling (withPool (α := α) signal x) := by
  intro g
  simp only [withPool, Attempt.after_bind, Attempt.current_apply]
  cases live : g.store.getLive signal .signal with
  | error e => exact .refl g
  | ok r =>
      simp only [Attempt.demand_ok]
      cases got : r.getPool with
      | error e => exact .refl g
      | ok pool =>
          have own := Record.getPool_eq_ok_iff.mp got
          simp only [Attempt.demand_ok, Attempt.after_within]
          refine .fill (fun r _ => r.withPool_fills _) fun r' held => ?_
          obtain rfl := Option.some.inj (held.symm.trans (Store.getLive_eq_ok_iff.mp live).1)
          exact Record.withPool_restocks own (calls r' pool)

theorem withPoolEvents_leads (signal : ObjectId) {x : Record → Attempt Pool (List PoolEvent)}
    (calls : ∀ r, (x r).Calls) :
    Attempt.Leads RecordChange.IsFilling (withPoolEvents (α := α) signal x) :=
  .bind (withPool_leads signal calls) fun events => .change fun g => .notifyPool g signal events

theorem applyValue_leads (u : ValueUpdate) :
    Attempt.Leads RecordChange.IsFilling (applyValue (α := α) u) := by
  refine .bind (withPool_leads u.signal ?_) ?_
  · intro r
    split
    · exact (Pool.sample_calls _ _ _ r).map _
    · exact Pool.releaseIfHeld_calls _
  intro events
  cases events with
  | some events =>
      exact .bind (.change fun g => touchOwner_leads g u.signal) fun _ =>
        .change fun g => .notifyPool g u.signal events
  | none => exact .pure ()

theorem editSlot_leads {β : Type} (map : ObjectId) (location : SlotLocation) (x : Attempt Table β) :
    Attempt.Leads RecordChange.IsFilling (editSlot (α := α) map location x) :=
  editSlot_walks (fun _ _ => .fill (fun r _ => r.modifySlot_fills location _)
    fun r _ => .of_same (r.pool?_modifySlot location _)) x

end Graph

end SignalGraph
