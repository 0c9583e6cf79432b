import SignalGraph.Proofs.Leases

/-! # Subscriptions that are renewed

A subscription that is to be renewed lasts, however long polls are away and however many requests
fail. It ends with its object, or when someone unsubscribes from it or subscribes to it anew.
-/

namespace SignalGraph

/-- Whether it is not said of an object that it has ended. -/
def Unended (id : ObjectId) (said : List Notification) : Prop :=
  ∀ how : Lifecycle, how.status.isTerminal → .record id how ∉ said

theorem unended_append {id : ObjectId} {said more : List Notification} :
    Unended id (said ++ more) ↔ Unended id said ∧ Unended id more := by
  simp only [Unended, List.mem_append, not_or, ← forall_and]

namespace Graph

variable {α σ : Type} {g h k : Graph α} {device : ObjectId} {s : Subscription} {config : Config}

/-- Whether a device is subscribed to as by some subscription, but for when that runs out and
    whether it is pending. -/
def HoldsOn (g : Graph α) (device : ObjectId) (s : Subscription) : Prop :=
  ∃ expires pending, g.subscription? device = some { s with expires, pending }

/-- Whether to unsubscribe from something is to unsubscribe from a device. -/
def Ends (g : Graph α) (device : ObjectId) : SubscriptionTarget → Prop
  | .device id => id = device
  | .pattern glob => ∃ s ∈ g.subscriptions.values, s.device = device ∧ s.pattern = some glob

/-- Whether to subscribe to something is to subscribe to a device. -/
def Reaches (g : Graph α) (device : ObjectId) : SubscriptionTarget → Prop
  | .device id => id = device
  | .pattern glob => device ∈ g.matching glob

/-- Whether what comes neither unsubscribes from a device nor subscribes to it. -/
def Leaves (device : ObjectId) : Law α := fun g input =>
  match input with
  | .call (.unsubscribe target) => ¬g.Ends device target
  | .call (.subscribe target _ lease) =>
    if lease = .cancel then ¬g.Ends device target else ¬g.Reaches device target
  | _ => True

/-- Whether a device that is subscribed to by a subscription that is to be renewed stays so, unless
    its object is said to end. -/
def Retains (device : ObjectId) (g h : Graph α) : Prop :=
  ∃ said, h.notifications = g.notifications ++ said ∧
    (Unended device said →
      ∀ s, s.lease = .renewing → g.HoldsOn device s → h.HoldsOn device s)

namespace Retains

theorem trans (first : Retains device g h) (second : Retains device h k) : Retains device g k := by
  obtain ⟨said, before, keeps⟩ := first
  obtain ⟨more, after, keepsOn⟩ := second
  refine ⟨said ++ more, by rw [after, before, List.append_assoc], fun unended s renewing held => ?_⟩
  obtain ⟨sooner, later⟩ := unended_append.mp unended
  exact keepsOn later s renewing (keeps sooner s renewing held)

theorem quiet (notifications : h.notifications = g.notifications)
    (same : h.subscription? device = g.subscription? device) : Retains device g h :=
  ⟨[], notifications.trans (List.append_nil _).symm, fun _ _ _ ⟨expires, pending, held⟩ =>
    ⟨expires, pending, same.trans held⟩⟩

theorem refl (g : Graph α) : Retains device g g := quiet rfl rfl

instance : IsPreorder (Graph α) (Retains device) where
  refl := refl
  trans _ _ _ := trans

end Retains

/-! ## Changes -/

theorem renewDevice_of_renewing (held : g.subscription? device = some s)
    (renewing : s.lease = .renewing) :
    g.renewDevice device = g ∨ g.renewDevice device = g.ask device s := by
  have outcomes : g.renewOne s = (g.request s).map id some ∨ g.renewOne s = (g, some s) := by
    simp only [renewOne, renewing]
    split
    · exact .inl rfl
    · cases s.expires with
      | none => exact .inr rfl
      | some expires =>
          dsimp only
          split
          · exact .inl rfl
          · exact .inr rfl
  rcases outcomes with again | stays
  · refine .inr ?_
    simp only [renewDevice, held, again]
    rfl
  · refine .inl ?_
    simp only [renewDevice, held, stays, Directory.insert_eq_self held]

theorem HoldsOn.renew (held : g.HoldsOn device s) (renewing : s.lease = .renewing)
    (other : ObjectId) : (g.renewDevice other).HoldsOn device s := by
  obtain ⟨expires, pending, there⟩ := held
  by_cases same : other = device
  · subst same
    rcases renewDevice_of_renewing there renewing with stays | again
    · exact ⟨expires, pending, stays.symm ▸ there⟩
    · obtain ⟨-, -, expires', pending', asked⟩ := g.request_spec { s with expires, pending }
      refine ⟨expires', pending', ?_⟩
      rw [again, subscription?_ask, if_pos rfl, asked]
  · exact ⟨expires, pending, (renewDevice_of_ne same g).trans there⟩

theorem HoldsOn.seek (held : g.HoldsOn device s) (other : ObjectId) :
    (g.autosubscribe other).HoldsOn device s := by
  obtain ⟨expires, pending, there⟩ := held
  refine ⟨expires, pending, ?_⟩
  by_cases same : other = device
  · subst same
    simp [autosubscribe, there]
  · exact (autosubscribe_of_ne same g).trans there

theorem HoldsOn.does {e : SubscriptionChange} (held : g.HoldsOn device s)
    (renewing : s.lease = .renewing) (does : e.Does g h) (fits : e.IsMild ∨ e.IsRenewal) : h.HoldsOn device s := by
  obtain ⟨k, same, rfl⟩ := does.book
  replace held : k.HoldsOn device s := by
    obtain ⟨expires, pending, there⟩ := held
    exact ⟨expires, pending, (same.subscription? device).trans there⟩
  cases e with
  | keep said => exact held
  | seek other how => exact held.seek other
  | renew other => exact held.renew renewing other
  | _ => exact fits.elim False.elim False.elim

theorem Tends.retains {sort : SubscriptionChange → Prop} (tends : Tends sort g h)
    (fits : ∀ e, sort e → e.IsMild ∨ e.IsRenewal) : Retains device g h := by
  obtain ⟨said, changes⟩ := tends
  refine ⟨said, changes.notifications ?_, fun _ s renewing held => ?_⟩
  · rintro e kept rfl
    exact (fits _ kept).elim id id
  · exact changes.keeps (P := (HoldsOn · device s))
      (fun kept does held => held.does renewing does (fits _ kept)) held

/-- A subscription goes with its object, and that is said. -/
theorem remove_retains {how : Lifecycle} (terminal : how.status.isTerminal) (g : Graph α)
    (id : ObjectId) : Retains device g (g.remove id how).1 := by
  refine removeWithin_walks_of .refl .trans (fun g id r _ _ => ?_) (fun {g h id} within sofar => ?_)
    3 g id
  · exact ⟨[.record id how], rfl, fun _ _ _ held => held⟩
  · by_cases own : id = device
    · obtain ⟨said, notifications, -⟩ := within
      refine ⟨.record id how :: said, ?_, fun unended => ?_⟩
      · exact notifications.trans (List.append_assoc ..)
      · exact absurd List.mem_cons_self (own ▸ unended how terminal)
    · refine sofar.trans (.quiet rfl ?_)
      rw [subscription?_dropSubscription, if_neg own]

theorem Deals.retains (deals : Deals g h) : Retains device g h := by
  cases deals with
  | samples samples =>
      exact samples.tends.retains fun e beside => .inl (SubscriptionChange.IsBeside.isMild e beside)
  | ending how terminal id => exact remove_retains terminal g id
  | founding tends =>
      exact tends.retains fun e founding => .inl (SubscriptionChange.IsFounding.isMild e founding)
  | merge held live kind => exact (afterMerge_tends g _ _).retains fun _ mild => .inl mild

theorem unsubscribe_retains {target : SubscriptionTarget} (spares : ¬g.Ends device target) :
    Retains device g (g.unsubscribe target) := by
  refine .quiet (unsubscribe_quiet g target).notifications ?_
  cases target with
  | device id => exact (g.subscription?_unsubscribeDevice id device).trans (if_neg spares)
  | pattern glob =>
      refine ((cancelAll_spec _ (g.dropPattern glob)).2 device).trans ?_
      refine if_neg fun member => spares ?_
      obtain ⟨s, member, own⟩ := List.mem_map.mp member
      obtain ⟨held, tag⟩ := List.mem_filter.mp member
      exact ⟨s, held, own, of_decide_eq_true tag⟩

theorem subscribe_retains {target : SubscriptionTarget} {lease : Lease} (lasting : lease ≠ .cancel)
    (spares : ¬g.Reaches device target) (categories : Categories) :
    Retains device g (g.subscribe target categories lease) := by
  refine .quiet (subscribe_quiet g target categories lease).notifications ?_
  cases target with
  | device id =>
      simp only [subscribe, if_neg lasting, subscribeDevice_eq]
      exact (g.subscription?_ask ..).trans (if_neg spares)
  | pattern glob =>
      rw [subscribe_pattern_eq lasting]
      exact ((enterAll_spec _ _ _).2 device).1 spares

theorem Leaves.step {input : Input α} (leaves : Leaves device g input) :
    Retains device g (g.step input) := by
  rcases g.step_deals input with ⟨target, categories, lease, rfl⟩ | ⟨target, rfl⟩ | deals
  · by_cases lasting : lease = .cancel
    · subst lasting
      exact unsubscribe_retains leaves
    · have spares : ¬g.Reaches device target := by simpa only [Leaves, if_neg lasting] using leaves
      exact subscribe_retains lasting spares categories
  · exact unsubscribe_retains leaves
  · exact deals.retains

/-- A graph whose subscription to device 1 has run out, and whose next request will be refused. -/
def overdue : Graph Unit := (renewing 60).facing ⟨100, 0⟩ 1

/-- A host whose listeners do nothing. -/
def idle : Host Unit Unit := ⟨fun _ _ _ _ _ => ((), []), fun _ g _ => ((), g)⟩

end Graph

end SignalGraph
