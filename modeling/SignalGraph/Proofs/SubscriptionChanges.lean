import SignalGraph.Proofs.LifecycleChanges
import SignalGraph.Proofs.RecordOperations

/-! # Elementary changes to the subscriptions of a graph

All that is done to the subscriptions of a graph comes down to a few elementary changes. Each sends
at most one request, and between two of them all else may change, also which of the next requests
are to fail. Most the graph makes on its own: it subscribes to devices that come or change if a
pattern covers them, drops the subscription of one that goes, and looks over leases.
-/

namespace SignalGraph

theorem Directory.insert_eq_self {β : Type} {d : Directory β} {id : ObjectId} {b : β}
    (held : d.get? id = some b) : d.insert id b = d := by
  ext other
  rw [Directory.get?_insert]
  split
  · rename_i same
    rw [← same, held]
  · rfl

theorem Wire.request_cases (w : Wire) (r : SubscriptionRequest) :
    w.request r = (true, { w with requests := w.requests ++ [r] }) ∨
      ∃ failingSends, w.request r = (false, { w with failingSends }) := by
  rcases w with ⟨clock, inbox, sent, requests, _ | n, failingReceives⟩
  · exact .inl rfl
  · exact .inr ⟨n, rfl⟩

namespace Graph

variable {α : Type}

/-- Whether two graphs agree in all that subscriptions are about. -/
structure SameBook (g h : Graph α) : Prop where
  subscriptions : h.subscriptions = g.subscriptions
  patterns : h.patterns = g.patterns
  requests : h.wire.requests = g.wire.requests
  config : h.config = g.config

namespace SameBook

variable {g h k : Graph α}

theorem refl (g : Graph α) : SameBook g g := ⟨rfl, rfl, rfl, rfl⟩

theorem trans (first : SameBook g h) (second : SameBook h k) : SameBook g k :=
  ⟨second.subscriptions.trans first.subscriptions, second.patterns.trans first.patterns,
    second.requests.trans first.requests, second.config.trans first.config⟩

theorem subscription? (same : SameBook g h) (device : ObjectId) :
    h.subscription? device = g.subscription? device := by
  rw [Graph.subscription?, Graph.subscription?, same.subscriptions]

end SameBook

/-- Looks over the lease of one device, and puts what is left of the subscription in its place. -/
def renewDevice (g : Graph α) (device : ObjectId) : Graph α :=
  match g.subscription? device with
  | none => g
  | some s =>
    match g.renewOne s with
    | (h, some s) => { h with subscriptions := h.subscriptions.insert device s }
    | (h, none) => h.dropSubscription device

/-! ## Lookups -/

theorem request_cases (g : Graph α) (s : Subscription) :
    (∃ expires, g.request s = ({ g with wire := { g.wire with
        requests := g.wire.requests ++ [⟨s.device, s.categories, g.leaseSeconds s.lease⟩] } },
      { s with pending := false, expires := some expires })) ∨
    ∃ failingSends, g.request s = ({ g with wire := { g.wire with failingSends } },
      { s with pending := true }) := by
  simp only [request]
  rcases g.wire.request_cases ⟨s.device, s.categories, g.leaseSeconds s.lease⟩ with
    taken | ⟨failingSends, refused⟩
  · exact .inl ⟨_, by rw [taken]⟩
  · exact .inr ⟨failingSends, by rw [refused]⟩

/-- A request touches nothing but the wire, and what it makes of a subscription is the same but for
    the time and whether it is pending. -/
theorem request_spec (g : Graph α) (s : Subscription) :
    (g.request s).1.subscriptions = g.subscriptions ∧ (g.request s).1.patterns = g.patterns ∧
      ∃ expires pending, (g.request s).2 = { s with expires, pending } := by
  rcases g.request_cases s with ⟨_, same⟩ | ⟨_, same⟩ <;> rw [same] <;>
    exact ⟨rfl, rfl, _, _, rfl⟩

theorem subscription?_dropSubscription (g : Graph α) (device other : ObjectId) :
    (g.dropSubscription device).subscription? other =
      if device = other then none else g.subscription? other :=
  g.subscriptions.get?_erase device other

theorem subscription?_unsubscribeDevice (g : Graph α) (device other : ObjectId) :
    (g.unsubscribeDevice device).subscription? other =
      if device = other then none else g.subscription? other := by
  simp only [unsubscribeDevice]
  split
  · rename_i absent
    split
    · rename_i same
      exact same ▸ absent
    · rfl
  · exact g.subscription?_dropSubscription device other

/-- Asks for what a subscription says, and keeps under a device what comes of it. -/
def ask (g : Graph α) (device : ObjectId) (s : Subscription) : Graph α :=
  { (g.request s).1 with
    subscriptions := (g.request s).1.subscriptions.insert device (g.request s).2 }

theorem patterns_ask (g : Graph α) (device : ObjectId) (s : Subscription) :
    (g.ask device s).patterns = g.patterns := (g.request_spec s).2.1

theorem subscription?_ask (g : Graph α) (device : ObjectId) (s : Subscription) (other : ObjectId) :
    (g.ask device s).subscription? other =
      if device = other then some (g.request s).2 else g.subscription? other := by
  simp only [subscription?, ask, Directory.get?_insert, (g.request_spec s).1]

theorem subscribeDevice_eq (g : Graph α) (device : ObjectId) (categories : Categories)
    (lease : Lease) (pattern : Option String) :
    g.subscribeDevice device categories lease pattern =
      g.ask device ⟨device, categories, lease, none, true, pattern⟩ := rfl

/-- A subscription is asked for again when leases are looked over, or stays as it is, or goes. -/
theorem renewDevice_cases (g : Graph α) (device : ObjectId) :
    g.renewDevice device = g ∨ g.renewDevice device = g.dropSubscription device ∨
      ∃ s, g.subscription? device = some s ∧ g.renewDevice device = g.ask device s := by
  simp only [renewDevice]
  cases held : g.subscription? device with
  | none => exact .inl rfl
  | some s =>
      have outcomes : g.renewOne s = (g.request s).map id some ∨ g.renewOne s = (g, some s) ∨
          g.renewOne s = (g, none) := by
        simp only [renewOne]
        repeat' split
        all_goals simp
      rcases outcomes with again | stays | lapsed
      · exact .inr (.inr ⟨s, rfl, by simp only [again]; rfl⟩)
      · exact .inl (by simp only [stays, Directory.insert_eq_self held])
      · exact .inr (.inl (by simp only [lapsed]))

end Graph

/-- What is done to the subscriptions of a graph in one step. -/
inductive SubscriptionChange where
  /-- Nothing; of other things there may be something to tell. -/
  | keep (said : List Notification)
  /-- What there is to tell is taken out to be told. -/
  | tell
  /-- A device has come or changed, which is said, and a pattern may cover it. -/
  | seek (device : ObjectId) (how : Lifecycle)
  | enter (device : ObjectId) (categories : Categories) (lease : Lease) (pattern : Option String)
  | cancel (device : ObjectId)
  | drop (device : ObjectId)
  | renew (device : ObjectId)
  | addPattern (p : PatternSubscription)
  | dropPattern (glob : String)

namespace SubscriptionChange

variable {α : Type}

def after (g : Graph α) : SubscriptionChange → Graph α
  | keep _ | tell => g
  | seek device _ => g.autosubscribe device
  | enter device categories lease pattern => g.subscribeDevice device categories lease pattern
  | cancel device => g.unsubscribeDevice device
  | drop device => g.dropSubscription device
  | renew device => g.renewDevice device
  | addPattern p => g.addPattern p
  | dropPattern glob => g.dropPattern glob

def said : SubscriptionChange → List Notification
  | keep said => said
  | seek device how => [.record device how]
  | _ => []

/-- What is still to be told of what was to be told before. -/
def left (g : Graph α) : SubscriptionChange → List Notification
  | tell => []
  | _ => g.notifications

/-- Whether a change is what was done to subscriptions between two graphs. -/
structure Does (e : SubscriptionChange) (g h : Graph α) : Prop where
  book : ∃ k, g.SameBook k ∧ h = e.after k
  notifications : h.notifications = e.left g ++ e.said

/-- Whether a change does and says nothing. -/
def IsSilent : SubscriptionChange → Prop
  | keep said => said = []
  | _ => False

/-- Whether a change leaves subscriptions alone, and what it says is of instances. -/
def IsBeside : SubscriptionChange → Prop
  | keep said => ∀ note ∈ said, note.isOfPool
  | _ => False

theorem isBeside_silent : (keep []).IsBeside := fun _ none => absurd none List.not_mem_nil

/-- Whether a change is one for new records, and says so. -/
def IsFounding : SubscriptionChange → Prop
  | keep said => ∀ note ∈ said, ∃ id, note = .record id .added
  | seek _ how => how = .added
  | _ => False

/-- Whether a change is one for objects that go in some way, and says so. -/
def IsEnding (how : Lifecycle) : SubscriptionChange → Prop
  | keep said => ∀ note ∈ said, ∃ id, note = .record id how
  | drop _ => True
  | _ => False

def IsRenewal : SubscriptionChange → Prop
  | renew _ => True
  | _ => False

/-- Whether a poll makes a change whatever comes to it. -/
def IsUpkeep : SubscriptionChange → Prop
  | keep _ | tell | drop _ | renew _ => True
  | _ => False

/-- Whether a change subscribes to a device at most if it is not subscribed to. -/
def IsMild : SubscriptionChange → Prop
  | keep _ | seek _ _ => True
  | _ => False

/-- Whether a graph makes a change without being called to subscribe or unsubscribe. -/
def IsOwn : SubscriptionChange → Prop
  | seek _ _ => True
  | e => e.IsUpkeep

/-- Whether a lease that comes from outside with a change is one of some. -/
def Grants (may : Lease → Prop) : SubscriptionChange → Prop
  | enter _ _ lease _ => may lease
  | addPattern p => may p.lease
  | _ => True

theorem IsSilent.isBeside : (e : SubscriptionChange) → e.IsSilent → e.IsBeside
  | keep _, silent => silent ▸ isBeside_silent

theorem IsBeside.isUpkeep : (e : SubscriptionChange) → e.IsBeside → e.IsUpkeep
  | keep _, _ => trivial

theorem IsEnding.isUpkeep {how : Lifecycle} : (e : SubscriptionChange) → e.IsEnding how → e.IsUpkeep
  | keep _, _ | drop _, _ => trivial

theorem IsRenewal.isUpkeep : (e : SubscriptionChange) → e.IsRenewal → e.IsUpkeep
  | renew _, _ => trivial

theorem IsBeside.isMild : (e : SubscriptionChange) → e.IsBeside → e.IsMild
  | keep _, _ => trivial

theorem IsFounding.isMild : (e : SubscriptionChange) → e.IsFounding → e.IsMild
  | keep _, _ | seek _ _, _ => trivial

theorem IsMild.isOwn : (e : SubscriptionChange) → e.IsMild → e.IsOwn
  | keep _, _ | seek _ _, _ => trivial

theorem IsUpkeep.isOwn : (e : SubscriptionChange) → e.IsUpkeep → e.IsOwn
  | keep _, _ | tell, _ | drop _, _ | renew _, _ => trivial

theorem IsOwn.grants {may : Lease → Prop} : (e : SubscriptionChange) → e.IsOwn → e.Grants may
  | keep _, _ | tell, _ | seek _ _, _ | drop _, _ | renew _, _ => trivial

end SubscriptionChange

/-- A chain of changes of some sort from a graph to another, and what was said on the way. -/
inductive SubscriptionChanges {α : Type} (sort : SubscriptionChange → Prop) :
    Graph α → List Notification → Graph α → Prop
  | done (g : Graph α) : SubscriptionChanges sort g [] g
  | next {e : SubscriptionChange} {g h k : Graph α} {more : List Notification} (fits : sort e)
      (does : e.Does g h) (rest : SubscriptionChanges sort h more k) :
      SubscriptionChanges sort g (e.said ++ more) k

namespace SubscriptionChanges

variable {α : Type} {sort other : SubscriptionChange → Prop} {g h k : Graph α}
  {said more : List Notification}

theorem one {e : SubscriptionChange} (fits : sort e) (does : e.Does g h) :
    SubscriptionChanges sort g e.said h :=
  List.append_nil e.said ▸ SubscriptionChanges.next fits does (.done h)

theorem trans (first : SubscriptionChanges sort g said h)
    (second : SubscriptionChanges sort h more k) :
    SubscriptionChanges sort g (said ++ more) k := by
  induction first with
  | done g => exact second
  | next fits does _ ih => exact List.append_assoc .. ▸ .next fits does (ih second)

theorem mono (weaker : ∀ e, sort e → other e) (changes : SubscriptionChanges sort g said h) :
    SubscriptionChanges other g said h := by
  induction changes with
  | done g => exact .done g
  | next fits does _ ih => exact .next (weaker _ fits) does ih

theorem notifications (untold : ∀ e, sort e → e ≠ .tell)
    (changes : SubscriptionChanges sort g said h) : h.notifications = g.notifications ++ said := by
  induction changes with
  | done g => exact (List.append_nil _).symm
  | @next e g h k more fits does _ ih =>
      have left : e.left g = g.notifications := by
        cases e with
        | tell => exact absurd rfl (untold _ fits)
        | _ => rfl
      rw [ih, does.notifications, left, List.append_assoc]

theorem tells {Q : Notification → Prop}
    (each : ∀ e, sort e → ∀ note ∈ e.said, Q note) (changes : SubscriptionChanges sort g said h) :
    ∀ note ∈ said, Q note := by
  induction changes with
  | done g => simp
  | next fits _ _ ih =>
      intro note member
      exact (List.mem_append.mp member).elim (each _ fits note) (ih note)

/-- What each change of a sort keeps, a chain of them keeps. -/
theorem keeps {P : Graph α → Prop} (changes : SubscriptionChanges sort g said h)
    (each : ∀ {e : SubscriptionChange} {g h : Graph α}, sort e → e.Does g h → P g → P h)
    (start : P g) : P h := by
  induction changes with
  | done g => exact start
  | next fits does _ ih => exact ih (each fits does start)

end SubscriptionChanges

/-- Whether a chain of changes of some sort leads from a graph to another. -/
def Graph.Tends {α : Type} (sort : SubscriptionChange → Prop) (g h : Graph α) : Prop :=
  ∃ said, SubscriptionChanges sort g said h

namespace Graph

variable {α σ : Type} {sort other : SubscriptionChange → Prop} {g h k : Graph α}

namespace Tends

theorem refl (g : Graph α) : Tends sort g g := ⟨[], .done g⟩

theorem trans (first : Tends sort g h) (second : Tends sort h k) : Tends sort g k := by
  obtain ⟨said, before⟩ := first
  obtain ⟨more, after⟩ := second
  exact ⟨said ++ more, before.trans after⟩

instance : IsPreorder (Graph α) (Tends sort) where
  refl := refl
  trans _ _ _ := trans

theorem mono (weaker : ∀ e, sort e → other e) : Tends sort g h → Tends other g h
  | ⟨said, changes⟩ => ⟨said, changes.mono weaker⟩

theorem one {e : SubscriptionChange} (fits : sort e) (does : e.Does g h) : Tends sort g h :=
  ⟨_, .one fits does⟩

/-- What all that changes of a sort say is like, what is new after a chain of them is like. -/
theorem tells {Q : Notification → Prop} (tends : Tends sort g h) (untold : ∀ e, sort e → e ≠ .tell)
    (each : ∀ e, sort e → ∀ note ∈ e.said, Q note) : ∀ note ∈ g.news h, Q note := by
  obtain ⟨said, changes⟩ := tends
  rw [news, changes.notifications untold, List.drop_left]
  exact changes.tells each

theorem keeps {P : Graph α → Prop} (tends : Tends sort g h)
    (each : ∀ {e : SubscriptionChange} {g h : Graph α}, sort e → e.Does g h → P g → P h)
    (start : P g) : P h := by
  obtain ⟨said, changes⟩ := tends
  exact changes.keeps each start

end Tends

namespace SameBook

/-- What leaves subscriptions alone may say something. -/
theorem tends (same : g.SameBook h) (said : List Notification) (fits : sort (.keep said))
    (notifications : h.notifications = g.notifications ++ said) : Tends sort g h :=
  .one fits ⟨⟨h, same, rfl⟩, notifications⟩

theorem silent (same : g.SameBook h) (fits : sort (.keep []))
    (notifications : h.notifications = g.notifications) : Tends sort g h :=
  same.tends [] fits (notifications.trans (List.append_nil _).symm)

end SameBook

theorem renewDevice_aside (g : Graph α) (device : ObjectId) :
    IsAside g (g.renewDevice device) := by
  simp only [renewDevice]
  cases g.subscription? device with
  | none => exact .refl g
  | some s =>
      have looked := renewOne_aside g s
      dsimp only
      split <;> rename_i same <;> rw [same] at looked <;>
        exact looked.trans ⟨⟨rfl, rfl, rfl⟩, rfl, rfl⟩

/-- What is done to subscriptions is beside the records. -/
theorem after_aside (g : Graph α) (e : SubscriptionChange) : IsAside g (e.after g) := by
  cases e with
  | keep said => exact .refl g
  | tell => exact .refl g
  | seek device how => exact autosubscribe_aside g device
  | enter device categories lease pattern =>
      exact subscribeDevice_aside g device categories lease pattern
  | cancel device => exact unsubscribeDevice_aside g device
  | renew device => exact renewDevice_aside g device
  | drop device => exact ⟨⟨rfl, rfl, rfl⟩, rfl, rfl⟩
  | addPattern p => exact ⟨⟨rfl, rfl, rfl⟩, rfl, rfl⟩
  | dropPattern glob => exact ⟨⟨rfl, rfl, rfl⟩, rfl, rfl⟩

theorem Tends.config (tends : Tends sort g h) : h.config = g.config := by
  refine tends.keeps (P := fun k => k.config = g.config) (fun _ does kept => ?_) rfl
  obtain ⟨k, same, rfl⟩ := does.book
  exact (after_aside k _).config.trans (same.config.trans kept)

theorem Tends.sameBook (tends : Tends SubscriptionChange.IsBeside g h) : SameBook g h := by
  obtain ⟨said, changes⟩ := tends
  induction changes with
  | done g => exact .refl g
  | @next e _ _ _ _ fits does _ ih =>
      obtain ⟨k, same, rfl⟩ := does.book
      cases e with
      | keep said => exact same.trans ih
      | _ => exact fits.elim

end Graph

end SignalGraph
