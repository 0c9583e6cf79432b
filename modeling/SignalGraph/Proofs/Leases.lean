import SignalGraph.Proofs.Clock
import SignalGraph.Proofs.EndedSubscriptions
import SignalGraph.Proofs.Requests

/-! # Looking over leases

A poll looks over each subscription once, and leaves it as if it were the only one. Which of the
requests are refused is up to the wire. When a subscription runs out is a time that a number can tell,
so that the margin is taken off exactly.
-/

namespace SignalGraph

/-- Whether no more than some seconds are left until a time. -/
def Timetag.isNear (t now : Timetag) (margin : Nat) : Bool := t.ticks ≤ now.ticks + margin * 2 ^ 32

namespace Subscription

/-- Whether a subscription is to be asked for: the last request was refused, or it is to be renewed
    and has no more than some seconds left. -/
def isDue (s : Subscription) (now : Timetag) (margin : Nat) : Bool :=
  s.pending || s.lease = .renewing && s.expires.any (·.isNear now margin)

/-- Whether a number can tell when a subscription runs out. -/
def IsDated (s : Subscription) : Prop := ∀ t, s.expires = some t → Binary.IsShort t.ticks

end Subscription

namespace Graph

variable {α : Type} {g h k : Graph α} {device : ObjectId} {s t : Subscription} {config : Config}
  {order first second : List ObjectId}

/-- What becomes of a subscription when it is asked for. -/
def answered (g : Graph α) (taken : Bool) (s : Subscription) : Subscription :=
  if taken then
    { s with
      pending := false
      expires := some (g.now.shift (.ofInt (g.leaseSeconds s.lease).toNat)) }
  else { s with pending := true }

/-- The request that the subscription to a device makes. -/
def requestFor (g : Graph α) (device : ObjectId) : Option SubscriptionRequest :=
  (g.subscription? device).map fun s => ⟨device, s.categories, g.leaseSeconds s.lease⟩

def isDue (g : Graph α) (device : ObjectId) : Bool :=
  (g.subscription? device).any fun s => s.isDue g.now g.config.renewMarginSecs.toNat

/-- The devices among some that are asked for, in order. -/
def due (g : Graph α) (order : List ObjectId) : List ObjectId := order.filter g.isDue

/-- Those of them for which the wire refuses the request. -/
def refused (g : Graph α) (order : List ObjectId) : List ObjectId :=
  (g.due order).take g.wire.failingSends

def granted (g : Graph α) (order : List ObjectId) : List ObjectId :=
  (g.due order).drop g.wire.failingSends

/-- Whether something is what is left of a subscription whose request, if there is one, is taken or
    not. -/
structure Treats (g : Graph α) (taken : Bool) (s : Subscription) (left : Option Subscription) :
    Prop where
  due : s.isDue g.now g.config.renewMarginSecs.toNat → left = some (g.answered taken s)
  lapsed : s.IsLapsed g.now → left = none
  stays : ¬s.isDue g.now g.config.renewMarginSecs.toNat → ¬s.IsLapsed g.now → left = some s

/-- Whether a graph differs from another in that the leases of some devices, in some order, have
    been looked over, and nothing else. -/
structure LooksOver (g : Graph α) (order : List ObjectId) (h : Graph α) : Prop where
  entries : ∀ device ∈ order, ∀ s, g.subscription? device = some s →
    g.Treats (device ∉ g.refused order) s (h.subscription? device)
  others : ∀ device, device ∉ order ∨ g.subscription? device = none →
    h.subscription? device = g.subscription? device
  rest : ∃ subscriptions, h = { g with
    subscriptions
    wire := { g.wire with
      requests := g.wire.requests ++ (g.granted order).filterMap g.requestFor
      failingSends := g.wire.failingSends - (g.due order).length } }

/-! ## One subscription -/

theorem request_eq (g : Graph α) (s : Subscription) :
    g.request s = ({ g with wire := { g.wire with
        requests := g.wire.requests ++ if g.wire.failingSends = 0 then
          [⟨s.device, s.categories, g.leaseSeconds s.lease⟩] else []
        failingSends := g.wire.failingSends - 1 } },
      g.answered (g.wire.failingSends = 0) s) := by
  simp only [request, Wire.request, Wire.takeFailure]
  cases failing : g.wire.failingSends with
  | zero => simp [answered, failing]
  | succ n => simp [answered]

theorem not_isDue_of_lapsed {now : Timetag} {margin : Nat} (lapsed : s.IsLapsed now) :
    ¬s.isDue now margin := by
  obtain ⟨n, timed⟩ := lapsed.timed
  simp [Subscription.isDue, lapsed.taken, timed]

theorem isDue_of_held (held : g.subscription? device = some s) :
    g.isDue device = s.isDue g.now g.config.renewMarginSecs.toNat := by
  rw [isDue, held]
  rfl

theorem LooksOver.ask (held : g.subscription? device = some s) (own : s.device = device)
    (due : s.isDue g.now g.config.renewMarginSecs.toNat) :
    LooksOver g [device] (g.ask device s) := by
  have dueHere : g.due [device] = [device] := by simp [Graph.due, isDue_of_held held, due]
  have answer : decide (device ∉ g.refused [device]) = decide (g.wire.failingSends = 0) := by
    rw [refused, dueHere]
    cases g.wire.failingSends <;> simp
  refine ⟨fun other member t there => ?_, fun other unheld => ?_, ?_⟩
  · obtain rfl := List.mem_singleton.mp member
    obtain rfl := Option.some.inj (there.symm.trans held)
    rw [subscription?_ask, if_pos rfl, request_eq, answer]
    exact ⟨fun _ => rfl, fun lapsed => absurd due (not_isDue_of_lapsed lapsed),
      fun early => absurd due early⟩
  · have apart : device ≠ other := by
      rintro rfl
      simp [held] at unheld
    rw [subscription?_ask, if_neg apart]
  · refine ⟨(g.ask device s).subscriptions, ?_⟩
    simp only [Graph.ask, request_eq, granted, dueHere]
    cases g.wire.failingSends <;> simp [requestFor, held, own]

/-- While nothing is asked for, the wire stays. -/
theorem LooksOver.idle {table : Directory Subscription} (early : ¬g.isDue device)
    (entry : ∀ s, g.subscription? device = some s → g.Treats true s (table.get? device))
    (others : ∀ other, other ≠ device ∨ g.subscription? other = none →
      table.get? other = g.subscription? other) :
    LooksOver g [device] { g with subscriptions := table } := by
  have none : g.due [device] = [] := by simp [due, early]
  refine ⟨fun other member s held => ?_, fun other unheld => others other ?_, table, ?_⟩
  · obtain rfl := List.mem_singleton.mp member
    have taken : decide (other ∉ g.refused [other]) = true := by simp [refused, none]
    rw [taken]
    exact entry s held
  · exact unheld.imp_left fun apart same => apart (List.mem_singleton.mpr same)
  · simp [granted, none]

theorem LooksOver.drop (held : g.subscription? device = some s) (lapsed : s.IsLapsed g.now) :
    LooksOver g [device] (g.dropSubscription device) := by
  have early : ¬s.isDue g.now g.config.renewMarginSecs.toNat := not_isDue_of_lapsed lapsed
  refine .idle (isDue_of_held held ▸ early) (fun t there => ?_) fun other unheld => ?_
  · obtain rfl := Option.some.inj (there.symm.trans held)
    rw [Directory.get?_erase, if_pos rfl]
    exact ⟨fun due => absurd due early, fun _ => rfl, fun _ lasting => absurd lapsed lasting⟩
  · have apart : device ≠ other := by
      rintro rfl
      simp [held] at unheld
    exact (g.subscription?_dropSubscription device other).trans (if_neg apart)

theorem LooksOver.leave (entry : ∀ s, g.subscription? device = some s →
    ¬s.isDue g.now g.config.renewMarginSecs.toNat ∧ ¬s.IsLapsed g.now) :
    LooksOver g [device] g := by
  have early : ¬g.isDue device := by
    intro due
    obtain ⟨s, held, due⟩ := (Option.any_eq_true _ _).mp due
    exact (entry s held).1 due
  refine LooksOver.idle early (fun s held => ?_) fun _ _ => rfl
  obtain ⟨early, lasting⟩ := entry s held
  exact ⟨fun due => absurd due early, fun lapsed => absurd lapsed lasting, fun _ _ => held⟩

theorem leaseSeconds_congr (config : h.config = g.config) : h.leaseSeconds = g.leaseSeconds := by
  funext lease
  cases lease with
  | renewing => rw [leaseSeconds, leaseSeconds, config]
  | seconds n => rfl
  | cancel => rfl

theorem Treats.congr {taken : Bool} {left : Option Subscription} (treats : h.Treats taken s left)
    (now : h.now = g.now) (config : h.config = g.config) : g.Treats taken s left := by
  have answer : h.answered taken s = g.answered taken s := by
    rw [answered, answered, now, leaseSeconds_congr config]
  obtain ⟨due, lapsed, stays⟩ := treats
  rw [now] at lapsed
  rw [now, config] at due stays
  rw [answer] at due
  exact ⟨due, lapsed, stays⟩

theorem mem_of_refused (refused : device ∈ g.refused order) : device ∈ order :=
  List.mem_of_mem_filter (List.mem_of_mem_take refused)

/-- To look over some devices and then others is to look over them all. -/
theorem LooksOver.append (before : LooksOver g first h) (after : LooksOver h second k)
    (apart : ∀ device ∈ first, device ∉ second) : LooksOver g (first ++ second) k := by
  have same (device : ObjectId) (member : device ∈ second) :
      h.subscription? device = g.subscription? device :=
    before.others device (.inl fun there => apart device there member)
  obtain ⟨table, rest⟩ := before.rest
  have now : h.now = g.now := by
    rw [rest]
    rfl
  have config : h.config = g.config := by rw [rest]
  have failing : h.wire.failingSends = g.wire.failingSends - (g.due first).length := by rw [rest]
  have dueLater : h.due second = g.due second := by
    refine List.filter_congr fun device member => ?_
    rw [isDue, isDue, same device member, now, config]
  have dueAll : g.due (first ++ second) = g.due first ++ h.due second := by
    rw [dueLater, due, due, due, List.filter_append]
  have refusedAll : g.refused (first ++ second) = g.refused first ++ h.refused second := by
    rw [refused, dueAll, List.take_append, refused, refused, failing]
  have grantedAll : g.granted (first ++ second) = g.granted first ++ h.granted second := by
    rw [granted, dueAll, List.drop_append, granted, granted, failing]
  refine ⟨fun device member s held => ?_, fun device unheld => ?_, ?_⟩
  · rw [refusedAll]
    rcases List.mem_append.mp member with early | late
    · have never : device ∉ h.refused second :=
        fun later => apart device early (mem_of_refused later)
      rw [after.others device (.inl (apart device early))]
      simpa [never] using before.entries device early s held
    · have never : device ∉ g.refused first :=
        fun sooner => apart device (mem_of_refused sooner) late
      have treats := after.entries device late s ((same device late).trans held)
      simpa [never] using treats.congr now config
  · have apart : (device ∉ first ∨ g.subscription? device = none) ∧
        (device ∉ second ∨ g.subscription? device = none) := by
      simpa only [List.mem_append, not_or, and_or_right] using unheld
    have sooner := before.others device apart.1
    exact (after.others device (sooner ▸ apart.2)).trans sooner
  · obtain ⟨later, last⟩ := after.rest
    have asked : (h.granted second).filterMap h.requestFor =
        (h.granted second).filterMap g.requestFor := by
      refine List.filterMap_congr fun device member => ?_
      have there := List.mem_of_mem_filter (List.mem_of_mem_drop member)
      rw [requestFor, requestFor, same device there, leaseSeconds_congr config]
    refine ⟨later, ?_⟩
    rw [asked] at last
    rw [grantedAll, dueAll, List.filterMap_append, List.length_append, ← List.append_assoc,
      ← Nat.sub_sub, last]
    generalize (h.granted second).filterMap g.requestFor = requests
    generalize (h.due second).length = attempts
    rw [rest]

theorem isDated_answered (taken : Bool) (dated : s.IsDated) : (g.answered taken s).IsDated := by
  cases taken with
  | false => exact dated
  | true =>
      intro expires ends
      obtain rfl := Option.some.inj ends
      exact Timetag.isShort_shift _ _

/-- Whether numbers can tell when the subscriptions run out. -/
def Dated (g : Graph α) : Prop := ∀ device s, g.subscription? device = some s → s.IsDated

theorem Dated.ask (dated : g.Dated) (own : s.IsDated) : (g.ask device s).Dated := by
  intro other t held
  rw [subscription?_ask, request_eq] at held
  split at held
  · exact Option.some.inj held ▸ isDated_answered _ own
  · exact dated other t held

theorem Dated.less (dated : g.Dated) (entries : ∀ device s, h.subscription? device = some s →
    g.subscription? device = some s) : h.Dated :=
  fun device s held => dated device s (entries device s held)

theorem Dated.drop (dated : g.Dated) (device : ObjectId) : (g.dropSubscription device).Dated := by
  refine dated.less fun other s held => ?_
  rw [subscription?_dropSubscription] at held
  split at held
  · cases held
  · exact held

theorem Dated.enter (dated : g.Dated) (device : ObjectId) (categories : Categories) (lease : Lease)
    (pattern : Option String) : (g.subscribeDevice device categories lease pattern).Dated :=
  dated.ask fun _ ends => by cases ends

theorem Dated.seek (dated : g.Dated) (device : ObjectId) : (g.autosubscribe device).Dated := by
  simp only [autosubscribe]
  split
  · exact dated
  · split
    · exact dated.enter device _ _ _
    · exact dated

theorem Dated.renew (dated : g.Dated) (device : ObjectId) : (g.renewDevice device).Dated := by
  rcases g.renewDevice_cases device with stays | lapsed | ⟨s, held, again⟩
  · exact stays.symm ▸ dated
  · exact lapsed.symm ▸ dated.drop device
  · exact again.symm ▸ dated.ask (dated device s held)

theorem Dated.does {e : SubscriptionChange} (dated : g.Dated) (does : e.Does g h) : h.Dated := by
  obtain ⟨k, same, rfl⟩ := does.book
  replace dated : k.Dated := dated.less fun device s held => same.subscription? device ▸ held
  cases e with
  | seek device how => exact dated.seek device
  | enter device categories lease pattern => exact dated.enter device categories lease pattern
  | cancel device =>
      refine dated.less fun other s held => ?_
      rw [SubscriptionChange.after, subscription?_unsubscribeDevice] at held
      split at held
      · cases held
      · exact held
  | drop device => exact dated.drop device
  | renew device => exact dated.renew device
  | _ => exact dated

theorem Reachable.dated (reachable : Reachable config g) : g.Dated := by
  obtain ⟨wire, said, run⟩ := reachable
  have tends : Tends (SubscriptionChange.Grants fun _ => True) (Graph.make wire config) g :=
    run.tends fun _ _ => trivial
  exact tends.keeps (fun _ does dated => dated.does does) fun _ _ held => by cases held

/-! ## Which requests fail -/

/-- The same graph at some time, when so many sends and requests are to fail. -/
def facing (g : Graph α) (clock : Timetag) (failingSends : Nat) : Graph α :=
  { g with wire := { g.wire with clock, failingSends } }

theorem Reachable.facing (reachable : Reachable config g) (clock : Timetag) (failingSends : Nat) :
    Reachable config (g.facing clock failingSends) := by
  have same : g.facing clock failingSends =
      g.call (.network clock [] failingSends g.wire.failingReceives) := by
    simp [Graph.facing, Graph.call, Wire.inject]
  exact same ▸ reachable.call _

end Graph

end SignalGraph
