import SignalGraph.Graph.Basic

/-! # Subscriptions of a graph

Subscribing, ending and renewing. A request that is refused is kept and repeated at the next poll.
-/

namespace SignalGraph.Graph

variable {α : Type}

def subscription? (g : Graph α) (device : ObjectId) : Option Subscription :=
  g.subscriptions.get? device

def leaseSeconds (g : Graph α) : Lease → UInt32
  | .renewing => g.config.autorenewIntervalSecs
  | .seconds n => n
  | .cancel => 0

/-- Asks for what a subscription says. Once the request is taken the lease runs from now; else the
    subscription is pending. -/
def request (g : Graph α) (s : Subscription) : Graph α × Subscription :=
  let seconds := g.leaseSeconds s.lease
  match g.wire.request ⟨s.device, s.categories, seconds⟩ with
  | (true, wire) =>
    ({ g with wire },
      { s with pending := false, expires := some (g.now.shift (.ofInt seconds.toNat)) })
  | (false, wire) => ({ g with wire }, { s with pending := true })

def dropSubscription (g : Graph α) (device : ObjectId) : Graph α :=
  { g with subscriptions := g.subscriptions.erase device }

/-- Subscribes to a device, in place of what was subscribed to before. -/
def subscribeDevice (g : Graph α) (device : ObjectId) (categories : Categories) (lease : Lease)
    (pattern : Option String) : Graph α :=
  let (g, s) := g.request ⟨device, categories, lease, none, true, pattern⟩
  { g with subscriptions := g.subscriptions.insert device s }

def dropPattern (g : Graph α) (glob : String) : Graph α :=
  { g with patterns := g.patterns.filter fun p => p.glob ≠ glob }

/-- Registers a pattern behind the others, in place of one with the same glob. -/
def addPattern (g : Graph α) (p : PatternSubscription) : Graph α :=
  let g := g.dropPattern p.glob
  { g with patterns := g.patterns ++ [p] }

def unsubscribeDevice (g : Graph α) (device : ObjectId) : Graph α :=
  match g.subscription? device with
  | none => g
  | some s =>
    let g := g.dropSubscription device
    let (_, wire) := g.wire.request ⟨device, s.categories, 0⟩
    { g with wire }

/-- Ends a subscription; with a pattern, those that come from it. -/
def unsubscribe (g : Graph α) : SubscriptionTarget → Graph α
  | .device id => g.unsubscribeDevice id
  | .pattern glob =>
    let tagged := g.subscriptions.values.filter fun s => s.pattern = some glob
    (tagged.map Subscription.device).foldl unsubscribeDevice (g.dropPattern glob)

/-- Subscribes to a device, or to those whose names match a pattern, now and later. A lease that
    cancels ends the subscription. -/
def subscribe (g : Graph α) (target : SubscriptionTarget) (categories : Categories)
    (lease : Lease) : Graph α :=
  if lease = .cancel then g.unsubscribe target
  else
    match target with
    | .device id => g.subscribeDevice id categories lease none
    | .pattern glob =>
      let g := g.addPattern ⟨glob, categories, lease⟩
      let matching := (g.store.live .device).filter fun r => r.name?.any (Text.matchesGlob glob)
      matching.foldl (fun g r => g.subscribeDevice r.id categories lease (some glob)) g

/-- Whether a pattern covers a device that has just come or changed; one without a name is covered
    by the pattern for all names alone. -/
def covers (p : PatternSubscription) : Option String → Bool
  | some name => Text.matchesGlob p.glob name
  | none => p.glob = "*"

/-- Subscribes to a device by the first pattern that covers it, unless it is subscribed to. -/
def autosubscribe (g : Graph α) (device : ObjectId) : Graph α :=
  if (g.subscription? device).isSome then g
  else
    let name := (g.store.find? device).bind Record.name?
    match g.patterns.find? fun p => covers p name with
    | some p => g.subscribeDevice device p.categories p.lease (some p.glob)
    | none => g

/-- What becomes of a subscription when leases are looked over: a pending one is asked for again,
    one to be renewed too, shortly before it runs out, and one for a time is dropped after it. -/
def renewOne (g : Graph α) (s : Subscription) : Graph α × Option Subscription :=
  let again := (g.request s).map id some
  if s.pending then again
  else
    match s.expires, s.lease with
    | some expires, .renewing =>
      let margin : Double := .ofInt g.config.renewMarginSecs.toNat
      if g.now.hasElapsed (expires.shift margin.neg) .zero then again else (g, some s)
    | some expires, .seconds _ => if expires ≤ g.now then (g, none) else (g, some s)
    | _, _ => (g, some s)

/-- Looks over the lease of one device, and keeps what is left of the subscription. -/
def renewNext (looked : Graph α × Directory Subscription) (next : ObjectId × Subscription) :
    Graph α × Directory Subscription :=
  match looked.1.renewOne next.2 with
  | (g, some s) => (g, looked.2.insert next.1 s)
  | (g, none) => (g, looked.2)

def renewSubscriptions (g : Graph α) : Graph α :=
  let (g, kept) := g.subscriptions.entries.foldl renewNext (g, Directory.empty)
  { g with subscriptions := kept }

end SignalGraph.Graph
