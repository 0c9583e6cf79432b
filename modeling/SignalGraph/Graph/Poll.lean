import SignalGraph.Graph.Samples

/-! # Polling

One poll takes in what the network has said, takes silent devices for gone, looks over leases, tells
listeners what happened, lets go of records whose time is over, and runs the actions put off. What
listeners do and what actions are is up to the host, with a state of its own.
-/

namespace SignalGraph

/-- The owner of a graph, with a state `σ` of its own. -/
structure Host (α σ : Type) where
  /-- A listener is told something of a record. It may put actions off. -/
  hear : σ → Graph α → Listener → Record → Notification → σ × List α
  act : σ → Graph α → α → σ × Graph α

namespace Graph

variable {α σ : Type}

/-! ## Taking in -/

/-- Takes in one message. What a refused one has done is not undone. -/
def handle (g : Graph α) (event : NetworkEvent) : Graph α :=
  match event with
  | .record type delta => (applyEvent type delta).after g
  | .value update => (applyValue update).after g
  | .sync device => g.touch device

/-- Takes in the messages that wait, at most `limit`, until a reception fails or finds none. Returns
    how many there were. -/
def drain (g : Graph α) : Nat → Graph α × Nat
  | 0 => (g, 0)
  | limit + 1 =>
    match g.wire.receive with
    | (.message event, wire) =>
      let (g, n) := ({ g with wire }.handle event).drain limit
      (g, n + 1)
    | (_, wire) => ({ g with wire }, 0)

/-! ## Looking after -/

/-- Whether a device has been silent for too long. -/
def isStale (g : Graph α) (r : Record) : Bool :=
  match r.wiring with
  | .device synced =>
    let timeout : Double := .ofInt g.config.deviceTimeoutSecs.toNat
    (g.now.since synced).isAbove timeout
  | _ => false

/-- Takes silent devices for gone, if there is a time for that. -/
def expireDevices (g : Graph α) : Graph α :=
  if g.config.deviceTimeoutSecs = 0 then g
  else
    ((g.store.live .device).filter g.isStale).foldl
      (fun g r => (g.remove r.id .expired).1) g

/-! ## Telling -/

/-- Whether a listener wants to hear a notification of a record. -/
def wants (l : Listener) (r : Record) : Notification → Bool
  | .record _ _ =>
    match l.interest with
    | .records categories => categories.intersects r.categories
    | .instances _ => false
  | .pool signal _ =>
    match l.interest with
    | .records _ => false
    | .instances only => only.all (· = signal)

/-- Tells all who want to hear it a notification of a record that is held. -/
def tell (host : Host α σ) (s : σ) (g : Graph α) (note : Notification) : σ × Graph α :=
  match g.store.find? note.subject with
  | none => (s, g)
  | some r =>
    (g.listeners.filter fun l => wants l r note).foldl (fun (s, g) l =>
      let (s, actions) := host.hear s g l r note
      (s, actions.foldl defer g)) (s, g)

/-- Notes that listeners have heard of a record as it is. -/
def observe (g : Graph α) : Notification → Graph α
  | .record id _ => g.modify id ({ · with observedCycle := some g.cycle })
  | .pool _ _ => g

def dispatch (host : Host α σ) (s : σ) (g : Graph α) : σ × Graph α :=
  let notes := g.notifications
  let told := { g with notifications := [] }
  let (s, g) := notes.foldl (fun (s, g) note => tell host s g note) (s, told)
  (s, notes.foldl observe g)

/-! ## Letting go -/

/-- Whether a record can go: its object is gone, listeners heard of that in an earlier poll, and the
    grace period is over. -/
def isDoomed (g : Graph α) (r : Record) : Bool :=
  !r.isLive && r.observedCycle.any (· < g.cycle) &&
    r.terminalAt.any fun t => g.now.hasElapsed t g.config.graceSeconds

def evict (g : Graph α) : Graph α :=
  let doomed := g.store.records.values.filter g.isDoomed
  { g with store := doomed.foldl (fun s r => s.drop r.id r.kind) g.store }

/-! ## Polling -/

def runDeferred (host : Host α σ) (s : σ) (g : Graph α) : σ × Graph α :=
  g.deferred.foldl (fun (s, g) action => host.act s g action) (s, { g with deferred := [] })

/-- One poll; returns how many messages were taken in. -/
def poll (host : Host α σ) (s : σ) (g : Graph α) : σ × Graph α × Nat :=
  let g := { g with cycle := g.cycle + 1 }
  let (g, processed) := g.drain (g.wire.inbox.length + 1)
  let (s, g) := dispatch host s g.expireDevices.renewSubscriptions
  let (s, g) := runDeferred host s g.evict
  (s, g, processed)

end Graph

end SignalGraph
