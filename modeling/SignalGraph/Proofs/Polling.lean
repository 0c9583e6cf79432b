import SignalGraph.Proofs.Lifecycle
import SignalGraph.Proofs.QueueGrowth
import SignalGraph.Proofs.QueueOrder

/-! # Polls in order

What calls and polls do to all that waits in a graph keeps the rules, whatever listeners and actions
do, also where actions poll in turn, and wherever in a poll a reception fails. In particular there is
always a record of which to tell what waits to be told.
-/

namespace SignalGraph

/-- What a call brings that then waits. -/
def Call.brings {α : Type} : Call α → List (Happening α)
  | .network _ arrivals _ _ => arrivals.map .arrived
  | .defer action => [.deferred action]
  | _ => []

/-- Where a message is received, it was the first of those that wait. -/
theorem Wire.inbox_receive {w wire : Wire} {outcome : Wire.Reception}
    (received : w.receive = (outcome, wire)) :
    w.inbox = (match outcome with
      | .message event => [event]
      | .nothing | .failure => []) ++ wire.inbox := by
  simp only [Wire.receive] at received
  split at received <;> cases received
  · rfl
  · rfl
  · assumption

/-- What a host is called to do. -/
inductive Cue (α : Type) where
  | hear (listener : Listener) (record : Record) (note : Notification)
  | act (action : α)
  deriving DecidableEq

/-- A host that does what another does and keeps a list of all that it is called to do. -/
def Host.logged {α σ : Type} (host : Host α σ) : Host α (σ × List (Cue α)) where
  hear x g l r note :=
    let (s, put) := host.hear x.1 g l r note
    ((s, x.2 ++ [.hear l r note]), put)
  act x g action :=
    let (s, g) := host.act x.1 g action
    ((s, x.2 ++ [.act action]), g)

namespace Graph

variable {α σ : Type} {g h : Graph α} {log : List (Happening α)}

/-! ## Logs -/

def agenda (g : Graph α) (running : List (List α)) : Agenda α :=
  ⟨g.wire.inbox, g.notifications, g.deferred, running⟩

def callLog (g : Graph α) (c : Call α) : List (Happening α) :=
  c.brings ++ (g.news (g.call c)).map .queued

/-- What happens while messages are taken in, at most `limit`. -/
def drainLog (g : Graph α) : Nat → List (Happening α)
  | 0 => []
  | limit + 1 =>
    match g.wire.receive with
    | (.message event, wire) =>
      let received := { g with wire }
      let handled := received.handle event
      .handled event :: (received.news handled).map .queued ++ handled.drainLog limit
    | _ => []

/-- Those who are to be told a notification of a record. -/
def audience (g : Graph α) (r : Record) (note : Notification) : List Listener :=
  g.listeners.filter fun l => wants l r note

def announcement (g : Graph α) (note : Notification) : Happening α :=
  match g.store.find? note.subject with
  | some r => .told note (g.audience r note)
  | none => .skipped note

/-- What happens while notifications are told. -/
def tellLog (host : Host α σ) : List Notification → σ → Graph α → List (Happening α)
  | [], _, _ => []
  | note :: notes, s, g =>
    let (s', told) := tell host s g note
    g.announcement note :: (told.deferred.drop g.deferred.length).map .deferred ++
      tellLog host notes s' told

/-- What happens while actions run, if it is known what happens while one does. -/
def runLog (host : Host α σ) (does : σ → Graph α → α → List (Happening α)) :
    List α → σ → Graph α → List (Happening α)
  | [], _, _ => [.finished]
  | action :: actions, s, g =>
    let (s', acted) := host.act s g action
    .ran action :: does s g action ++ runLog host does actions s' acted

/-! ## Polls that break off -/

/-- The graph when a poll has taken in at most `limit` messages. -/
def intakeUpTo (limit : Nat) (g : Graph α) : Graph α :=
  (g.beginPoll.drain limit).1.expireDevices.renewSubscriptions

/-- A poll in which a reception fails, if none did before, after `limit` messages. So also a message
    stays that is there only after the poll has looked for it. -/
def pollUpTo (limit : Nat) (host : Host α σ) (s : σ) (g : Graph α) : σ × Graph α × Nat :=
  let (s, h) := dispatch host s (g.intakeUpTo limit)
  let (s, h) := runDeferred host s h.evict
  (s, h, (g.beginPoll.drain limit).2)

theorem intakeUpTo_all (g : Graph α) : g.intakeUpTo (g.wire.inbox.length + 1) = g.intake := rfl

/-- A poll is one that does not break off before all is taken in. -/
theorem pollUpTo_all (host : Host α σ) (s : σ) (g : Graph α) :
    pollUpTo (g.wire.inbox.length + 1) host s g = poll host s g := rfl

def pollLog (limit : Nat) (host : Host α σ) (does : σ → Graph α → α → List (Happening α)) (s : σ)
    (g : Graph α) : List (Happening α) :=
  let drained := (g.beginPoll.drain limit).1
  let full := g.intakeUpTo limit
  let (s', told) := dispatch host s full
  g.beginPoll.drainLog limit ++ (drained.news full).map .queued ++
    tellLog host full.notifications s full.unsaid ++ [.evicted] ++
    runLog host does told.evict.deferred s' { told.evict with deferred := [] }

/-- What happens between two graphs, and in what order. Actions do what they do by calls and polls of
    their own. -/
inductive Story : Graph α → List (Happening α) → Graph α → Prop
  | refl (g : Graph α) : Story g [] g
  | call {g h : Graph α} {log : List (Happening α)} (before : Story g log h) (c : Call α) :
      Story g (log ++ callLog h c) (h.call c)
  | poll {σ : Type} {g h : Graph α} {log : List (Happening α)} (before : Story g log h)
      (limit : Nat) (host : Host α σ) (s : σ) (does : σ → Graph α → α → List (Happening α))
      (acts : ∀ s g a, Story g (does s g a) (host.act s g a).2) :
      Story g (log ++ pollLog limit host does s h) (pollUpTo limit host s h).2.1

/-! ## Between polls -/

/-- Whether there is a record for all that waits to be told, and listeners stand in the order in
    which they came. -/
structure Ready (g : Graph α) : Prop where
  held : ∀ note ∈ g.notifications, (g.store.find? note.subject).isSome
  ordered : g.listeners.Pairwise fun l m => l.number < m.number
  numbered : ∀ l ∈ g.listeners, l.number < g.nextListener

theorem Ready.make (wire : Wire) (config : Config) : (make wire config : Graph α).Ready :=
  ⟨fun _ none => (by cases none), .nil, fun _ none => (by cases none)⟩

theorem Grows.ready (grows : Grows g h) (ready : g.Ready) : h.Ready := by
  obtain ⟨notifications, about⟩ := grows.news_about
  refine ⟨fun note member => ?_, grows.listeners ▸ ready.ordered, ?_⟩
  · rw [notifications] at member
    rcases List.mem_append.mp member with before | after
    · exact grows.holds _ (ready.held note before)
    · exact about note after
  · rw [grows.listeners, grows.nextListener]
    exact ready.numbered

theorem Grows.steps (grows : Grows g h) (running : List (List α)) :
    Agenda.Steps (g.agenda running) ((g.news h).map .queued) (h.agenda running) := by
  have queued := Agenda.Steps.queue (g.agenda running) (g.news h)
  simp only [agenda, grows.inbox, grows.deferred] at queued ⊢
  rwa [← grows.news_about.1] at queued

theorem call_grows (g : Graph α) (c : Call α) : (c.brings = [] ∧ Grows g (g.call c)) ∨
    (∃ clock arrivals failingSends failingReceives,
      c = .network clock arrivals failingSends failingReceives) ∨
    (∃ interest, c = .listen interest) ∨ (∃ number, c = .unlisten number) ∨
    ∃ action, c = .defer action := by
  cases c with
  | network | listen | unlisten | defer => simp
  | apply type delta => exact .inl ⟨rfl, applyEvent_grows type delta g⟩
  | remove id => exact .inl ⟨rfl, remove_grows g id .removed⟩
  | newMap sources destination => exact .inl ⟨rfl, newMap_grows sources destination g⟩
  | edit id action => exact .inl ⟨rfl, editProperties_grows id action g⟩
  | editSlot map location action => exact .inl ⟨rfl, editSlot_grows map location action g⟩
  | push id => exact .inl ⟨rfl, push_grows id g⟩
  | reserve signal n => exact .inl ⟨rfl, withPool_grows signal (fun _ => Pool.reserve n) g⟩
  | reserveIds signal ids =>
      exact .inl ⟨rfl, withPool_grows signal (fun _ => Pool.reserveIds ids) g⟩
  | update signal slot value =>
      exact .inl ⟨rfl, withPoolEvents_grows signal (sample slot value g.now) g⟩
  | release signal slot =>
      exact .inl ⟨rfl, withPoolEvents_grows signal (fun _ => Pool.release slot .here) g⟩
  | drop signal slot =>
      exact .inl ⟨rfl, withPoolEvents_grows signal (fun _ => Pool.remove slot) g⟩
  | tag signal slot tag => exact .inl ⟨rfl, withPool_grows signal (fun _ => Pool.setTag slot tag) g⟩
  | subscribe target categories lease =>
      exact .inl ⟨rfl, subscribe_grows g target categories lease⟩
  | unsubscribe target => exact .inl ⟨rfl, unsubscribe_grows g target⟩

theorem Ready.listen (ready : g.Ready) (interest : Interest) : (g.listen interest).1.Ready := by
  refine ⟨ready.held, List.pairwise_append.mpr ⟨ready.ordered, List.pairwise_singleton .., ?_⟩, ?_⟩
  · intro l member m last
    exact List.mem_singleton.mp last ▸ ready.numbered l member
  · intro l member
    rcases List.mem_append.mp member with before | last
    · exact Nat.lt_succ_of_lt (ready.numbered l before)
    · exact List.mem_singleton.mp last ▸ Nat.lt_succ_self _

theorem Ready.unlisten (ready : g.Ready) (number : Nat) : (g.unlisten number).1.Ready :=
  ⟨ready.held, ready.ordered.filter _, fun l member => ready.numbered l (List.mem_filter.mp member).1⟩

theorem call_steps (ready : g.Ready) (c : Call α) (running : List (List α)) :
    Agenda.Steps (g.agenda running) (g.callLog c) ((g.call c).agenda running) ∧
      (g.call c).Ready := by
  have quiet (same : (g.call c).notifications = g.notifications) : g.callLog c = c.brings := by
    simp [callLog, news, same]
  rcases call_grows g c with ⟨nothing, grows⟩ | ⟨_, arrivals, _, _, rfl⟩ | ⟨interest, rfl⟩ |
    ⟨number, rfl⟩ | ⟨action, rfl⟩
  · rw [callLog, nothing, List.nil_append]
    exact ⟨grows.steps running, grows.ready ready⟩
  · rw [quiet rfl]
    exact ⟨.arrive (g.agenda running) arrivals, ready.held, ready.ordered, ready.numbered⟩
  · rw [quiet rfl]
    exact ⟨.done _, ready.listen interest⟩
  · rw [quiet rfl]
    exact ⟨.done _, ready.unlisten number⟩
  · rw [quiet rfl]
    exact ⟨.one (.deferred (g.agenda running) action), ready.held, ready.ordered, ready.numbered⟩

/-! ## Taking in -/

theorem Grows.withWire (grows : Grows g h) (wire : Wire) :
    Grows { g with wire } { h with wire } :=
  ⟨grows.holds, grows.said, rfl, grows.deferred, grows.listeners, grows.nextListener⟩

theorem drain_grows (limit : Nat) (g : Graph α) :
    Grows { g with wire := (g.drain limit).1.wire } (g.drain limit).1 := by
  induction limit generalizing g with
  | zero => exact .refl g
  | succ limit ih =>
      rcases same : g.wire.receive with ⟨outcome, wire⟩
      simp only [drain, same]
      cases outcome with
      | message event =>
          have grows := handle_grows { g with wire } event
          exact (grows.withWire _).trans (ih _)
      | nothing | failure => exact .refl _

theorem drain_steps (limit : Nat) (g : Graph α) (running : List (List α)) :
    Agenda.Steps (g.agenda running) (g.drainLog limit) ((g.drain limit).1.agenda running) := by
  induction limit generalizing g with
  | zero => exact .done _
  | succ limit ih =>
      rcases same : g.wire.receive with ⟨outcome, wire⟩
      have inbox := Wire.inbox_receive same
      simp only [drainLog, drain, same]
      cases outcome with
      | message event =>
          have grows := handle_grows { g with wire } event
          exact .next (.handled inbox) ((grows.steps running).trans (ih _))
      | nothing | failure =>
          have left : ({ g with wire } : Graph α).agenda running = g.agenda running := by
            simp only [agenda, inbox, List.nil_append]
          exact left ▸ .done _

theorem arrivals_drainLog (limit : Nat) (g : Graph α) : arrivals (g.drainLog limit) = [] := by
  induction limit generalizing g with
  | zero => rfl
  | succ limit ih =>
      simp only [drainLog]
      split
      · simpa [arrivals] using ih _
      · rfl

/-- What a poll takes in makes a graph grow, but for the messages that it takes. -/
theorem intakeUpTo_grows (limit : Nat) (g : Graph α) :
    Grows { g with wire := (g.beginPoll.drain limit).1.wire } (g.intakeUpTo limit) := by
  have begun : Grows g g.beginPoll := .silent (fun _ held => held) rfl rfl rfl rfl rfl
  exact (begun.withWire _).trans ((drain_grows limit g.beginPoll).trans
    ((expireDevices_grows _).trans (renewSubscriptions_grows _)))

theorem Ready.withWire (ready : g.Ready) (wire : Wire) : ({ g with wire } : Graph α).Ready :=
  ⟨ready.held, ready.ordered, ready.numbered⟩

theorem Ready.intakeUpTo (ready : g.Ready) (limit : Nat) : (g.intakeUpTo limit).Ready :=
  (intakeUpTo_grows limit g).ready (ready.withWire _)

/-! ## Telling -/

theorem foldl_defer (actions : List α) (g : Graph α) :
    actions.foldl defer g = { g with deferred := g.deferred ++ actions } := by
  induction actions generalizing g with
  | nil => simp
  | cons action actions ih => rw [List.foldl_cons, ih, defer, List.append_assoc]; rfl

/-- To tell a notification does no more to a graph than that listeners put actions off. -/
theorem tell_eq (host : Host α σ) (s : σ) (g : Graph α) (note : Notification) :
    ∃ s' put, tell host s g note = (s', { g with deferred := g.deferred ++ put }) := by
  simp only [tell]
  split
  · exact ⟨s, [], by rw [List.append_nil]⟩
  · refine List.foldlRecOn _ _ (motive := fun x : σ × Graph α =>
      ∃ s' put, x = (s', { g with deferred := g.deferred ++ put }))
      ⟨s, [], by rw [List.append_nil]⟩ ?_
    rintro _ ⟨s', put, rfl⟩ l -
    exact ⟨_, put ++ _, by rw [foldl_defer, List.append_assoc]⟩

/-- All is told of which there is a record, and listeners put actions off. -/
theorem tellAll_steps (host : Host α σ) (running : List (List α)) (notes : List Notification)
    (s : σ) (held : ∀ note ∈ notes, (g.store.find? note.subject).isSome)
    (ordered : g.listeners.Pairwise fun l m => l.number < m.number) :
    ∃ put, (notes.foldl (fun x note => tell host x.1 x.2 note) (s, g)).2 =
        { g with deferred := g.deferred ++ put } ∧
      Agenda.Steps ⟨g.wire.inbox, notes, g.deferred, running⟩ (tellLog host notes s g)
        ⟨g.wire.inbox, [], g.deferred ++ put, running⟩ := by
  induction notes generalizing s g with
  | nil => exact ⟨[], by simp, by simpa [tellLog] using Agenda.Steps.done _⟩
  | cons note notes ih =>
      obtain ⟨s', put, told⟩ := tell_eq host s g note
      obtain ⟨r, found⟩ := Option.isSome_iff_exists.mp (held note List.mem_cons_self)
      obtain ⟨more, rest, steps⟩ := ih (g := { g with deferred := g.deferred ++ put }) s'
        (fun later member => held later (List.mem_cons_of_mem _ member)) ordered
      have announced : g.announcement note = .told note (g.audience r note) := by
        simp only [announcement, found]
      simp only [List.append_assoc] at rest steps
      refine ⟨put ++ more, ?_, ?_⟩
      · rw [List.foldl_cons, told, rest]
      · simp only [tellLog, told, announced, List.drop_left]
        exact .next (.told rfl (ordered.filter _)) (.trans (.defer _ put) steps)

theorem dispatch_steps (ready : g.Ready) (host : Host α σ) (s : σ) (running : List (List α)) :
    Agenda.Steps (g.agenda running) (tellLog host g.notifications s g.unsaid)
        ((dispatch host s g).2.agenda running) ∧
      (dispatch host s g).2.notifications = [] ∧ (dispatch host s g).2.Ready ∧
      g.deferred <+: (dispatch host s g).2.deferred := by
  obtain ⟨put, told, steps⟩ := tellAll_steps (g := g.unsaid) host running g.notifications s
    ready.held ready.ordered
  obtain ⟨store, observed⟩ := observeAll_eq g.notifications
    (g.notifications.foldl (fun x note => tell host x.1 x.2 note) (s, g.unsaid)).2
  have dispatched : (dispatch host s g).2 = _ := observed
  rw [dispatched, told]
  exact ⟨steps, rfl, ⟨fun _ none => (by cases none), ready.ordered, ready.numbered⟩,
    List.prefix_append ..⟩

/-! ## Stories -/

theorem runLog_steps {host : Host α σ} {does : σ → Graph α → α → List (Happening α)}
    (acts : ∀ s g a, g.Ready → ∀ running, Agenda.Steps (g.agenda running) (does s g a)
      ((host.act s g a).2.agenda running) ∧ (host.act s g a).2.Ready)
    (actions : List α) (s : σ) (ready : g.Ready) (running : List (List α)) :
    Agenda.Steps (g.agenda (actions :: running)) (runLog host does actions s g)
        ((actions.foldl (fun x action => host.act x.1 x.2 action) (s, g)).2.agenda running) ∧
      (actions.foldl (fun x action => host.act x.1 x.2 action) (s, g)).2.Ready := by
  induction actions generalizing s g with
  | nil => exact ⟨.one (.finished rfl), ready⟩
  | cons action actions ih =>
      obtain ⟨acted, readyThen⟩ := acts s g action ready (actions :: running)
      obtain ⟨rest, readyLast⟩ := ih (host.act s g action).1 readyThen
      exact ⟨.next (.ran rfl) (acted.trans rest), readyLast⟩

theorem poll_steps {host : Host α σ} {does : σ → Graph α → α → List (Happening α)}
    (acts : ∀ s g a, g.Ready → ∀ running, Agenda.Steps (g.agenda running) (does s g a)
      ((host.act s g a).2.agenda running) ∧ (host.act s g a).2.Ready)
    (limit : Nat) (s : σ) (ready : g.Ready) (running : List (List α)) :
    Agenda.Steps (g.agenda running) (pollLog limit host does s g)
        ((pollUpTo limit host s g).2.1.agenda running) ∧ (pollUpTo limit host s g).2.1.Ready := by
  have drains := drain_steps limit g.beginPoll running
  have grows : Grows (g.beginPoll.drain limit).1 (g.intakeUpTo limit) :=
    (expireDevices_grows _).trans (renewSubscriptions_grows _)
  obtain ⟨tells, quiet, told, -⟩ := dispatch_steps (ready.intakeUpTo limit) host s running
  simp only [pollLog, pollUpTo, runDeferred]
  generalize dispatch host s (g.intakeUpTo limit) = x at tells quiet told ⊢
  have evicts : Agenda.Steps (x.2.agenda running) [.evicted]
      (({ x.2.evict with deferred := [] } : Graph α).agenda (x.2.evict.deferred :: running)) :=
    .one (.evicted quiet)
  have evicted : ({ x.2.evict with deferred := [] } : Graph α).Ready :=
    ⟨fun note waits => absurd (quiet ▸ waits) List.not_mem_nil, told.ordered, told.numbered⟩
  obtain ⟨runs, last⟩ := runLog_steps acts x.2.evict.deferred x.1 evicted running
  exact ⟨(((drains.trans (grows.steps running)).trans tells).trans evicts).trans runs, last⟩

/-- A log of what happens keeps the rules, and there is a record for all that waits to be told. -/
theorem Story.steps (story : Story g log h) (ready : g.Ready) (running : List (List α)) :
    Agenda.Steps (g.agenda running) log (h.agenda running) ∧ h.Ready := by
  -- The actions of a poll tell stories too, while the rest of those it took waits to run.
  induction story generalizing running with
  | refl g => exact ⟨.done _, ready⟩
  | call before c ih =>
      obtain ⟨steps, readyThen⟩ := ih ready running
      obtain ⟨called, readyLast⟩ := call_steps readyThen c running
      exact ⟨steps.trans called, readyLast⟩
  | poll before limit host s does acts ih ihActs =>
      obtain ⟨steps, readyThen⟩ := ih ready running
      obtain ⟨polled, readyLast⟩ := poll_steps ihActs limit s readyThen running
      exact ⟨steps.trans polled, readyLast⟩

/-! ## What a host is called to do -/

/-- The calls to hear a notification: one for each listener that wants to, in their order. -/
def hearings (g : Graph α) (note : Notification) : List (Cue α) :=
  match g.store.find? note.subject with
  | some r => (g.audience r note).map fun l => .hear l r note
  | none => []

/-- To keep a list beside what is done changes nothing of it. -/
theorem foldl_logged {β : Type} (f : σ × Graph α → β → σ × Graph α) (cue : β → Cue α)
    (items : List β) (s : σ) (cues : List (Cue α)) (g : Graph α) :
    items.foldl (fun (x : (σ × List (Cue α)) × Graph α) b =>
        (((f (x.1.1, x.2) b).1, x.1.2 ++ [cue b]), (f (x.1.1, x.2) b).2)) ((s, cues), g) =
      (((items.foldl f (s, g)).1, cues ++ items.map cue), (items.foldl f (s, g)).2) := by
  induction items generalizing s cues g with
  | nil => simp
  | cons b items ih => rw [List.foldl_cons, ih, List.foldl_cons, List.map_cons, List.append_assoc]; rfl

theorem tell_logged (host : Host α σ) (s : σ) (cues : List (Cue α)) (g : Graph α)
    (note : Notification) : tell host.logged (s, cues) g note =
      (((tell host s g note).1, cues ++ g.hearings note), (tell host s g note).2) := by
  simp only [tell, hearings, audience]
  cases g.store.find? note.subject with
  | none => simp
  | some r =>
      exact foldl_logged (fun x l =>
        ((host.hear x.1 x.2 l r note).1, (host.hear x.1 x.2 l r note).2.foldl defer x.2))
        (.hear · r note) _ s cues g

theorem tellAll_logged (host : Host α σ) (notes : List Notification) (s : σ) (cues : List (Cue α))
    (g : Graph α) : notes.foldl (fun x note => tell host.logged x.1 x.2 note) ((s, cues), g) =
      (((notes.foldl (fun x note => tell host x.1 x.2 note) (s, g)).1,
        cues ++ notes.flatMap g.hearings),
        (notes.foldl (fun x note => tell host x.1 x.2 note) (s, g)).2) := by
  induction notes generalizing s cues g with
  | nil => simp
  | cons note notes ih =>
      obtain ⟨s', put, told⟩ := tell_eq host s g note
      have same : ({ g with deferred := g.deferred ++ put } : Graph α).hearings = g.hearings := rfl
      simp only [List.foldl_cons, tell_logged, told, ih, same, List.flatMap_cons,
        List.append_assoc]

theorem dispatch_logged (host : Host α σ) (s : σ) (cues : List (Cue α)) (g : Graph α) :
    dispatch host.logged (s, cues) g =
      (((dispatch host s g).1, cues ++ g.notifications.flatMap g.hearings),
        (dispatch host s g).2) := by
  have told := tellAll_logged host g.notifications s cues g.unsaid
  have same : g.unsaid.hearings = g.hearings := rfl
  rw [same] at told
  simp only [dispatch]
  simp only [unsaid] at told
  rw [told]

theorem runDeferred_logged (host : Host α σ) (s : σ) (cues : List (Cue α)) (g : Graph α) :
    runDeferred host.logged (s, cues) g =
      (((runDeferred host s g).1, cues ++ g.deferred.map .act), (runDeferred host s g).2) :=
  foldl_logged (fun x action => host.act x.1 x.2 action) .act g.deferred s cues _

theorem pollUpTo_logged (limit : Nat) (host : Host α σ) (s : σ) (g : Graph α) :
    pollUpTo limit host.logged (s, []) g =
      (((pollUpTo limit host s g).1,
        (g.intakeUpTo limit).notifications.flatMap (g.intakeUpTo limit).hearings ++
          (dispatch host s (g.intakeUpTo limit)).2.deferred.map .act),
        (pollUpTo limit host s g).2) := by
  simp only [pollUpTo, dispatch_logged, runDeferred_logged, List.nil_append]
  rfl

/-- What becomes of all that waits in a graph in a poll in which a reception fails, if none did
    before, after `limit` messages. -/
structure PollsInOrder (g : Graph α) (limit : Nat) (host : Host α σ) (s : σ) : Prop where
  /-- The messages from the first on are handled, and the others stay. -/
  messages : g.wire.inbox =
    handlings (g.beginPoll.drainLog limit) ++ (g.intakeUpTo limit).wire.inbox
  /-- What waited to be told is told, and then what has come of the messages. -/
  waited : g.notifications <+: (g.intakeUpTo limit).notifications
  /-- When it is told, there is a record of which to tell. -/
  held : ∀ note ∈ (g.intakeUpTo limit).notifications,
    ((g.intakeUpTo limit).store.find? note.subject).isSome
  ordered : (g.intakeUpTo limit).listeners.Pairwise fun l m => l.number < m.number
  told : (dispatch host s (g.intakeUpTo limit)).2.notifications = []
  /-- The actions run that were put off before, and then those that listeners have put off. -/
  deferred : g.deferred <+: (dispatch host s (g.intakeUpTo limit)).2.deferred
  cues : (pollUpTo limit host.logged (s, []) g).1.2 =
    (g.intakeUpTo limit).notifications.flatMap (g.intakeUpTo limit).hearings ++
      (dispatch host s (g.intakeUpTo limit)).2.deferred.map .act
  /-- They run in a graph that is told and evicted, and in which nothing is put off yet. -/
  acted : (pollUpTo limit host s g).2.1 =
    ((dispatch host s (g.intakeUpTo limit)).2.deferred.foldl
      (fun x action => host.act x.1 x.2 action)
      ((dispatch host s (g.intakeUpTo limit)).1,
        { (dispatch host s (g.intakeUpTo limit)).2.evict with deferred := [] })).2

theorem Ready.pollsInOrder (ready : g.Ready) (limit : Nat) (host : Host α σ) (s : σ) :
    g.PollsInOrder limit host s := by
  have full := ready.intakeUpTo limit
  have grows := intakeUpTo_grows limit g
  obtain ⟨-, told, -, later⟩ := dispatch_steps full host s []
  have messages := (drain_steps limit g.beginPoll []).messages
  constructor
  case messages =>
    rw [arrivals_drainLog, List.append_nil] at messages
    exact messages.trans (congrArg _ grows.inbox.symm)
  case waited => exact ⟨_, grows.news_about.1.symm⟩
  case held => exact full.held
  case ordered => exact full.ordered
  case told => exact told
  case deferred =>
    have same : (g.intakeUpTo limit).deferred = g.deferred := grows.deferred
    exact same ▸ later
  case cues => rw [pollUpTo_logged]
  case acted => rfl

/-- Whatever happens to a graph, and whatever listeners and actions do: messages are handled in the
    order in which they come, each once, and wait until then. What is queued to be told is told once,
    in order, and before records are let go of in the next poll. Actions put off run once, in order,
    after that. And so it goes on in the next poll, in which listeners are told in the order in which
    they came, and always of a record that is held. -/
theorem nothing_lost_or_repeated {wire : Wire} {config : Config}
    (story : Story (make wire config) log g) :
    Agenda.Steps ⟨wire.inbox, [], [], []⟩ log ⟨g.wire.inbox, g.notifications, g.deferred, []⟩ ∧
      wire.inbox ++ arrivals log = handlings log ++ g.wire.inbox ∧
      queuings log = tellings log ++ g.notifications ∧
      (∀ before after, log = before ++ .evicted :: after → queuings before = tellings before) ∧
      (deferrals log).Perm (actions log ++ g.deferred) ∧
      ∀ {σ : Type} (limit : Nat) (host : Host α σ) (s : σ), g.PollsInOrder limit host s := by
  obtain ⟨steps, ready⟩ := story.steps (.make wire config) []
  refine ⟨steps, steps.messages, steps.notifications, ?_, ?_, ready.pollsInOrder⟩
  · rintro before after rfl
    exact steps.notifications_evicted
  · simpa [agenda, make] using steps.actions_perm

/-- A host that puts an action off at all that it hears, and in each action that action again. -/
def echo : Host Unit Unit := ⟨fun s _ _ _ _ => (s, [()]), fun s g action => (s, g.defer action)⟩

/-- A graph with one listener, to which a device is announced. -/
def attended : Graph Unit :=
  (make { Wire.quiet ⟨0, 0⟩ with inbox := [.record .announce (.empty .device ⟨1⟩)] } .standard).call
    (.listen (.records .all))

/-- The graph after a poll in which the first reception failed. -/
def interrupted : Graph Unit := (pollUpTo 0 echo () attended).2.1

/-- The announcement waits for the next poll. The listener hears then of the new device, and puts off
    an action, which runs in that poll. What the action puts off does not. -/
theorem interrupted_goes_on :
    interrupted.wire.inbox.length = 1 ∧
      (pollUpTo 1 echo.logged ((), []) interrupted).1.2.length = 2 ∧
      (pollUpTo 1 echo () interrupted).2.1.deferred = [()] := by
  have begun : Story _ _ attended := (Story.refl (make _ .standard)).call (.listen (.records .all))
  have story : Story _ _ interrupted := begun.poll 0 echo ()
    (fun _ g action => g.callLog (.defer action)) fun _ g action =>
      (Story.refl g).call (.defer action)
  obtain ⟨-, -, -, -, -, next⟩ := nothing_lost_or_repeated story
  have polls := next 1 echo ()
  refine ⟨by decide +kernel, ?_, ?_⟩
  · rw [polls.cues]
    decide +kernel
  · rw [polls.acted]
    decide +kernel

end Graph

end SignalGraph
