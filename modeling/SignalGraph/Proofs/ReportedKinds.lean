import SignalGraph.Proofs.SubscriptionOperations

/-! # Kinds of the objects that are told of

Of what kind of object all is that waits to be told. What is said in one step is said of the record
that there is after it, and its kind is kept with it here. It stays the kind of the record as long as
no other begins under the identity.
-/

namespace SignalGraph

/-- What is to be told, with the kind of the record of which it was said. -/
structure Report where
  note : Notification
  kind : Option ObjectKind
  deriving Repr, DecidableEq

/-- The kind of the record of which something was said last under an identity. -/
def lastKind (reports : List Report) (id : ObjectId) : Option ObjectKind :=
  (reports.filter (·.note.subject = id)).getLast?.bind Report.kind

section LastKind

variable {reports more : List Report} {id : ObjectId}

theorem exists_lastKind {e : Report} (member : e ∈ reports) : ∃ last ∈ reports,
    last.note.subject = e.note.subject ∧ lastKind reports e.note.subject = last.kind := by
  have some : reports.filter (·.note.subject = e.note.subject) ≠ [] :=
    List.ne_nil_of_mem (List.mem_filter.mpr ⟨member, decide_eq_true rfl⟩)
  obtain ⟨there, own⟩ := List.mem_filter.mp (List.getLast_mem some)
  refine ⟨_, there, of_decide_eq_true own, ?_⟩
  rw [lastKind, List.getLast?_eq_some_getLast some, Option.bind_some]

theorem lastKind_append_of_silent (silent : ∀ e ∈ more, e.note.subject ≠ id) :
    lastKind (reports ++ more) id = lastKind reports id := by
  have none : more.filter (·.note.subject = id) = [] := List.filter_eq_nil_iff.mpr fun e member same =>
    silent e member (of_decide_eq_true same)
  rw [lastKind, List.filter_append, none, List.append_nil, lastKind]

theorem lastKind_append_of_mem {e : Report} (member : e ∈ more) :
    lastKind (reports ++ more) e.note.subject = lastKind more e.note.subject := by
  have some : more.filter (·.note.subject = e.note.subject) ≠ [] :=
    List.ne_nil_of_mem (List.mem_filter.mpr ⟨member, decide_eq_true rfl⟩)
  rw [lastKind, List.filter_append, List.getLast?_append_of_ne_nil _ some, lastKind]

end LastKind

namespace Graph

variable {α σ : Type} {g h : Graph α} {waits later : List Report}

/-! ## One step -/

/-- What was said in a step, each with the kind of the record that there is after it. -/
def reports (g h : Graph α) : List Report := (g.news h).map fun note => ⟨note, h.kind? note.subject⟩

/-- What is said between two graphs is said of records that there are after it. Where no object is
    said to begin, they are of the kind that they were before. -/
structure Speaks (g h : Graph α) : Prop where
  notifications : h.notifications = g.notifications ++ g.news h
  about : ∀ note ∈ g.news h, (h.kind? note.subject).isSome
  pool : ∀ {signal event}, .pool signal event ∈ g.news h → h.kind? signal = some .signal
  same : ∀ {id}, .record id .added ∉ g.news h → h.kind? id = g.kind? id

namespace Speaks

theorem silent (store : h.store = g.store) (notifications : h.notifications = g.notifications) :
    Speaks g h := by
  have none : g.news h = [] := by rw [news, notifications, List.drop_length]
  refine ⟨?_, ?_, ?_, fun _ => by rw [kind?, kind?, store]⟩
  · rw [none, notifications, List.append_nil]
  · simp [none]
  · simp [none]

theorem of_goes (goes : Goes g h) (grows : Grows g h)
    (pool : ∀ {signal event}, .pool signal event ∈ g.news h → h.kind? signal = some .signal) :
    Speaks g h where
  notifications := goes.changes.notifications
  about note said := Option.isSome_map.trans (grows.news_about.2 note said)
  pool := pool
  same := kind?_of_goes goes

end Speaks

theorem step_speaks (g : Graph α) (input : Input α) : Speaks g (g.step input) := by
  have own (goes : Goes g (g.step input)) (grows : Grows g (g.step input)) :
      Speaks g (g.step input) := by
    have beside (aside : IsAside g (g.step input)) : Speaks g (g.step input) :=
      .silent aside.store aside.notifications
    rcases step_deals g input with ⟨target, categories, lease, rfl⟩ | ⟨target, rfl⟩ | deals
    · exact beside (subscribe_aside g target categories lease)
    · exact beside (unsubscribe_aside g target)
    · exact .of_goes goes grows deals.pool
  cases input with
  | event event => exact own (handle_goes g event) (handle_grows g event)
  | call c =>
      rcases call_goes g c with goes | ⟨wire, same⟩
      · rcases call_grows g c with ⟨-, grows⟩ | ⟨_, _, _, _, rfl⟩ | ⟨_, rfl⟩ | ⟨_, rfl⟩ | ⟨_, rfl⟩
        · exact own goes grows
        all_goals exact .silent rfl rfl
      · exact .silent (by rw [step, same]) (by rw [step, same])

/-- What a poll does on its own ends objects and begins none. -/
theorem housekeeping_speaks (g : Graph α) : Speaks g g.expireDevices.renewSubscriptions := by
  have aside := renewSubscriptions_aside g.expireDevices
  have ended : ∀ note ∈ g.news g.expireDevices.renewSubscriptions, ∃ id, note = .record id .expired := by
    rw [news, aside.notifications]
    exact said_of_ending (expireDevices_tends g)
  refine .of_goes ((expireDevices_goes g).trans aside.goes)
    ((expireDevices_grows g).trans (renewSubscriptions_grows _)) fun said => ?_
  obtain ⟨_, same⟩ := ended _ said
  cases same

/-! ## What waits -/

/-- Whether reports are of all that waits to be told, and the last of each object is of the record that
    there is of it. -/
structure Accounts (waits : List Report) (g : Graph α) : Prop where
  notes : waits.map Report.note = g.notifications
  known : ∀ e ∈ waits, e.kind.isSome
  last : ∀ e ∈ waits, g.kind? e.note.subject = lastKind waits e.note.subject
  pool : ∀ e ∈ waits, e.note.isOfPool → e.kind = some .signal

namespace Accounts

theorem nil (none : g.notifications = []) : Accounts [] g :=
  ⟨none.symm, by simp, by simp, by simp⟩

theorem congr (accounts : Accounts waits g) (store : h.store = g.store)
    (notifications : h.notifications = g.notifications) : Accounts waits h where
  notes := accounts.notes.trans notifications.symm
  known := accounts.known
  last e member := by
    rw [kind?, store]
    exact accounts.last e member
  pool := accounts.pool

theorem step (accounts : Accounts waits g) (speaks : Speaks g h) :
    Accounts (waits ++ g.reports h) h := by
  have new {e : Report} (member : e ∈ g.reports h) :
      e.note ∈ g.news h ∧ e.kind = h.kind? e.note.subject := by
    obtain ⟨note, said, rfl⟩ := List.mem_map.mp member
    exact ⟨said, rfl⟩
  -- What is said in the step of an object is all said of the record there is after it.
  have current {e : Report} (member : e ∈ g.reports h) :
      h.kind? e.note.subject = lastKind (waits ++ g.reports h) e.note.subject := by
    obtain ⟨last, there, own, same⟩ := exists_lastKind member
    rw [lastKind_append_of_mem member, same, (new there).2, own]
  constructor
  case notes =>
    rw [List.map_append, accounts.notes, reports, List.map_map, speaks.notifications]
    exact congrArg (g.notifications ++ ·) (List.map_id _)
  case known =>
    intro e member
    rcases List.mem_append.mp member with before | said
    · exact accounts.known e before
    · exact (new said).2 ▸ speaks.about _ (new said).1
  case last =>
    intro e member
    rcases List.mem_append.mp member with before | said
    · by_cases again : ∃ e' ∈ g.reports h, e'.note.subject = e.note.subject
      · obtain ⟨e', said, own⟩ := again
        exact own ▸ current said
      · have silent : ∀ e' ∈ g.reports h, e'.note.subject ≠ e.note.subject :=
          fun e' said own => again ⟨e', said, own⟩
        rw [lastKind_append_of_silent silent, ← accounts.last e before]
        refine speaks.same fun said => ?_
        exact silent ⟨_, _⟩ (List.mem_map.mpr ⟨_, said, rfl⟩) rfl
    · exact current said
  case pool =>
    intro e member ofPool
    rcases List.mem_append.mp member with before | said
    · exact accounts.pool e before ofPool
    · obtain ⟨noted, kind⟩ := new said
      obtain ⟨note, _⟩ := e
      cases note with
      | record => cases ofPool
      | pool signal event => exact kind.trans (speaks.pool noted)

end Accounts

/-! ## What is taken in -/

/-- What is said while messages are taken in, at most `limit`. -/
def drainReports (g : Graph α) : Nat → List Report
  | 0 => []
  | limit + 1 =>
    match g.wire.receive with
    | (.message event, wire) =>
      let received := { g with wire }
      let handled := received.handle event
      received.reports handled ++ handled.drainReports limit
    | _ => []

/-- What is said in a poll before anything is told. -/
def intakeReports (limit : Nat) (g : Graph α) : List Report :=
  g.beginPoll.drainReports limit ++ (g.beginPoll.drain limit).1.reports (g.intakeUpTo limit)

theorem Accounts.drain (accounts : Accounts waits g) (limit : Nat) :
    Accounts (waits ++ g.drainReports limit) (g.drain limit).1 := by
  induction limit generalizing waits g with
  | zero => exact (List.append_nil waits).symm ▸ accounts
  | succ limit ih =>
      rcases same : g.wire.receive with ⟨outcome, wire⟩
      have received : Accounts waits { g with wire } := accounts.congr rfl rfl
      simp only [drainReports, Graph.drain, same]
      cases outcome with
      | message event =>
          rw [← List.append_assoc]
          exact ih (received.step (step_speaks _ (.event event)))
      | nothing | failure =>
          rw [List.append_nil]
          exact received

theorem Accounts.intake (accounts : Accounts waits g) (limit : Nat) :
    Accounts (waits ++ g.intakeReports limit) (g.intakeUpTo limit) := by
  have begun : Accounts waits g.beginPoll := accounts.congr rfl rfl
  rw [intakeReports, ← List.append_assoc]
  exact (begun.drain limit).step (housekeeping_speaks _)

/-! ## Runs -/

/-- The graph of a poll that takes in at most `limit` messages when all is told and only the actions
    put off are still to run. -/
def toldUpTo (limit : Nat) (host : Host α σ) (s : σ) (g : Graph α) : Graph α :=
  { (dispatch host s (g.intakeUpTo limit)).2.evict with deferred := [] }

/-- A run that begins when nothing waits to be told, with reports of what waits at its end. -/
inductive Account : Graph α → List Report → Graph α → Prop
  | start {g : Graph α} (none : g.notifications = []) : Account g [] g
  | call {g h : Graph α} {waits : List Report} (before : Account g waits h) (c : Call α) :
      Account g (waits ++ h.reports (h.call c)) (h.call c)
  | poll {σ : Type} {g h : Graph α} {waits later : List Report} (before : Account g waits h)
      (limit : Nat) (host : Host α σ) (s : σ)
      (acts : Account (h.toldUpTo limit host s) later (pollUpTo limit host s h).2.1) :
      Account g later (pollUpTo limit host s h).2.1

theorem Account.accounts (account : Account g waits h) : Accounts waits h := by
  induction account with
  | start none => exact .nil none
  | call before c ih => exact ih.step (step_speaks _ (.call c))
  | poll before limit host s acts ih ihActs => exact ihActs

end Graph

end SignalGraph
