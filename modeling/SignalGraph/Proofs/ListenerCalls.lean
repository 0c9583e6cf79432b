import SignalGraph.Proofs.Eviction
import SignalGraph.Proofs.ReportedKinds

/-! # Which listeners are called

Which listeners hear what. All that waits is matched with the record that there is of the object when
it is told. That is the record of which it was said, unless the object has ended meanwhile and one of
another kind has begun under its identity.
-/

namespace SignalGraph

/-! ## Kinds asked for -/

namespace Categories

/-- The categories of all objects of some kinds. -/
def ofKinds (kinds : List ObjectKind) : Categories := kinds.foldr (ofKind · ||| ·) none

theorem intersects_or (a b c : Categories) :
    (a ||| b).intersects c = (a.intersects c || b.intersects c) := by
  have apart (x y : Categories) : (x ||| y).isEmpty = (x.isEmpty && y.isEmpty) := by
    have none_iff (z : Categories) : z.isEmpty ↔ z.bits = 0 := by
      simp only [isEmpty, beq_iff_eq]
      exact ⟨congrArg bits, congrArg mk⟩
    rw [Bool.eq_iff_iff, Bool.and_eq_true, none_iff, none_iff, none_iff]
    exact BitVec.or_eq_zero_iff
  have both : (a ||| b) &&& c = (a &&& c) ||| (b &&& c) := congrArg mk BitVec.and_or_distrib_right
  rw [intersects, both, apart, Bool.not_and]
  rfl

theorem intersects_none (c : Categories) : none.intersects c = false := by
  have nothing : none &&& c = none := congrArg mk BitVec.zero_and
  rw [intersects, nothing]
  rfl

end Categories

theorem Record.intersects_ofKind (r : Record) (kind : ObjectKind) :
    (Categories.ofKind kind).intersects r.categories = decide (kind = r.kind) := by
  simp only [categories]
  cases direction : r.direction? with
  | none => cases kind <;> cases r.kind <;> rfl
  | some d =>
      have isSignal : r.kind = .signal := by
        by_contra other
        simp [direction?, other] at direction
      rw [isSignal]
      cases d <;> cases kind <;> rfl

theorem Record.intersects_ofKinds (r : Record) (kinds : List ObjectKind) :
    (Categories.ofKinds kinds).intersects r.categories = decide (r.kind ∈ kinds) := by
  induction kinds with
  | nil => exact Categories.intersects_none _
  | cons kind kinds ih =>
      have cons : Categories.ofKinds (kind :: kinds) =
          Categories.ofKind kind ||| Categories.ofKinds kinds := rfl
      rw [cons, Categories.intersects_or, r.intersects_ofKind, ih]
      simp [eq_comm]

/-- Whether a report is of a transition of an object of one of some kinds. -/
def Report.isOf (kinds : List ObjectKind) (e : Report) : Bool :=
  !e.note.isOfPool && e.kind.any (· ∈ kinds)

/-! ## What one listener hears -/

/-- What one listener is called to hear, in order, each with the record that it is handed. -/
def heardBy {α : Type} (l : Listener) (cues : List (Cue α)) : List (Record × Notification) :=
  cues.filterMap fun
    | .hear other r note => if other = l then some (r, note) else none
    | .act _ => none

/-- Whether all that is told under an identity was said of records of the same kind as the last. -/
def IsUnmixed (told : List Report) (id : ObjectId) : Prop :=
  ∀ e ∈ told, e.note.subject = id → e.kind = lastKind told id

namespace Graph

variable {α σ : Type} {g h : Graph α} {waits told : List Report} {l : Listener}

/-- What a listener hears of a notification, with the record that it is handed. -/
def hearing? (g : Graph α) (l : Listener) (note : Notification) : Option (Record × Notification) :=
  ((g.store.find? note.subject).filter (wants l · note)).map (·, note)

/-- One of some listeners that are told hears it once. -/
theorem heardBy_told (told : List Listener) (distinct : told.Nodup) (r : Record)
    (note : Notification) : heardBy l (told.map (Cue.hear (α := α) · r note)) =
      if l ∈ told then [(r, note)] else [] := by
  have own : heardBy l (told.map (Cue.hear (α := α) · r note)) =
      (told.filter (· = l)).map fun _ => (r, note) := by
    rw [heardBy, List.filterMap_map, ← List.filterMap_eq_filter, List.map_filterMap]
    refine List.filterMap_congr fun m _ => ?_
    simp only [Function.comp_apply, Option.guard, decide_eq_true_eq]
    split <;> rfl
  rw [own]
  split
  · rename_i there
    rw [List.filter_eq, List.count_eq_one_of_mem distinct there]
    rfl
  · rename_i absent
    rw [List.filter_eq, List.count_eq_zero.mpr absent]
    rfl

theorem heardBy_hearings (distinct : g.listeners.Nodup) (there : l ∈ g.listeners)
    (note : Notification) : heardBy l (g.hearings note) = (g.hearing? l note).toList := by
  simp only [hearings, hearing?]
  cases g.store.find? note.subject with
  | none => rfl
  | some r =>
      have wanted : l ∈ g.listeners.filter (wants · r note) ↔ wants l r note :=
        List.mem_filter.trans (and_iff_right there)
      refine (heardBy_told _ (distinct.filter _) r note).trans ?_
      simp only [wanted, Option.filter_some]
      split <;> rfl

theorem wants_records {kinds : List ObjectKind} (asked : l.interest = .records (.ofKinds kinds))
    (r : Record) (note : Notification) :
    wants l r note = (⟨note, some r.kind⟩ : Report).isOf kinds := by
  cases note with
  | record id how => simp only [wants, asked, r.intersects_ofKinds]; rfl
  | pool signal event => simp only [wants, asked]; rfl

theorem wants_instances {only : Option ObjectId} (asked : l.interest = .instances only) (r : Record)
    (note : Notification) :
    wants l r note = (note.isOfPool && only.all (· = note.subject)) := by
  cases note with
  | record id how => simp only [wants, asked]; rfl
  | pool signal event => simp only [wants, asked]; rfl

theorem heardBy_poll (ready : g.Ready) (there : l ∈ g.listeners) (limit : Nat) (host : Host α σ)
    (s : σ) : heardBy l (pollUpTo limit host.logged (s, []) g).1.2 =
      (g.intakeUpTo limit).notifications.filterMap ((g.intakeUpTo limit).hearing? l) := by
  have same : (g.intakeUpTo limit).listeners = g.listeners := (intakeUpTo_grows limit g).listeners
  have distinct : (g.intakeUpTo limit).listeners.Nodup := by
    refine (ready.intakeUpTo limit).ordered.imp fun {l m} below same => ?_
    exact Nat.lt_irrefl l.number (same ▸ below)
  have acts (actions : List α) : heardBy l (actions.map .act) = [] :=
    List.filterMap_eq_nil_iff.mpr fun cue member => by
      obtain ⟨action, -, rfl⟩ := List.mem_map.mp member
      rfl
  have hearings : heardBy l ((g.intakeUpTo limit).notifications.flatMap (g.intakeUpTo limit).hearings) =
      (g.intakeUpTo limit).notifications.filterMap ((g.intakeUpTo limit).hearing? l) := by
    rw [heardBy, List.filterMap_flatMap, List.filterMap_eq_flatMap_toList]
    exact congrArg (List.flatMap · _)
      (funext fun note => heardBy_hearings distinct (same.symm ▸ there) note)
  rw [pollUpTo_logged, heardBy, List.filterMap_append]
  exact (congrArg₂ (· ++ ·) hearings (acts _)).trans (List.append_nil _)

/-- A listener hears of what is told what it wants to hear of the records there are. -/
theorem heard_eq (accounts : Accounts told g) {P : Report → Bool}
    (wanted : ∀ e ∈ told, ∀ r : Record, some r.kind = lastKind told e.note.subject →
      wants l r e.note = P e) :
    (g.notifications.filterMap (g.hearing? l)).map Prod.snd = (told.filter P).map Report.note := by
  have each (e : Report) (member : e ∈ told) :
      (g.hearing? l e.note).map Prod.snd = (Option.guard (P ·) e).map Report.note := by
    obtain ⟨last, there, own, same⟩ := exists_lastKind member
    have kind : (g.store.find? e.note.subject).map Record.kind = last.kind :=
      (accounts.last e member).trans same
    obtain ⟨k, known⟩ := Option.isSome_iff_exists.mp (accounts.known last there)
    obtain ⟨r, held, own⟩ := Option.map_eq_some_iff.mp (kind.trans known)
    have wanted := wanted e member r (by rw [same, known, own])
    simp only [hearing?, held, Option.filter_some, wanted, Option.guard]
    split <;> rfl
  calc (g.notifications.filterMap (g.hearing? l)).map Prod.snd
      = told.filterMap fun e => (g.hearing? l e.note).map Prod.snd := by
        rw [← accounts.notes, List.filterMap_map, List.map_filterMap]
        rfl
    _ = told.filterMap fun e => (Option.guard (P ·) e).map Report.note := List.filterMap_congr each
    _ = (told.filter P).map Report.note := by
        rw [← List.filterMap_eq_filter, List.map_filterMap]

theorem mem_heard (accounts : Accounts told g) {x : Record × Notification}
    (heard : x ∈ g.notifications.filterMap (g.hearing? l)) :
    wants l x.1 x.2 ∧ ∃ e ∈ told, e.note = x.2 ∧ lastKind told x.2.subject = some x.1.kind := by
  obtain ⟨note, said, hears⟩ := List.mem_filterMap.mp heard
  obtain ⟨r, found, rfl⟩ := Option.map_eq_some_iff.mp hears
  obtain ⟨held, wanted⟩ := Option.filter_eq_some_iff.mp found
  rw [← accounts.notes] at said
  obtain ⟨e, member, rfl⟩ := List.mem_map.mp said
  refine ⟨wanted, e, member, rfl, ?_⟩
  rw [← accounts.last e member, kind?, held, Option.map_some]

/-! ## Listeners -/

theorem notifications_toldUpTo (limit : Nat) (host : Host α σ) (s : σ) (g : Graph α) :
    (g.toldUpTo limit host s).notifications = [] := by
  have none := (dispatch_rest host s (g.intakeUpTo limit)).1
  simp only [Graph.toldUpTo]
  generalize dispatch host s (g.intakeUpTo limit) = x at none ⊢
  exact none

theorem Ready.toldUpTo (ready : g.Ready) (limit : Nat) (host : Host α σ) (s : σ) :
    (g.toldUpTo limit host s).Ready := by
  obtain ⟨-, none, told, -⟩ := dispatch_steps (ready.intakeUpTo limit) host s []
  simp only [Graph.toldUpTo]
  generalize dispatch host s (g.intakeUpTo limit) = x at none told ⊢
  exact ⟨fun note waits => absurd (none ▸ waits) List.not_mem_nil, told.ordered, told.numbered⟩

theorem Account.ready (account : Account g waits h) (ready : g.Ready) : h.Ready := by
  induction account with
  | start => exact ready
  | call before c ih => exact (call_steps (ih ready) c []).2
  | poll before limit host s acts ih ihActs => exact ihActs ((ih ready).toldUpTo limit host s)

/-- A poll tells all that waits, and what it takes in itself. Whatever happened before, and whatever
    listeners and actions do: a listener is called for each transition of an object, in order and
    once, if it asked for the kind of the record of which something was said last under the identity,
    and not otherwise. That is the kind of the record that made the transition, and of instances the
    record is a signal, unless one of another kind has begun under the identity meanwhile. -/
theorem listeners_hear {wire : Wire} {config : Config}
    (account : Account (make wire config) waits g) (limit : Nat) (host : Host α σ) (s : σ)
    (there : l ∈ g.listeners) :
    let told := waits ++ g.intakeReports limit
    let heard := heardBy l (pollUpTo limit host.logged (s, []) g).1.2
    told.map Report.note = (g.intakeUpTo limit).notifications ∧
      (∀ x ∈ heard, lastKind told x.2.subject = some x.1.kind) ∧
      (∀ kinds, l.interest = .records (.ofKinds kinds) →
        heard.map Prod.snd = (told.filter fun e =>
          { e with kind := lastKind told e.note.subject }.isOf kinds).map Report.note ∧
        ∀ id, IsUnmixed told id → (heard.map Prod.snd).filter (·.subject = id) =
          (told.filter fun e => e.note.subject = id && e.isOf kinds).map Report.note) ∧
      ∀ only, l.interest = .instances only →
        heard.map Prod.snd = (told.filter fun e =>
          e.note.isOfPool && only.all (· = e.note.subject)).map Report.note ∧
        ∀ x ∈ heard, IsUnmixed told x.2.subject → x.1.kind = .signal := by
  intro told heard
  have accounts : Accounts told (g.intakeUpTo limit) := account.accounts.intake limit
  have hears : heard = _ := heardBy_poll (account.ready (.make wire config)) there limit host s
  rw [hears]
  refine ⟨accounts.notes, fun x member => ?_, fun kinds asked => ?_, fun only asked => ⟨?_, ?_⟩⟩
  · obtain ⟨-, e, -, -, kind⟩ := mem_heard accounts member
    exact kind
  · have all := heard_eq (l := l) accounts
      (P := fun e => { e with kind := lastKind told e.note.subject }.isOf kinds) ?_
    · refine ⟨all, fun id unmixed => ?_⟩
      rw [all, List.filter_map, List.filter_filter]
      refine congrArg (List.map _) (List.filter_congr fun e member => ?_)
      by_cases own : e.note.subject = id
      · simp [own, Report.isOf, unmixed e member own]
      · simp [own]
    · intro e member r kind
      rw [wants_records asked, kind]
  · exact heard_eq accounts fun e member r kind => wants_instances asked r e.note
  · intro x member unmixed
    obtain ⟨wanted, e, noted, same, kind⟩ := mem_heard accounts member
    rw [wants_instances asked, Bool.and_eq_true, ← same] at wanted
    have signal := accounts.pool e noted wanted.1
    rw [unmixed e noted (congrArg _ same), kind] at signal
    exact Option.some.inj signal

/-! ## A device in place of a signal -/

theorem Account.of_deaf (limit : Nat) (g : Graph Unit) :
    Account (g.toldUpTo limit .deaf ()) [] (pollUpTo limit .deaf () g).2.1 := by
  have idle : (pollUpTo limit .deaf () g).2.1 = g.toldUpTo limit .deaf () := by
    simp only [pollUpTo, runDeferred, toldUpTo]
    generalize dispatch .deaf () (g.intakeUpTo limit) = told
    exact congrArg Prod.snd (foldl_idle .deaf _ _)
  rw [idle]
  exact .start (notifications_toldUpTo limit .deaf () g)

def forSignals : Listener := ⟨1, .records (.ofKinds [.signal])⟩

def forDevices : Listener := ⟨2, .records (.ofKinds [.device])⟩

def forInstances : Listener := ⟨3, .instances none⟩

/-- A graph with these listeners, to which a device and its signal are announced. -/
def announced : Graph Unit :=
  let listening := ((make (.quiet ⟨0, 0⟩) .standard).call (.listen forSignals.interest)).call
    (.listen forDevices.interest) |>.call (.listen forInstances.interest)
  (listening.call (.apply .announce (.empty .device ⟨1⟩))).call
    (.apply .announce ⟨.signal, ⟨2⟩, ⟨[.set (.wellKnown .device) (.ofId ⟨1⟩)]⟩, []⟩)

/-- The graph after a poll, in which they hear of both. -/
def overheard : Graph Unit := (pollUpTo 1 .deaf () announced).2.1

theorem overheard_account : Account (make (.quiet ⟨0, 0⟩) .standard) [] overheard := by
  have start : Account (α := Unit) (make (.quiet ⟨0, 0⟩) .standard) [] (make _ _) := .start rfl
  have listening := ((start.call (.listen forSignals.interest)).call
    (.listen forDevices.interest)).call (.listen forInstances.interest)
  have told : Account (make (.quiet ⟨0, 0⟩) .standard) _ announced :=
    (listening.call (.apply .announce (.empty .device ⟨1⟩))).call
      (.apply .announce ⟨.signal, ⟨2⟩, ⟨[.set (.wellKnown .device) (.ofId ⟨1⟩)]⟩, []⟩)
  exact told.poll 1 .deaf () (.of_deaf 1 announced)

/-- The graph after a value of the signal, which is then removed. -/
def silenced : Graph Unit := (overheard.call (.update ⟨2⟩ 0 (.ofId ⟨5⟩))).call (.remove ⟨2⟩)

/-- Who asked for signals hears of the removal, and who hears of the value is handed the signal. -/
theorem silenced_heard :
    (heardBy forSignals (pollUpTo 1 Host.deaf.logged ((), []) silenced).1.2).map Prod.snd =
        [.record ⟨2⟩ .removed] ∧
      ∀ x ∈ heardBy forInstances (pollUpTo 1 Host.deaf.logged ((), []) silenced).1.2,
        x.2.subject = ⟨2⟩ → x.1.kind = .signal := by
  have account : Account (make (.quiet ⟨0, 0⟩) .standard) _ silenced :=
    (overheard_account.call (.update ⟨2⟩ 0 (.ofId ⟨5⟩))).call (.remove ⟨2⟩)
  have signals := listeners_hear account 1 .deaf () (l := forSignals) (by decide +kernel)
  have instances := listeners_hear account 1 .deaf () (l := forInstances) (by decide +kernel)
  refine ⟨(signals.2.2.1 [.signal] rfl).1.trans (by decide +kernel), fun x heard own => ?_⟩
  refine (instances.2.2.2 none rfl).2 x heard ?_
  rw [own, IsUnmixed]
  decide +kernel

/-- The graph after a device is announced in place of the signal. -/
def succeeded : Graph Unit := silenced.call (.apply .announce (.empty .device ⟨2⟩))

/-- The removal of the signal still waits to be told. Who asked for signals does not hear of it, but
    who asked for devices does, and who hears of the value is handed the device. -/
theorem succeeded_misheard : ∃ waits, Account (make (.quiet ⟨0, 0⟩) .standard) waits succeeded ∧
    ⟨.record ⟨2⟩ .removed, some .signal⟩ ∈ waits ∧
    heardBy forSignals (pollUpTo 1 Host.deaf.logged ((), []) succeeded).1.2 = [] ∧
    (heardBy forDevices (pollUpTo 1 Host.deaf.logged ((), []) succeeded).1.2).map Prod.snd =
      [.record ⟨2⟩ .removed, .record ⟨2⟩ .added] ∧
    (heardBy forInstances (pollUpTo 1 Host.deaf.logged ((), []) succeeded).1.2).map
      (fun x => x.1.kind) = [.device] := by
  have account := (overheard_account.call (.update ⟨2⟩ 0 (.ofId ⟨5⟩))).call (.remove ⟨2⟩)
  exact ⟨_, account.call (.apply .announce (.empty .device ⟨2⟩)), by decide +kernel,
    by decide +kernel, by decide +kernel, by decide +kernel⟩

end Graph

end SignalGraph
