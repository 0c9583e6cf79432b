import SignalGraph.Proofs.Index
import SignalGraph.Proofs.LifecycleTraces

/-! # Lifecycles

What happens to a graph, seen from one object: every change, every poll and with them every run is a
succession of shifts in the life of that object.
-/

namespace SignalGraph

/-- What of some notifications is about the life of one object. -/
def heard (id : ObjectId) (said : List Notification) : List Lifecycle :=
  said.filterMap fun
    | .record other how => if other = id then some how else none
    | .pool _ _ => none

theorem heard_append (id : ObjectId) (said more : List Notification) :
    heard id (said ++ more) = heard id said ++ heard id more := List.filterMap_append

theorem heard_of_pool (id : ObjectId) {said : List Notification}
    (ofPool : ∀ note ∈ said, note.isOfPool) : heard id said = [] := by
  refine List.filterMap_eq_nil_iff.mpr ?_
  intro note member
  cases note with
  | record other how => exact Bool.noConfusion (ofPool _ member)
  | pool signal event => rfl

theorem heard_record (id other : ObjectId) (how : Lifecycle) :
    heard id [.record other how] = if other = id then [how] else [] := by
  simp only [heard, List.filterMap_cons, List.filterMap_nil]
  by_cases here : other = id <;> simp [here]

theorem mem_heard_iff {id : ObjectId} {said : List Notification} {how : Lifecycle} :
    how ∈ heard id said ↔ .record id how ∈ said := by
  simp only [heard, List.mem_filterMap]
  constructor
  · rintro ⟨note, member, told⟩
    cases note with
    | record other how' =>
        simp only [Option.ite_none_right_eq_some, Option.some.injEq] at told
        obtain ⟨rfl, rfl⟩ := told
        exact member
    | pool => cases told
  · exact fun member => ⟨_, member, if_pos rfl⟩

namespace Graph

variable {α σ : Type} {g h k : Graph α} {id : ObjectId}

/-- What of a graph concerns the life of one object. -/
def life (g : Graph α) (id : ObjectId) : Life :=
  ⟨(g.store.find? id).map Record.standing, heard id g.notifications⟩

theorem standing_life {r : Record} (held : g.store.find? id = some r) :
    (g.life id).standing = some r.standing := by
  rw [life, held, Option.map_some]

theorem waiting_life (none : g.notifications = []) : (g.life id).waiting = [] := by
  rw [life, none]
  rfl

theorem life_congr (store : h.store = g.store) (notifications : h.notifications = g.notifications) :
    h.life id = g.life id := by
  rw [life, life, store, notifications]

end Graph

/-! ## Changes -/

namespace LifecycleChange

variable {α : Type} {g h : Graph α} {t : LifecycleChange} {id : ObjectId}

theorem Does.life (does : t.Does g h) (id : ObjectId) : h.life id =
    ⟨((t.store g).find? id).map Record.standing, heard id g.notifications ++ heard id t.said⟩ := by
  rw [Graph.life, does.store, does.notifications, heard_append]

/-- A change of one object leaves the lives of the others alone. -/
theorem Does.rest (does : t.Does g h) (none : heard id t.said = [])
    (same : ((t.store g).find? id).map Record.standing =
      (g.store.find? id).map Record.standing) :
    Shift (g.life id) ((heard id t.said).map .queued) (h.life id) := by
  rw [does.life, same, none, List.append_nil]
  exact .rest _

theorem Does.shift (does : t.Does g h) (id : ObjectId) :
    Shift (g.life id) ((heard id t.said).map .queued) (h.life id) := by
  cases t with
  | rest said => exact does.rest (heard_of_pool id does.guard) rfl
  | fill other f =>
      refine does.rest rfl ?_
      simp only [LifecycleChange.store, Store.find?_modify]
      split
      · rename_i here
        subst here
        cases held : g.store.find? other with
        | none => rfl
        | some r => exact congrArg some (does.guard r held)
      · rfl
  | begin r =>
      obtain ⟨vacant, status, terminalAt, observedCycle⟩ := does.guard
      by_cases here : r.id = id
      · subst here
        rw [does.life]
        simp only [said, heard_record, LifecycleChange.store, Store.find?_insert, ↓reduceIte]
        refine .begin (fun y held => ?_) status terminalAt
        obtain ⟨r', held', rfl⟩ := Option.map_eq_some_iff.mp held
        exact vacant r' held'
      · refine does.rest ((heard_record ..).trans (if_neg here)) ?_
        simp only [LifecycleChange.store, Store.find?_insert, Store.find?_discard, if_neg here]
  | change other =>
      by_cases here : other = id
      · subst here
        obtain ⟨r, held, live⟩ := does.guard
        rw [does.life]
        simp only [Graph.life, said, heard_record, LifecycleChange.store, Store.find?_modify, ↓reduceIte,
          held, Option.map_some]
        exact .change (x := r.standing) live
      · refine does.rest ((heard_record ..).trans (if_neg here)) ?_
        simp only [LifecycleChange.store, Store.find?_modify, if_neg here]
  | finish other how =>
      by_cases here : other = id
      · subst here
        obtain ⟨terminal, r, held, live⟩ := does.guard
        rw [does.life]
        simp only [Graph.life, said, heard_record, LifecycleChange.store, Graph.retire, Graph.notify,
          Graph.modify, Store.find?_modify, ↓reduceIte, held, Option.map_some]
        exact .finish (x := r.standing) live terminal g.now
      · refine does.rest ((heard_record ..).trans (if_neg here)) ?_
        simp only [LifecycleChange.store, Graph.retire, Graph.notify, Graph.modify,
          Store.find?_modify, if_neg here]

/-- No change lets go of a record. -/
theorem Does.holds (does : t.Does g h) (held : (g.store.find? id).isSome) :
    (h.store.find? id).isSome := by
  rw [does.store]
  cases t with
  | rest => exact held
  | fill other | change other | finish other =>
      simp only [LifecycleChange.store, Graph.retire, Graph.notify, Graph.modify, Store.find?_modify]
      split
      · rename_i here
        rwa [Option.isSome_map, here]
      · exact held
  | begin r =>
      by_cases here : r.id = id
      · simp only [LifecycleChange.store, Store.find?_insert, if_pos here, Option.isSome_some]
      · simpa only [LifecycleChange.store, Store.find?_insert, Store.find?_discard, if_neg here]
          using held

end LifecycleChange

theorem LifecycleChanges.shifts {α : Type} {g h : Graph α} {said : List Notification}
    (changes : LifecycleChanges g said h) (id : ObjectId) :
    Shifts (g.life id) ((heard id said).map .queued) (h.life id) := by
  induction changes with
  | done g => exact .done _
  | next does _ ih =>
      rw [heard_append, List.map_append]
      exact .next (does.shift id) ih

theorem Graph.Goes.holds {α : Type} {g h : Graph α} (goes : g.Goes h) {id : ObjectId}
    (held : (g.store.find? id).isSome) : (h.store.find? id).isSome := by
  obtain ⟨said, changes⟩ := goes
  induction changes with
  | done g => exact held
  | next does _ ih => exact ih (does.holds held)

/-! ## Telling and letting go -/

namespace Graph

variable {α σ : Type} {g h k : Graph α} {id : ObjectId}

/-- When all notifications are told, the records that were told of are marked with the cycle. -/
theorem find?_observeAll (notes : List Notification) (g : Graph α) (id : ObjectId) :
    (notes.foldl observe g).store.find? id = if heard id notes = [] then g.store.find? id
      else (g.store.find? id).map ({ · with observedCycle := some g.cycle }) := by
  -- Later marks are set in a graph that bears the earlier ones, so the graph is generalized.
  induction notes generalizing g with
  | nil => rfl
  | cons note notes ih =>
      rw [List.foldl_cons, ih]
      cases note with
      | pool => rfl
      | record other how =>
          have cons : heard id (.record other how :: notes) =
              heard id [.record other how] ++ heard id notes := heard_append id [_] notes
          simp only [cons, heard_record, observe, modify, Store.find?_modify]
          by_cases here : other = id
          · subst here
            simp only [↓reduceIte, Option.map_map, List.cons_append, reduceCtorEq, List.nil_append]
            split <;> rfl
          · simp only [if_neg here, List.nil_append]

theorem observeAll_eq (notes : List Notification) (g : Graph α) :
    ∃ store, notes.foldl observe g = { g with store } := by
  refine List.foldlRecOn notes observe (motive := fun h : Graph α => ∃ store, h = { g with store })
    ⟨g.store, rfl⟩ ?_
  rintro _ ⟨store, rfl⟩ note -
  cases note <;> exact ⟨_, rfl⟩

theorem find?_dispatch (host : Host α σ) (s : σ) (g : Graph α) (id : ObjectId) :
    (dispatch host s g).2.store.find? id = if heard id g.notifications = [] then g.store.find? id
      else (g.store.find? id).map ({ · with observedCycle := some g.cycle }) := by
  have aside := tellAll_aside host g.notifications s g.unsaid
  have observed := find?_observeAll g.notifications
    (g.notifications.foldl (fun x note => tell host x.1 x.2 note) (s, g.unsaid)).2 id
  rwa [aside.store, aside.cycle] at observed

theorem dispatch_rest (host : Host α σ) (s : σ) (g : Graph α) :
    (dispatch host s g).2.notifications = [] ∧ (dispatch host s g).2.cycle = g.cycle ∧
      (dispatch host s g).2.now = g.now ∧ (dispatch host s g).2.config = g.config := by
  have aside := tellAll_aside host g.notifications s g.unsaid
  obtain ⟨store, observed⟩ := observeAll_eq g.notifications
    (g.notifications.foldl (fun x note => tell host x.1 x.2 note) (s, g.unsaid)).2
  simp only [dispatch]
  exact observed ▸ ⟨aside.notifications, aside.cycle, aside.now, aside.config⟩

theorem dispatch_shift (host : Host α σ) (s : σ) (g : Graph α) (id : ObjectId) :
    Shift (g.life id) [.told g.cycle] ((dispatch host s g).2.life id) := by
  have told : (dispatch host s g).2.life id = ⟨if (g.life id).waiting = [] then (g.life id).standing
      else (g.life id).standing.map ({ · with observedCycle := some g.cycle }), []⟩ := by
    simp only [life, (dispatch_rest host s g).1, find?_dispatch]
    by_cases silent : heard id g.notifications = []
    · simp only [silent, ↓reduceIte]
      rfl
    · simp only [silent, ↓reduceIte, Option.map_map]
      rfl
  exact told ▸ .tell _ _

theorem evict_shift (indexed : g.store.Indexed) (none : g.notifications = []) (id : ObjectId) :
    Shift (g.life id) [] (g.evict.life id) := by
  have silent : heard id g.notifications = [] := none ▸ rfl
  have evicted : g.evict.life id = ⟨((g.store.find? id).filter fun r => !g.isDoomed r).map
      Record.standing, []⟩ := by
    rw [life, find?_evict indexed]
    exact congrArg (Life.mk _) silent
  rw [evicted]
  simp only [life, silent]
  cases held : g.store.find? id with
  | none => exact .rest _
  | some r =>
      cases doomed : g.isDoomed r with
      | false =>
          simp only [Option.filter_some, doomed]
          exact .rest _
      | true =>
          simp only [Option.filter_some, doomed]
          simp only [isDoomed, Bool.and_eq_true, Bool.not_eq_true'] at doomed
          exact .leave doomed.1.1

/-! ## Calls and polls -/

theorem call_shifts (g : Graph α) (c : Call α) (id : ObjectId) :
    Shifts (g.life id) ((heard id (g.news (g.call c))).map .queued) ((g.call c).life id) := by
  rcases call_goes g c with goes | ⟨wire, same⟩
  · exact goes.changes.shifts id
  · have none : g.news (g.call c) = [] := by simp [news, same]
    rw [none, life_congr (h := g.call c) (g := g) (by rw [same]) (by rw [same])]
    exact .done _

theorem news_beginPoll (g h : Graph α) : g.beginPoll.news h = g.news h := rfl

theorem life_clearDeferred (g : Graph α) (id : ObjectId) :
    ({ g with deferred := [] } : Graph α).life id = g.life id := rfl

theorem life_beginPoll (g : Graph α) (id : ObjectId) : g.beginPoll.life id = g.life id := rfl

theorem intake_shifts (g : Graph α) (id : ObjectId) :
    Shifts (g.life id) ((heard id (g.news g.intake)).map .queued) (g.intake.life id) := by
  have shifts := (intake_goes g).changes.shifts id
  rwa [news_beginPoll, life_beginPoll] at shifts

theorem intake_indexed (indexed : g.store.Indexed) : g.intake.store.Indexed :=
  (indexed_isHeld.changes (intake_leads g).changes indexed).1

theorem dispatch_indexed (indexed : g.store.Indexed) (host : Host α σ) (s : σ) :
    (dispatch host s g).2.store.Indexed :=
  (indexed_isHeld.changes (dispatch_leads host s g).changes indexed).1

theorem toldAndEvicted_shifts (indexed : g.store.Indexed) (host : Host α σ) (s : σ)
    (id : ObjectId) : Shifts (g.intake.life id) [.told (g.cycle + 1)]
      ((g.toldAndEvicted host s).life id) := by
  have told := dispatch_shift host s g.intake id
  rw [(intake_goes g).cycle] at told
  have evicted := evict_shift (dispatch_indexed (intake_indexed indexed) host s)
    (dispatch_rest host s g.intake).1 id
  rw [toldAndEvicted, life_clearDeferred]
  exact (Shifts.one told).trans (.one evicted)

end Graph

/-! ## Tales -/

/-- What happens on the way from a graph to another, as far as listeners have to do with it. -/
inductive Moment where
  | queued (note : Notification)
  /-- All that is queued is told in a poll, of which this is the number. -/
  | told (cycle : Nat)

namespace Moment

def note? : Moment → Option Notification
  | queued note => some note
  | told _ => none

def beat? (id : ObjectId) : Moment → Option Beat
  | queued (.record other how) => if other = id then some (.queued how) else none
  | queued (.pool _ _) => none
  | told cycle => some (.told cycle)

end Moment

def notes (log : List Moment) : List Notification := log.filterMap Moment.note?

/-- What of all that happens concerns one object. -/
def beats (id : ObjectId) (log : List Moment) : List Beat := log.filterMap (Moment.beat? id)

theorem notes_append (log more : List Moment) : notes (log ++ more) = notes log ++ notes more :=
  List.filterMap_append

theorem notes_queued (said : List Notification) : notes (said.map .queued) = said := by
  simp [notes, List.filterMap_map, Function.comp_def, Moment.note?]

theorem beats_append (id : ObjectId) (log more : List Moment) :
    beats id (log ++ more) = beats id log ++ beats id more := List.filterMap_append

theorem beats_queued (id : ObjectId) (said : List Notification) :
    beats id (said.map .queued) = (heard id said).map .queued := by
  simp only [beats, heard, List.filterMap_map, List.map_filterMap]
  congr
  funext note
  cases note with
  | record other how => by_cases here : other = id <;> simp [Moment.beat?, here]
  | pool => rfl

theorem beats_told (id : ObjectId) (cycle : Nat) : beats id [.told cycle] = [.told cycle] := rfl

theorem words_beats (id : ObjectId) (log : List Moment) :
    words (beats id log) = heard id (notes log) := by
  simp only [words, beats, heard, notes, List.filterMap_filterMap]
  congr
  funext moment
  cases moment with
  | queued note =>
      cases note with
      | record other how =>
          by_cases here : other = id <;> simp [Moment.beat?, Moment.note?, Beat.word?, here]
      | pool signal event => rfl
  | told cycle => rfl

namespace Graph

variable {α σ : Type} {g h k : Graph α} {log later : List Moment} {id : ObjectId}

/-- A run, with what was told and when. -/
inductive Tale : Graph α → List Moment → Graph α → Prop
  | refl (g : Graph α) : Tale g [] g
  | call {g h : Graph α} {log : List Moment} (before : Tale g log h) (c : Call α) :
      Tale g (log ++ (news h (h.call c)).map .queued) (h.call c)
  | poll {σ : Type} {g h : Graph α} {log later : List Moment} (before : Tale g log h)
      (host : Host α σ) (s : σ) (acts : Tale (h.toldAndEvicted host s) later (poll host s h).2.1) :
      Tale g (log ++ (news h h.intake).map .queued ++ [.told (h.cycle + 1)] ++ later)
        (poll host s h).2.1

theorem Run.tale {law : Law α} {said : List Notification} (run : Run law g said h) :
    ∃ log, Tale g log h ∧ notes log = said := by
  induction run with
  | refl g => exact ⟨[], .refl g, rfl⟩
  | call before c may ih =>
      obtain ⟨log, tale, rfl⟩ := ih
      exact ⟨_, tale.call c, by rw [notes_append, notes_queued]⟩
  | poll before host s may acts ih ihActs =>
      obtain ⟨log, tale, rfl⟩ := ih
      obtain ⟨later, acted, rfl⟩ := ihActs
      refine ⟨_, tale.poll host s acted, ?_⟩
      simp only [notes_append, notes_queued]
      exact congrArg (· ++ notes later) (List.append_nil _)

namespace Tale

theorem trans (first : Tale g log h) (second : Tale h later k) : Tale g (log ++ later) k := by
  induction second with
  | refl h => exact (List.append_nil log).symm ▸ first
  | call before c ih => exact List.append_assoc .. ▸ (ih first).call c
  | poll before host s acts ih ihActs =>
      simp only [← List.append_assoc]
      exact (ih first).poll host s acts

theorem run (tale : Tale g log h) : Run (Law.any α) g (notes log) h := by
  induction tale with
  | refl g => exact .refl g
  | call before c ih =>
      rw [notes_append, notes_queued]
      exact ih.call c trivial
  | @poll _ g h log later before host s acts ih ihActs =>
      have same : notes (log ++ (news h h.intake).map .queued ++ [.told (h.cycle + 1)] ++ later) =
          notes log ++ news h h.intake ++ notes later := by
        simp only [notes_append, notes_queued]
        exact congrArg (· ++ notes later) (List.append_nil _)
      exact same ▸ ih.poll host s (drainsBy_any _ _) ihActs

theorem indexed (tale : Tale g log h) (start : g.store.Indexed) : h.store.Indexed :=
  (indexed_isHeld.run tale.run start).1

theorem shifts (tale : Tale g log h) (start : g.store.Indexed) (id : ObjectId) :
    Shifts (g.life id) (beats id log) (h.life id) := by
  induction tale with
  | refl g => exact .done _
  | call before c ih =>
      rw [beats_append, beats_queued]
      exact (ih start).trans (call_shifts _ c id)
  | @poll _ g h log later before host s acts ih ihActs =>
      have indexed := before.indexed start
      have told := indexed_isHeld.toldAndEvicted host s h (intake_indexed indexed)
      simp only [beats_append, beats_queued]
      exact (((ih start).trans (intake_shifts h id)).trans
        (toldAndEvicted_shifts indexed host s id)).trans (ihActs told.1)

variable {wire : Wire} {config : Config}

theorem stands (tale : Tale (make wire config) log g) (id : ObjectId) :
    (g.life id).Stands (beats id log) :=
  Life.Stands.start.shifts (tale.shifts .empty id)

end Tale

/-! ## What listeners can see -/

/-- Whether a graph comes to be seen as another: after calls and polls, or in the midst of a poll,
    when all is taken in and listeners are told. -/
inductive Seen (g : Graph α) : List Notification → Graph α → Prop
  | after {said : List Notification} {h : Graph α} (run : Run (Law.any α) g said h) : Seen g said h
  | within {said : List Notification} {h : Graph α} (run : Run (Law.any α) g said h) :
      Seen g (said ++ news h h.intake) h.intake

theorem Seen.shifts {said : List Notification} (seen : Seen g said h) (start : g.store.Indexed)
    (id : ObjectId) : ∃ beats, words beats = heard id said ∧
      Shifts (g.life id) beats (h.life id) := by
  cases seen with
  | after run =>
      obtain ⟨log, tale, rfl⟩ := run.tale
      exact ⟨_, words_beats id log, tale.shifts start id⟩
  | within run =>
      obtain ⟨log, tale, rfl⟩ := run.tale
      refine ⟨_, ?_, (tale.shifts start id).trans (intake_shifts _ id)⟩
      rw [words_append, words_beats, heard_append]
      exact congrArg (heard id (notes log) ++ ·) (words_queued _)

/-- Whatever happens to a graph, what is said of one object begins a succession of lives: added,
    modified any number of times, and then removed or expired. Its record is at the stage of which
    is said last, and has an end if and only if that is one. As long as the object is not said to be
    added again, its record is tied as it was before, and if it was gone it is gone in the same
    way. -/
theorem record_lives {wire : Wire} {config : Config} {said more : List Notification}
    (run : Run (Law.any α) (make wire config) said g) (seen : Seen g more h) (id : ObjectId) :
    (∃ whole ∈ lives, heard id (said ++ more) <+: whole) ∧
      ∀ r, h.store.find? id = some r →
        (∃ how, (heard id (said ++ more)).getLast? = some how ∧ r.status = how.status) ∧
        (r.terminalAt.isSome ↔ r.status.isTerminal) ∧
        (.added ∉ heard id more → ∃ before, g.store.find? id = some before ∧
          r.kind = before.kind ∧ r.wiring.ties = before.wiring.ties ∧
          (before.status.isTerminal → r.status = before.status)) := by
  obtain ⟨log, tale, rfl⟩ := run.tale
  obtain ⟨beats, same, shifts⟩ := seen.shifts (tale.indexed .empty) id
  have stands := (tale.stands id).shifts shifts
  have whole : words (SignalGraph.beats id log ++ beats) = heard id (notes log ++ more) := by
    rw [words_append, words_beats, same, heard_append]
  refine ⟨whole ▸ stands.chronicle.isPrefix, fun r held => ?_⟩
  have standing := standing_life held
  obtain ⟨how, last, status, terminal⟩ := stands.stage _ standing
  refine ⟨⟨how, whole ▸ last, status⟩, terminal, fun unsaid => ?_⟩
  obtain ⟨_, before, continues⟩ := shifts.continues (same ▸ unsaid) standing
  obtain ⟨r', held', rfl⟩ := Option.map_eq_some_iff.mp before
  refine ⟨r', held', ?_, continues.ties, fun gone => continues.status ?_⟩
  · rw [← r.frame_kind, ← r'.frame_kind]
    exact congrArg Ties.kind continues.ties
  · simpa [Standing.isLive, Record.standing] using gone

/-- The life of a signal that was heard of and is removed. -/
theorem heardOfSignal_removed_lives :
    (∃ whole ∈ lives, [.added, .removed] <+: whole) ∧ ∃ r before,
      ((heardOfSignal ⟨[.set (.wellKnown .device) (.ofId ⟨1⟩)]⟩).call (.remove ⟨2⟩)).store.find?
        ⟨2⟩ = some r ∧
      (heardOfSignal ⟨[.set (.wellKnown .device) (.ofId ⟨1⟩)]⟩).store.find? ⟨2⟩ = some before ∧
      r.status = .removed ∧ r.terminalAt.isSome ∧ r.wiring.ties = before.wiring.ties := by
  have one (g : Graph Unit) (c : Call Unit) : Run (Law.any Unit) g (news g (g.call c)) (g.call c) :=
    (Run.refl g).call c trivial
  have made : Run (Law.any Unit) (make (.quiet ⟨0, 0⟩) .standard)
      (news (make (.quiet ⟨0, 0⟩) .standard)
        (heardOfSignal ⟨[.set (.wellKnown .device) (.ofId ⟨1⟩)]⟩))
      (heardOfSignal ⟨[.set (.wellKnown .device) (.ofId ⟨1⟩)]⟩) :=
    one _ (.apply .announce ⟨.signal, ⟨2⟩, ⟨[.set (.wellKnown .device) (.ofId ⟨1⟩)]⟩, []⟩)
  have removed := one (heardOfSignal ⟨[.set (.wellKnown .device) (.ofId ⟨1⟩)]⟩) (.remove ⟨2⟩)
  obtain ⟨begun, stage⟩ := record_lives made (.after removed) ⟨2⟩
  have heard : heard ⟨2⟩ (news (make (.quiet ⟨0, 0⟩) .standard)
      (heardOfSignal ⟨[.set (.wellKnown .device) (.ofId ⟨1⟩)]⟩) ++
      news (heardOfSignal ⟨[.set (.wellKnown .device) (.ofId ⟨1⟩)]⟩)
        ((heardOfSignal ⟨[.set (.wellKnown .device) (.ofId ⟨1⟩)]⟩).call (.remove ⟨2⟩))) =
      [.added, .removed] := by decide
  rw [heard] at begun stage
  have there : (((heardOfSignal ⟨[.set (.wellKnown .device) (.ofId ⟨1⟩)]⟩).call
      (.remove ⟨2⟩)).store.find? ⟨2⟩).isSome := by decide
  obtain ⟨r, held⟩ := Option.isSome_iff_exists.mp there
  obtain ⟨⟨how, last, status⟩, terminal, same⟩ := stage r held
  obtain rfl : .removed = how := Option.some.inj last
  obtain ⟨before, held', -, ties, -⟩ := same (by decide)
  exact ⟨begun, r, before, held, held', status, terminal.mpr (status ▸ rfl), ties⟩

end Graph

end SignalGraph
