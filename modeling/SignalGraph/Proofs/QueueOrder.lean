import SignalGraph.Graph.Basic

/-! # The order of all that waits

All that waits in a graph, and the rules by which it waits: messages, notifications and actions each
leave in the order in which they came, and no earlier and no later than they may. A log that keeps
the rules loses nothing and repeats nothing.
-/

namespace SignalGraph

/-- What happens to what waits in a graph. -/
inductive Happening (α : Type) where
  | arrived (event : NetworkEvent)
  | handled (event : NetworkEvent)
  | queued (note : Notification)
  | told (note : Notification) (audience : List Listener)
  /-- There was no record to tell of. -/
  | skipped (note : Notification)
  | deferred (action : α)
  /-- A poll has told all there was to tell, and let go of records. It takes up the actions put off. -/
  | evicted
  | ran (action : α)
  /-- A poll has run all the actions that it took up. -/
  | finished

/-- What waits in a graph: messages, notifications, and actions put off. Of the actions that polls
    have taken up, those of the innermost poll come first. -/
structure Agenda (α : Type) where
  inbox : List NetworkEvent
  waiting : List Notification
  deferred : List α
  running : List (List α)

variable {α : Type}

def arrivals (log : List (Happening α)) : List NetworkEvent :=
  log.filterMap fun
    | .arrived event => some event
    | _ => none

def handlings (log : List (Happening α)) : List NetworkEvent :=
  log.filterMap fun
    | .handled event => some event
    | _ => none

def queuings (log : List (Happening α)) : List Notification :=
  log.filterMap fun
    | .queued note => some note
    | _ => none

def tellings (log : List (Happening α)) : List Notification :=
  log.filterMap fun
    | .told note _ => some note
    | _ => none

def deferrals (log : List (Happening α)) : List α :=
  log.filterMap fun
    | .deferred action => some action
    | _ => none

def actions (log : List (Happening α)) : List α :=
  log.filterMap fun
    | .ran action => some action
    | _ => none

namespace Agenda

variable {a b c : Agenda α} {log later : List (Happening α)}

/-- The rules. Listeners are told in the order of their numbers. A poll lets go of records once
    nothing is left to be told, and takes up all actions put off until then. It runs them in order;
    what they put off in turn it does not run. Nothing is skipped. -/
inductive Step : Agenda α → Happening α → Agenda α → Prop
  | arrived (a : Agenda α) (event : NetworkEvent) :
      Step a (.arrived event) { a with inbox := a.inbox ++ [event] }
  | handled {a : Agenda α} {event : NetworkEvent} {rest : List NetworkEvent}
      (first : a.inbox = event :: rest) : Step a (.handled event) { a with inbox := rest }
  | queued (a : Agenda α) (note : Notification) :
      Step a (.queued note) { a with waiting := a.waiting ++ [note] }
  | told {a : Agenda α} {note : Notification} {rest : List Notification}
      {audience : List Listener} (first : a.waiting = note :: rest)
      (ordered : audience.Pairwise fun l m => l.number < m.number) :
      Step a (.told note audience) { a with waiting := rest }
  | deferred (a : Agenda α) (action : α) :
      Step a (.deferred action) { a with deferred := a.deferred ++ [action] }
  | evicted {a : Agenda α} (none : a.waiting = []) :
      Step a .evicted { a with deferred := [], running := a.deferred :: a.running }
  | ran {a : Agenda α} {action : α} {rest : List α} {outer : List (List α)}
      (first : a.running = (action :: rest) :: outer) :
      Step a (.ran action) { a with running := rest :: outer }
  | finished {a : Agenda α} {outer : List (List α)} (none : a.running = [] :: outer) :
      Step a .finished { a with running := outer }

/-- A log that keeps the rules, from one agenda to another. -/
inductive Steps : Agenda α → List (Happening α) → Agenda α → Prop
  | done (a : Agenda α) : Steps a [] a
  | next {a b c : Agenda α} {happening : Happening α} {log : List (Happening α)}
      (step : Step a happening b) (rest : Steps b log c) : Steps a (happening :: log) c

namespace Steps

theorem one {happening : Happening α} (step : Step a happening b) : Steps a [happening] b :=
  .next step (.done b)

theorem trans (first : Steps a log b) (second : Steps b later c) : Steps a (log ++ later) c := by
  induction first with
  | done a => exact second
  | next step _ ih => exact .next step (ih second)

theorem split (steps : Steps a (log ++ later) c) : ∃ b, Steps a log b ∧ Steps b later c := by
  induction log generalizing a with
  | nil => exact ⟨a, .done a, steps⟩
  | cons happening log ih =>
      cases steps with
      | next step rest =>
          obtain ⟨b, before, after⟩ := ih rest
          exact ⟨b, .next step before, after⟩

theorem arrive (a : Agenda α) (events : List NetworkEvent) :
    Steps a (events.map .arrived) { a with inbox := a.inbox ++ events } := by
  induction events generalizing a with
  | nil => simpa using done a
  | cons event events ih => simpa using next (.arrived a event) (ih _)

theorem queue (a : Agenda α) (said : List Notification) :
    Steps a (said.map .queued) { a with waiting := a.waiting ++ said } := by
  induction said generalizing a with
  | nil => simpa using done a
  | cons note said ih => simpa using next (.queued a note) (ih _)

theorem defer (a : Agenda α) (put : List α) :
    Steps a (put.map .deferred) { a with deferred := a.deferred ++ put } := by
  induction put generalizing a with
  | nil => simpa using done a
  | cons action put ih => simpa using next (.deferred a action) (ih _)

/-! ## What keeps the rules loses nothing -/

/-- Messages are handled in the order in which they arrive, each once; those that are not, wait. -/
theorem messages (steps : Steps a log b) :
    a.inbox ++ arrivals log = handlings log ++ b.inbox := by
  induction steps with
  | done a => simp [arrivals, handlings]
  | next step _ ih =>
      cases step with
      | handled first => simpa [arrivals, handlings, first] using ih
      | _ => simpa [arrivals, handlings] using ih

/-- Notifications are told in the order in which they are queued, each once; those that are not,
    wait. -/
theorem notifications (steps : Steps a log b) :
    a.waiting ++ queuings log = tellings log ++ b.waiting := by
  induction steps with
  | done a => simp [queuings, tellings]
  | next step _ ih =>
      cases step with
      | told first ordered => simpa [queuings, tellings, first] using ih
      | _ => simpa [queuings, tellings] using ih

/-- No notification outlasts a poll. -/
theorem notifications_evicted (steps : Steps a (log ++ .evicted :: later) b) :
    a.waiting ++ queuings log = tellings log := by
  obtain ⟨c, before, after⟩ := steps.split
  cases after with
  | next step _ =>
      cases step with
      | evicted none => simpa [none] using before.notifications

/-- Each action that is put off runs once, or has still to. -/
theorem actions_perm (steps : Steps a log b) :
    (a.deferred ++ a.running.flatten ++ deferrals log).Perm
      (actions log ++ (b.deferred ++ b.running.flatten)) := by
  induction steps with
  | done a => simp [deferrals, actions]
  | @next a b c happening log step _ ih =>
      cases step with
      | deferred action =>
          have put : deferrals (.deferred action :: log) = action :: deferrals log := rfl
          refine List.Perm.trans ?_ ih
          rw [put]
          simp only [List.append_assoc]
          exact List.Perm.append_left _ List.perm_middle
      | evicted none => simpa [deferrals, actions] using ih
      | @ran action rest outer first =>
          have ran : actions (.ran action :: log) = action :: actions log := rfl
          rw [ran, List.cons_append]
          refine List.Perm.trans ?_ (ih.cons action)
          simp only [deferrals, first, List.flatten_cons, List.cons_append, List.append_assoc]
          exact List.perm_middle
      | finished none => simpa [deferrals, actions, none] using ih
      | _ => simpa [deferrals, actions] using ih

end Steps

end Agenda

end SignalGraph
