import SignalGraph.Proofs.Lifecycle

/-! # Eviction

When a graph lets go of a record: in a poll, after all is told, once its object is gone, an earlier
poll told so, and the grace period is over. Nothing else lets go of records.
-/

namespace SignalGraph

/-- A host that hears and puts off what another does, but does nothing of what it puts off. -/
def Host.idle {α σ : Type} (host : Host α σ) : Host α σ := ⟨host.hear, fun s g _ => (s, g)⟩

/-- A host that hears nothing and does nothing. -/
def Host.deaf : Host Unit Unit := ⟨fun s _ _ _ _ => (s, []), fun s g _ => (s, g)⟩

namespace Graph

variable {α σ : Type} {g h k : Graph α} {log later : List Moment} {id : ObjectId}

theorem dispatch_idle (host : Host α σ) (s : σ) (g : Graph α) :
    dispatch host.idle s g = dispatch host s g := rfl

theorem toldAndEvicted_idle (host : Host α σ) (s : σ) (g : Graph α) :
    g.toldAndEvicted host.idle s = g.toldAndEvicted host s := by
  simp only [toldAndEvicted, dispatch_idle]

theorem foldl_idle (host : Host α σ) (actions : List α) (x : σ × Graph α) :
    actions.foldl (fun (s, g) action => host.idle.act s g action) x = x := by
  induction actions with
  | nil => rfl
  | cons action actions ih => exact ih

theorem poll_idle (host : Host α σ) (s : σ) (g : Graph α) :
    (poll host.idle s g).2.1 = g.toldAndEvicted host s := by
  rw [poll_eq, foldl_idle, toldAndEvicted_idle]

theorem Tale.told (tale : Tale g log h) (host : Host α σ) (s : σ) :
    Tale g (log ++ (news h h.intake).map .queued ++ [.told (h.cycle + 1)])
      (h.toldAndEvicted host s) := by
  have acts : Tale (h.toldAndEvicted host.idle s) [] (Graph.poll host.idle s h).2.1 := by
    rw [poll_idle, toldAndEvicted_idle]
    exact .refl _
  have polled := tale.poll host.idle s acts
  rwa [List.append_nil, poll_idle] at polled

/-- Also the graphs that the actions put off in a poll come upon, and those that they poll in turn,
    are ends of tales. -/
theorem Tale.within (tale : Tale g log h) (host : Host α σ) (s : σ)
    (acts : Tale (h.toldAndEvicted host s) later k) :
    Tale g (log ++ (news h h.intake).map .queued ++ [.told (h.cycle + 1)] ++ later) k :=
  (tale.told host s).trans acts

/-! ## What stays -/

theorem intake_holds (held : (g.store.find? id).isSome) : (g.intake.store.find? id).isSome :=
  (intake_goes g).holds held

theorem call_holds (c : Call α) (held : (g.store.find? id).isSome) :
    ((g.call c).store.find? id).isSome := by
  rcases call_goes g c with goes | ⟨wire, same⟩
  · exact goes.holds held
  · exact same ▸ held

theorem find?_toldAndEvicted (indexed : g.store.Indexed) (host : Host α σ) (s : σ)
    (id : ObjectId) : (g.toldAndEvicted host s).store.find? id =
      ((dispatch host s g.intake).2.store.find? id).filter
        fun r => !(dispatch host s g.intake).2.isDoomed r := by
  simp only [toldAndEvicted, find?_evict (dispatch_indexed (intake_indexed indexed) host s)]

theorem isDoomed_dispatch (host : Host α σ) (s : σ) (g : Graph α) (r : Record) :
    (dispatch host s g.intake).2.isDoomed r ↔ r.status.isTerminal ∧
      (∃ cycle, r.observedCycle = some cycle ∧ cycle < g.cycle + 1) ∧
      ∃ t, r.terminalAt = some t ∧ g.now.hasElapsed t g.config.graceSeconds := by
  obtain ⟨-, cycle, now, config⟩ := dispatch_rest host s g.intake
  have begun := intake_goes g
  have cycle : (dispatch host s g.intake).2.cycle = g.cycle + 1 := cycle.trans begun.cycle
  have now : (dispatch host s g.intake).2.now = g.now := now.trans begun.now
  have config : (dispatch host s g.intake).2.config = g.config := config.trans begun.config
  simp only [isDoomed, cycle, now, config]
  simp only [Record.isLive, Bool.not_not, Bool.and_eq_true, Option.any_eq_true, decide_eq_true_eq,
    and_assoc]

theorem find?_toldAndEvicted_of_stays {host : Host α σ} {s : σ} {r : Record}
    (indexed : g.store.Indexed)
    (held : (dispatch host s g.intake).2.store.find? id = some r)
    (stays : ¬ (dispatch host s g.intake).2.isDoomed r) :
    (g.toldAndEvicted host s).store.find? id = some r := by
  rw [find?_toldAndEvicted indexed, held, Option.filter_some, if_pos (by simpa using stays)]

theorem find?_toldAndEvicted_eq_none_iff {host : Host α σ} {s : σ} {r : Record}
    (indexed : g.store.Indexed)
    (held : (dispatch host s g.intake).2.store.find? id = some r) :
    (g.toldAndEvicted host s).store.find? id = none ↔
      (dispatch host s g.intake).2.isDoomed r := by
  rw [find?_toldAndEvicted indexed, held, Option.filter_some]
  cases (dispatch host s g.intake).2.isDoomed r <;> simp

/-- A record as it is once it was told of. -/
theorem find?_dispatch_some {r : Record} (held : g.intake.store.find? id = some r)
    (host : Host α σ) (s : σ) : ∃ observedCycle,
      (dispatch host s g.intake).2.store.find? id = some { r with observedCycle } := by
  rw [find?_dispatch, held]
  split
  · exact ⟨r.observedCycle, rfl⟩
  · exact ⟨some g.intake.cycle, rfl⟩

/-- A poll lets go of a record if and only if its object is gone, an earlier poll told so, and the
    grace period is over. What is said of an object is told while its record is held, which stays.
    Neither what a poll takes in nor any call lets go of a record otherwise than for a new one. -/
theorem eviction {wire : Wire} {config : Config} (tale : Tale (make wire config) log g)
    (host : Host α σ) (s : σ) (id : ObjectId) :
    (∀ r, g.intake.store.find? id = some r →
      ((g.toldAndEvicted host s).store.find? id = none ↔ r.status.isTerminal ∧
        (∃ how cycle, ToldIn (beats id (log ++ (news g g.intake).map .queued ++
          [.told (g.cycle + 1)])) how cycle ∧ how.status = r.status ∧ cycle < g.cycle + 1) ∧
        ∃ t, r.terminalAt = some t ∧ g.now.hasElapsed t g.config.graceSeconds)) ∧
    (∀ how, .record id how ∈ g.intake.notifications → ∃ r, g.intake.store.find? id = some r ∧
      (g.toldAndEvicted host s).store.find? id =
        some { r with observedCycle := some (g.cycle + 1) }) ∧
    ((g.store.find? id).isSome → (g.intake.store.find? id).isSome) ∧
    ∀ c, (g.store.find? id).isSome → ((g.call c).store.find? id).isSome := by
  have indexed := tale.indexed .empty
  have tookIn := (tale.stands id).shifts (intake_shifts g id)
  have cycle : g.intake.cycle = g.cycle + 1 := (intake_goes g).cycle
  have told := tookIn.shift (dispatch_shift host s g.intake id)
  rw [cycle, ← beats_queued, ← beats_append, ← beats_told id, ← beats_append] at told
  refine ⟨fun r held => ?_, fun how member => ?_, intake_holds, call_holds⟩
  · obtain ⟨observedCycle, dispatched⟩ := find?_dispatch_some held host s
    rw [find?_toldAndEvicted_eq_none_iff indexed dispatched, isDoomed_dispatch]
    -- All that waited is told by now, so the mark is the cycle in which the end was told.
    refine and_congr_right fun gone => and_congr_left fun _ => ?_
    have observed := told.observed_iff (waiting_life (dispatch_rest host s g.intake).1)
      (standing_life dispatched) (by simpa [Standing.isLive, Record.standing] using gone)
    constructor
    · rintro ⟨cycle, mark, earlier⟩
      obtain ⟨how, toldIn, status⟩ := (observed cycle).mp mark
      exact ⟨how, cycle, toldIn, status, earlier⟩
    · rintro ⟨how, cycle, toldIn, status, earlier⟩
      exact ⟨cycle, (observed cycle).mpr ⟨how, toldIn, status⟩, earlier⟩
  · have some : (g.intake.life id).waiting ≠ [] :=
      List.ne_nil_of_mem (mem_heard_iff.mpr member)
    obtain ⟨r, held⟩ := Option.ne_none_iff_exists'.mp
      (fun none => tookIn.held some (congrArg (Option.map _) none))
    refine ⟨r, held, ?_⟩
    have dispatched := find?_dispatch host s g.intake id
    rw [if_neg (show heard id g.intake.notifications ≠ [] from some), held, cycle] at dispatched
    -- The mark was set in this poll, which is no earlier one.
    refine find?_toldAndEvicted_of_stays indexed dispatched fun doomed => ?_
    obtain ⟨-, ⟨mark, same, earlier⟩, -⟩ := (isDoomed_dispatch host s g _).mp doomed
    exact absurd (Option.some.inj same) (Nat.ne_of_gt earlier)

/-- A graph without a grace period that has heard of signal 2, which was then removed. -/
def removedSignal : Graph Unit :=
  ((make (.quiet ⟨0, 0⟩) { Config.standard with gracePeriodMs := 0, deviceTimeoutSecs := 0 }).call
    (.apply .announce ⟨.signal, ⟨2⟩, ⟨[.set (.wellKnown .device) (.ofId ⟨1⟩)]⟩, []⟩)).call
    (.remove ⟨2⟩)

/-- The poll that tells of the removal keeps the signal, and the next lets go of it. -/
theorem removedSignal_evicted :
    ((removedSignal.toldAndEvicted .deaf ()).store.find? ⟨2⟩).isSome ∧
      ((removedSignal.toldAndEvicted .deaf ()).toldAndEvicted .deaf ()).store.find? ⟨2⟩ = none := by
  have tale : Tale _ _ removedSignal := ((Tale.refl (make (.quiet ⟨0, 0⟩)
    { Config.standard with gracePeriodMs := 0, deviceTimeoutSecs := 0 } : Graph Unit)).call
    (.apply .announce ⟨.signal, ⟨2⟩, ⟨[.set (.wellKnown .device) (.ofId ⟨1⟩)]⟩, []⟩)).call
    (.remove ⟨2⟩)
  obtain ⟨-, heard, -⟩ := eviction tale .deaf () ⟨2⟩
  obtain ⟨r, -, kept⟩ := heard .removed (mem_heard_iff.mp (by decide +kernel))
  refine ⟨Option.isSome_of_eq_some kept, ?_⟩
  obtain ⟨gone, -⟩ := eviction (tale.within .deaf () (.refl _)) .deaf () ⟨2⟩
  have there : ((removedSignal.toldAndEvicted .deaf ()).intake.store.find? ⟨2⟩).any
      fun r => r.status = .removed ∧ r.terminalAt = some ⟨0, 0⟩ := by decide +kernel
  obtain ⟨r, held, facts⟩ := (Option.any_eq_true ..).mp there
  obtain ⟨status, terminalAt⟩ := of_decide_eq_true facts
  refine (gone r held).mpr ⟨by rw [status]; rfl, ⟨.removed, 1, ?_, status.symm, by decide +kernel⟩,
    ⟨0, 0⟩, terminalAt, by decide +kernel⟩
  exact ⟨[.queued .added], [.told 2], by decide +kernel, rfl⟩

end Graph

end SignalGraph
