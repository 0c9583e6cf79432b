import SignalGraph.Proofs.Cascade

/-! # Maps that go with a link

A link that goes takes the maps along that are attached to both its devices. All that lead from one
of its devices to the other are among them. But so is a map that two different devices have sources
of and neither the destination, and where both ends of the link are one device, a map that only
starts or only ends there.
-/

namespace SignalGraph

open Relation (ReflTransGen)

/-! ## Maps between devices -/

namespace Store

variable {s : Store} {device first second link map : ObjectId} {r u : Record}

instance (s : Store) (device signal : ObjectId) : Decidable (s.Owns device signal) :=
  inferInstanceAs (Decidable (_ = _))

/-- Whether a map has a source on a device. -/
def StartsOn (s : Store) (r : Record) (device : ObjectId) : Prop :=
  ∃ signal ∈ r.sources, s.Owns device signal

/-- Whether a map has its destination on a device. -/
def EndsOn (s : Store) (r : Record) (device : ObjectId) : Prop :=
  ∃ signal ∈ r.destination?, s.Owns device signal

instance : Decidable (s.StartsOn r device) :=
  inferInstanceAs (Decidable (∃ signal ∈ r.sources, s.Owns device signal))

instance : Decidable (s.EndsOn r device) :=
  inferInstanceAs (Decidable (∃ signal ∈ r.destination?, s.Owns device signal))

/-- Whether a map leads from one of two devices to the other. -/
def Crosses (s : Store) (r : Record) (first second : ObjectId) : Prop :=
  s.StartsOn r first ∧ s.EndsOn r second ∨ s.StartsOn r second ∧ s.EndsOn r first

instance : Decidable (s.Crosses r first second) := inferInstanceAs (Decidable (_ ∨ _))

/-- Whether a map is attached to two devices and yet does not lead from one to the other: it has
    sources on both and its destination elsewhere, or they are the same and it only starts or only
    ends there. -/
def Strays (s : Store) (r : Record) (first second : ObjectId) : Prop :=
  if first = second then s.StartsOn r first ↔ ¬ s.EndsOn r first
  else s.StartsOn r first ∧ s.StartsOn r second ∧ ¬ s.EndsOn r first ∧ ¬ s.EndsOn r second

theorem attached_iff :
    (∃ signal ∈ r.mapSignals, s.Owns device signal) ↔ s.StartsOn r device ∨ s.EndsOn r device := by
  simp only [Record.mapSignals, List.mem_append, Option.mem_toList, or_and_right, exists_or,
    StartsOn, EndsOn, Option.mem_def]

/-- A map has its destination on one device at most. -/
theorem EndsOn.unique (one : s.EndsOn r first) (other : s.EndsOn r second) : first = second := by
  obtain ⟨signal, there, owned⟩ := one
  obtain ⟨signal', there', owned'⟩ := other
  obtain rfl := Option.some.inj (there.symm.trans there')
  exact Option.some.inj (owned.symm.trans owned')

theorem Strays.not_crosses (strays : s.Strays r first second) : ¬ s.Crosses r first second := by
  unfold Strays at strays
  unfold Crosses
  split at strays
  · rename_i same
    subst same
    grind
  · grind

/-- Where one of two different devices has the destination of a map, the map does not stray. -/
theorem not_strays_of_endsOn (apart : first ≠ second)
    (ends : s.EndsOn r first ∨ s.EndsOn r second) : ¬ s.Strays r first second := by
  unfold Strays
  rw [if_neg apart]
  grind

/-- What hangs on a link are the maps across it and those that stray. -/
theorem hangsOn_link_iff (isLink : u.kind = .link) (ends : u.linkEnds = [first, second])
    (isMap : r.kind = .map) :
    s.HangsOn r u ↔ s.Crosses r first second ∨ s.Strays r first second := by
  have attached : s.HangsOn r u ↔
      (s.StartsOn r first ∨ s.EndsOn r first) ∧ (s.StartsOn r second ∨ s.EndsOn r second) := by
    simp only [HangsOn, isLink, ends, isMap, true_and, List.forall_mem_cons, List.not_mem_nil,
      false_implies, implies_true, and_true, attached_iff]
  rw [attached]
  unfold Strays Crosses
  by_cases same : first = second
  · subst same
    rw [if_pos rfl]
    grind
  · rw [if_neg same]
    -- The map cannot end on both, so that of the four ways to be attached one is out.
    have once : ¬ (s.EndsOn r first ∧ s.EndsOn r second) := fun both => same (both.1.unique both.2)
    grind

/-- A map drags nothing along. -/
theorem not_drags_of_map (held : s.find? map = some r) (isMap : r.kind = .map) (lower : ObjectId) :
    ¬ s.Drags map lower := by
  rintro ⟨u, lowerRecord, held', -, -, hangs⟩
  obtain rfl := Option.some.inj (held.symm.trans held')
  rwa [HangsOn, isMap] at hangs

/-- What a link drags along are maps, and these nothing more. -/
theorem drags_of_path (held : s.find? link = some u) (isLink : u.kind = .link)
    (path : ReflTransGen s.Drags link map) : link = map ∨ s.Drags link map := by
  induction path with
  | refl => exact .inl rfl
  | tail _ drags ih =>
      rcases ih with rfl | before
      · exact .inr drags
      · obtain ⟨u', middle, held', heldMiddle, -, hangs⟩ := before
        obtain rfl := Option.some.inj (held.symm.trans held')
        simp only [HangsOn, isLink] at hangs
        exact absurd drags (not_drags_of_map heldMiddle hangs.1 _)

end Store

/-! ## Links that go -/

namespace Graph

variable {α : Type} {config : Config} {g : Graph α} {how : Lifecycle}
  {link map first second : ObjectId} {l m : Record}

/-- What a removed link leaves of a map. -/
theorem find?_remove_link (indexed : g.store.Indexed) (terminal : how.status.isTerminal)
    (held : g.store.find? link = some l) (live : l.isLive) (isLink : l.kind = .link)
    (there : g.store.find? map = some m) (alive : m.isLive) (isMap : m.kind = .map)
    [Decidable (g.store.HangsOn m l)] :
    (g.remove link how).1.store.find? map =
      some (if g.store.HangsOn m l then g.retired m how else m) := by
  obtain ⟨rest, avalanche, removed⟩ := remove_sweeps terminal indexed held live
  have gone : map ∈ link :: rest ↔ g.store.HangsOn m l := by
    rw [avalanche.mem_iff_path (Store.not_isVacant held live)]
    constructor
    · intro path
      rcases Store.drags_of_path held isLink path with rfl | ⟨l', m', held', there', -, hangs⟩
      · obtain rfl := Option.some.inj (held.symm.trans there)
        cases isLink.symm.trans isMap
      · obtain rfl := Option.some.inj (held.symm.trans held')
        obtain rfl := Option.some.inj (there.symm.trans there')
        exact hangs
    · intro hangs
      exact .single ⟨l, m, held, there, alive, hangs⟩
  rw [removed]
  have found := find?_retireAll g (link :: rest) how map
  rw [there, Option.map_some] at found
  simp only [gone] at found
  exact found

/-- A live link that goes, whose devices are two different ones, takes a live map along of which one
    of them has the destination just if the map leads from one of them to the other. Of the maps
    that lead so every link takes all, and it takes besides just the maps that stray; what it does
    not take stays as it is. -/
theorem link_takes_maps (reachable : Reachable config g) (terminal : how.status.isTerminal)
    (held : g.store.find? link = some l) (live : l.isLive) (ends : l.linkEnds = [first, second])
    (there : g.store.find? map = some m) (alive : m.isLive) (isMap : m.kind = .map) :
    let h := (g.remove link how).1
    (first ≠ second → g.store.EndsOn m first ∨ g.store.EndsOn m second →
      (h.store.IsVacant map ↔ g.store.Crosses m first second)) ∧
    (h.store.IsVacant map ↔
      g.store.Crosses m first second ∨ g.store.Strays m first second) ∧
    (g.store.Strays m first second → ¬ g.store.Crosses m first second) ∧
    (¬ h.store.IsVacant map → h.store.find? map = some m) := by
  classical
  intro h
  have isLink : l.kind = .link := by
    have member : first ∈ l.linkEnds := ends ▸ List.mem_cons_self
    exact Record.kind_of_mem_linkEnds member
  have found := find?_remove_link reachable.indexed terminal held live isLink there alive isMap
  have takes : h.store.IsVacant map ↔ g.store.HangsOn m l := by
    constructor
    · intro vacant
      by_contra stays
      rw [if_neg stays] at found
      exact Bool.false_ne_true ((vacant m found).symm.trans alive)
    · intro hangs r left
      rw [if_pos hangs] at found
      obtain rfl := Option.some.inj (left.symm.trans found)
      simp [Record.isLive, retired, terminal]
  have exactly := takes.trans (Store.hangsOn_link_iff isLink ends isMap)
  refine ⟨?_, exactly, Store.Strays.not_crosses, ?_⟩
  · intro apart among
    rw [exactly, or_iff_left (Store.not_strays_of_endsOn apart among)]
  · intro stays
    rw [found, if_neg (mt takes.mpr stays)]

/-- Device 1 with signal 3 is linked to device 2 with signal 4. The link takes the map between the
    signals along, but not that from the second signal to itself. -/
theorem crossed_link_takes_maps :
    ∃ l m n, Reachable .standard crossed ∧
      crossed.store.find? ⟨5⟩ = some l ∧ l.isLive ∧ l.linkEnds = [⟨1⟩, ⟨2⟩] ∧
      crossed.store.find? ⟨6⟩ = some m ∧ m.isLive ∧ crossed.store.Crosses m ⟨1⟩ ⟨2⟩ ∧
      crossed.store.find? ⟨7⟩ = some n ∧ n.isLive ∧ ¬ crossed.store.Crosses n ⟨1⟩ ⟨2⟩ ∧
      (crossed.remove ⟨5⟩ .removed).1.store.IsVacant ⟨6⟩ ∧
      ¬ (crossed.remove ⟨5⟩ .removed).1.store.IsVacant ⟨7⟩ := by
  have linked : (crossed.store.find? ⟨5⟩).any fun r => r.isLive ∧ r.linkEnds = [⟨1⟩, ⟨2⟩] := by
    decide +kernel
  have across : (crossed.store.find? ⟨6⟩).any fun r =>
      r.isLive ∧ r.kind = .map ∧ crossed.store.Crosses r ⟨1⟩ ⟨2⟩ := by decide +kernel
  have within : (crossed.store.find? ⟨7⟩).any fun r => r.isLive ∧ r.kind = .map ∧
      crossed.store.EndsOn r ⟨2⟩ ∧ ¬ crossed.store.Crosses r ⟨1⟩ ⟨2⟩ := by decide +kernel
  obtain ⟨l, held, facts⟩ := (Option.any_eq_true ..).mp linked
  obtain ⟨m, heldAcross, factsAcross⟩ := (Option.any_eq_true ..).mp across
  obtain ⟨n, heldWithin, factsWithin⟩ := (Option.any_eq_true ..).mp within
  obtain ⟨live, ends⟩ := of_decide_eq_true facts
  obtain ⟨liveAcross, isMap, crosses⟩ := of_decide_eq_true factsAcross
  obtain ⟨liveWithin, isMap', endsOn, stays⟩ := of_decide_eq_true factsWithin
  have terminal : Lifecycle.removed.status.isTerminal := rfl
  obtain ⟨-, takes, -⟩ :=
    link_takes_maps crossed_reachable terminal held live ends heldAcross liveAcross isMap
  obtain ⟨takesOnly, -⟩ :=
    link_takes_maps crossed_reachable terminal held live ends heldWithin liveWithin isMap'
  have only := takesOnly (by decide) (.inr endsOn)
  exact ⟨l, m, n, crossed_reachable, held, live, ends, heldAcross, liveAcross, crosses, heldWithin,
    liveWithin, stays, takes.mpr (.inl crosses), mt only.mp stays⟩

/-- Devices 1, 2 and 3 with the signals 4, 5 and 6, a link 7 between the first two devices, and map 8
    from their signals to that of the third. -/
def converging : Graph Unit :=
  ((((make (.quiet ⟨0, 0⟩) .standard).call
    (.apply .announce ⟨.signal, ⟨4⟩, ⟨[.set (.wellKnown .device) (.ofId ⟨1⟩)]⟩, []⟩)).call
    (.apply .announce ⟨.signal, ⟨5⟩, ⟨[.set (.wellKnown .device) (.ofId ⟨2⟩)]⟩, []⟩)).call
    (.apply .announce ⟨.signal, ⟨6⟩, ⟨[.set (.wellKnown .device) (.ofId ⟨3⟩)]⟩, []⟩)).call
    (.apply .announce
      ⟨.link, ⟨7⟩, ⟨[.set (.wellKnown .devices) (.ofIds [⟨1⟩, ⟨2⟩])]⟩, []⟩) |>.call
    (.apply .announce ⟨.map, ⟨8⟩, ⟨[.set (.wellKnown .sources) (.ofIds [⟨4⟩, ⟨5⟩]),
      .set (.wellKnown .destination) (.ofId ⟨6⟩)]⟩, []⟩)

theorem converging_reachable : Reachable .standard converging := by
  iterate 5 refine .call ?_ _
  exact .make _ _

/-- The map leads to the third device from each of the others, but goes with the link between
    these. -/
theorem converging_map_taken :
    ∃ l m, Reachable .standard converging ∧
      converging.store.find? ⟨7⟩ = some l ∧ l.isLive ∧ l.linkEnds = [⟨1⟩, ⟨2⟩] ∧
      converging.store.find? ⟨8⟩ = some m ∧ m.isLive ∧ m.kind = .map ∧
      ¬ converging.store.Crosses m ⟨1⟩ ⟨2⟩ ∧
      (converging.remove ⟨7⟩ .removed).1.store.IsVacant ⟨8⟩ := by
  have linked : (converging.store.find? ⟨7⟩).any fun r =>
      r.isLive ∧ r.linkEnds = [⟨1⟩, ⟨2⟩] := by decide +kernel
  have apart : (converging.store.find? ⟨8⟩).any fun r =>
      r.isLive ∧ r.kind = .map ∧ ¬ converging.store.Crosses r ⟨1⟩ ⟨2⟩ := by decide +kernel
  have gone : ((converging.remove ⟨7⟩ .removed).1.store.find? ⟨8⟩).all fun r =>
      r.isLive = false := by decide +kernel
  obtain ⟨l, held, facts⟩ := (Option.any_eq_true ..).mp linked
  obtain ⟨m, there, factsMap⟩ := (Option.any_eq_true ..).mp apart
  obtain ⟨live, ends⟩ := of_decide_eq_true facts
  obtain ⟨alive, isMap, elsewhere⟩ := of_decide_eq_true factsMap
  refine ⟨l, m, converging_reachable, held, live, ends, there, alive, isMap, elsewhere, ?_⟩
  intro r left
  rw [left] at gone
  exact of_decide_eq_true gone

end Graph

end SignalGraph
