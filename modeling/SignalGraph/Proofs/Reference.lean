import SignalGraph.Proofs.Index

/-! # References between records

A live record names only records that are live and of the right kind. New records are checked, and
a record that goes takes with it all that cannot be without it: signals and links without their
devices, maps without their signals.
-/

namespace SignalGraph

/-- How many levels of records can hang on one of a kind, itself counted. -/
def ObjectKind.rank : ObjectKind → Nat
  | device => 3
  | signal | link => 2
  | map => 1

theorem ObjectKind.rank_pos (kind : ObjectKind) : 0 < kind.rank := by cases kind <;> decide

theorem ObjectKind.rank_le (kind : ObjectKind) : kind.rank ≤ 3 := by cases kind <;> decide

namespace Store

variable {s t : Store} {id : ObjectId} {kind : ObjectKind} {lost : List ObjectId}

/-- Whether each live record finds all that it needs, but for some objects that are lost. -/
def Sound (s : Store) (lost : List ObjectId) : Prop :=
  ∀ id f, s.outline id = some f → f.isLive → ∀ need ∈ f.ties.needs,
    s.HasLive need.1 need.2 ∨ need.1 ∈ lost

/-- Whether each live map has some sources, and no more than allowed. -/
def Sized (s : Store) (limit : Nat) : Prop :=
  ∀ id f, s.outline id = some f → f.isLive → f.ties.Sized limit

/-! ## Dependents -/

theorem Indexed.mem_live_iff (indexed : s.Indexed) {r : Record} :
    r ∈ s.live kind ↔ s.find? r.id = some r ∧ r.kind = kind ∧ r.isLive := by
  simp only [live, ofKind, List.mem_filter, List.mem_filterMap, indexed.listed]
  constructor
  · rintro ⟨⟨id, ⟨r', held', same⟩, held⟩, live⟩
    obtain rfl := Option.some.inj (held'.symm.trans held)
    exact ⟨indexed.keyed id r' held ▸ held, same, live⟩
  · rintro ⟨held, same, live⟩
    exact ⟨⟨r.id, ⟨r, held, same⟩, held⟩, live⟩

/-- A live record depends on all that it needs. -/
theorem Indexed.mem_dependents (indexed : s.Indexed) {owner : ObjectId} {r : Record}
    (held : s.find? owner = some r) (live : r.isLive) (need : (id, kind) ∈ r.wiring.ties.needs) :
    owner ∈ s.dependents id kind := by
  have own : r.id = owner := indexed.keyed owner r held
  have among (kind : ObjectKind) (same : r.kind = kind) : r ∈ s.live kind :=
    indexed.mem_live_iff.mpr ⟨own.symm ▸ held, same, live⟩
  have same : r.wiring.ties.kind = r.kind := r.wiring.kind_ties
  cases ties : r.wiring.ties with
  | device => simp [ties, Ties.needs] at need
  | signal device =>
      rw [ties] at need same
      obtain ⟨rfl, rfl⟩ : id = device ∧ kind = .device := by simpa [Ties.needs] using need
      refine List.mem_append_left _ (List.mem_map.mpr ⟨r, List.mem_filter.mpr ⟨?_, ?_⟩, own⟩)
      · exact among .signal same.symm
      · simpa using (r.device?_eq_some_iff id).mpr ties
  | map sources destination =>
      rw [ties] at need same
      obtain ⟨signal, member, same'⟩ := List.mem_map.mp need
      obtain ⟨rfl, rfl⟩ := Prod.mk.inj same'
      refine List.mem_map.mpr ⟨r, List.mem_filter.mpr ⟨among .map same.symm, ?_⟩, own⟩
      simpa using (r.mem_mapSignals_iff signal).mpr ⟨sources, destination, ties, member⟩
  | link first second =>
      rw [ties] at need same
      obtain ⟨ends, rfl⟩ : (id = first ∨ id = second) ∧ kind = .device := by
        simp only [Ties.needs, List.mem_cons, Prod.mk.injEq, List.not_mem_nil, or_false] at need
        grind
      refine List.mem_append_right _ (List.mem_map.mpr ⟨r, List.mem_filter.mpr ⟨?_, ?_⟩, own⟩)
      · exact among .link same.symm
      · simpa using (r.mem_linkEnds_iff id).mpr ⟨first, second, ties, ends⟩

/-- What depends on a record is further down. -/
theorem Indexed.dependents_rank (indexed : s.Indexed) {dependent : ObjectId}
    (member : dependent ∈ s.dependents id kind) {r : Record}
    (held : s.find? dependent = some r) : r.kind.rank < kind.rank := by
  have ofKind {kind' : ObjectKind} {p : Record → Bool}
      (among : dependent ∈ ((s.live kind').filter p).map Record.id) : r.kind = kind' := by
    obtain ⟨r', filtered, rfl⟩ := List.mem_map.mp among
    obtain ⟨held', same, -⟩ := indexed.mem_live_iff.mp (List.mem_filter.mp filtered).1
    exact Option.some.inj (held.symm.trans held') ▸ same
  cases kind with
  | device =>
      rcases List.mem_append.mp member with signals | links
      · rw [ofKind signals]; decide
      · rw [ofKind links]; decide
  | signal => rw [ofKind member]; decide
  | map => exact absurd member List.not_mem_nil
  | link =>
      simp only [dependents] at member
      split at member
      · rw [ofKind member]; decide
      · exact absurd member List.not_mem_nil

/-! ## Fading -/

theorem Fades.sized (fades : Fades s t) {limit : Nat} (sized : s.Sized limit) : t.Sized limit := by
  intro id f' held live
  obtain ⟨f, before, faded⟩ := fades.before held
  exact faded.ties ▸ sized id f before (faded.isLive live)

theorem Fades.isVacant (fades : Fades s t) (vacant : s.IsVacant id) : t.IsVacant id := by
  apply isVacant_iff_outline.mpr
  intro f' held
  obtain ⟨f, before, faded⟩ := fades.before held
  have gone := isVacant_iff_outline.mp vacant f before
  exact Bool.eq_false_iff.mpr fun live => Bool.false_ne_true (gone.symm.trans (faded.isLive live))

/-- There is nothing below the lowest level. -/
theorem isVacant_of_rank_le_zero (low : ∀ r, s.find? id = some r → r.kind.rank ≤ 0) :
    s.IsVacant id := fun r held => absurd (low r held) (Nat.not_le.mpr r.kind.rank_pos)

/-- What fades stays where it is among the levels. -/
theorem Fades.rank_le (fades : Fades s t) {limit : Nat}
    (low : ∀ r, s.find? id = some r → r.kind.rank ≤ limit) :
    ∀ r, t.find? id = some r → r.kind.rank ≤ limit := by
  intro r held
  obtain ⟨f, before, faded⟩ := fades.before (outline_of_find? held)
  obtain ⟨r', held', rfl⟩ := outline_eq_some_iff.mp before
  have same : r.kind = r'.kind := by
    rw [← r.frame_kind, ← r'.frame_kind]
    exact faded.kind
  exact same ▸ low r' held'

end Store

namespace Graph

variable {α : Type} {g h : Graph α} {id : ObjectId} {how : Lifecycle} {lost : List ObjectId}

theorem outline_retire (g : Graph α) (how : Lifecycle) {other : ObjectId} (apart : id ≠ other) :
    (g.retire id how).store.outline other = g.store.outline other := by
  have found : (g.retire id how).store.find? other = g.store.find? other :=
    (g.store.find?_modify ..).trans (if_neg apart)
  simp only [Store.outline, found]

theorem retire_isVacant (terminal : how.status.isTerminal) (g : Graph α) (id : ObjectId) :
    (g.retire id how).store.IsVacant id := by
  intro r held
  have found : (g.store.find? id).map _ = some r :=
    ((g.store.find?_modify ..).trans (if_pos rfl)).symm.trans held
  obtain ⟨r', -, rfl⟩ := Option.map_eq_some_iff.mp found
  simp [Record.isLive, terminal]

/-- When an object goes, it is lost to those that need it. -/
theorem retire_sound (terminal : how.status.isTerminal) (sound : g.store.Sound lost) :
    (g.retire id how).store.Sound (id :: lost) := by
  intro other f' held live need member
  obtain ⟨f, before, faded⟩ := (retire_fades terminal g id).before held
  rcases sound other f before (faded.isLive live) need (faded.ties ▸ member) with there | excused
  · by_cases same : id = need.1
    · exact .inr (same ▸ List.mem_cons_self)
    · exact .inl (there.congr (outline_retire g how same))
  · exact .inr (List.mem_cons_of_mem id excused)

theorem removeWithin_of_isVacant (vacant : g.store.IsVacant id) (depth : Nat) :
    removeWithin depth g id how = (g, none) := by
  cases depth with
  | zero => rfl
  | succ depth =>
      simp only [removeWithin]
      cases held : g.store.find? id with
      | none => rfl
      | some r => simp [vacant r held]

/-- The graph in which the object and all that depends on it is gone. -/
def cascade (depth : Nat) (g : Graph α) (id : ObjectId) (kind : ObjectKind) (how : Lifecycle) :
    Graph α :=
  ((g.retire id how).store.dependents id kind).foldl
    (fun g dependent => (removeWithin depth g dependent how).1) (g.retire id how)

theorem removeWithin_of_isLive {r : Record} (held : g.store.find? id = some r) (live : r.isLive)
    (depth : Nat) :
    (removeWithin (depth + 1) g id how).1.store = (cascade depth g id r.kind how).store := by
  simp only [removeWithin, held, live, Bool.not_true, Bool.false_eq_true, ↓reduceIte, cascade]
  split <;> rfl

/-- A removal within a depth, as far as it is known to work there: of an object that is not further
    up than the depth, and with nothing lost but what was before. -/
def RemovesWithin (α : Type) (how : Lifecycle) (depth : Nat) : Prop :=
  ∀ (g : Graph α) (id : ObjectId) (lost : List ObjectId), g.store.Indexed →
    (∀ r, g.store.find? id = some r → r.kind.rank ≤ depth) → g.store.Sound lost →
    (removeWithin depth g id how).1.store.Sound lost ∧
      (removeWithin depth g id how).1.store.IsVacant id

/-- Removing several objects after each other leaves none of them there. -/
theorem RemovesWithin.all {depth : Nat} (removes : RemovesWithin α how depth)
    (terminal : how.status.isTerminal) (ids : List ObjectId) (g : Graph α)
    (indexed : g.store.Indexed)
    (low : ∀ id ∈ ids, ∀ r, g.store.find? id = some r → r.kind.rank ≤ depth)
    (sound : g.store.Sound lost) :
    let after := ids.foldl (fun g id => (removeWithin depth g id how).1) g
    g.store.Fades after.store ∧ after.store.Sound lost ∧ ∀ id ∈ ids, after.store.IsVacant id := by
  induction ids generalizing g with
  | nil => exact ⟨.refl _, sound, fun _ member => absurd member List.not_mem_nil⟩
  | cons id ids ih =>
      obtain ⟨soundNow, vacant⟩ := removes g id lost indexed (low id List.mem_cons_self) sound
      have fades := removeWithin_fades terminal depth g id
      have lowNow : ∀ next ∈ ids, ∀ r, (removeWithin depth g id how).1.store.find? next = some r →
          r.kind.rank ≤ depth :=
        fun next member => fades.rank_le (low next (List.mem_cons_of_mem id member))
      obtain ⟨fadesAll, soundAll, vacantAll⟩ := ih _ (indexed.fades fades) lowNow soundNow
      refine ⟨fades.trans fadesAll, soundAll, ?_⟩
      intro other member
      rcases List.mem_cons.mp member with rfl | later
      · exact fadesAll.isVacant vacant
      · exact vacantAll other later

/-- The invariant of the cascade: while those that depend on an object go, it alone is lost beyond
    what was lost before, and once they are gone nobody is left to miss it. -/
theorem cascade_sound {depth : Nat} (removes : RemovesWithin α how depth)
    (terminal : how.status.isTerminal) {r : Record} (held : g.store.find? id = some r)
    (rank : r.kind.rank ≤ depth + 1) (indexed : g.store.Indexed) (sound : g.store.Sound lost) :
    (cascade depth g id r.kind how).store.Sound lost ∧
      (cascade depth g id r.kind how).store.IsVacant id := by
  have retired := retire_fades terminal g id
  have indexedNow := indexed.fades retired
  obtain ⟨fades, soundAll, vacantAll⟩ := removes.all terminal
    ((g.retire id how).store.dependents id r.kind) (g.retire id how) indexedNow
    (fun dependent member r' held' => by
      have below := indexedNow.dependents_rank member held'
      omega)
    (retire_sound terminal sound)
  refine ⟨?_, fades.isVacant (retire_isVacant terminal g id)⟩
  intro owner f held' live need member
  rcases soundAll owner f held' live need member with there | excused
  · exact .inl there
  · rcases List.mem_cons.mp excused with same | before
    · -- Whoever still needs the object was a dependent of it, and went.
      obtain ⟨f₁, held₁, faded₁⟩ := fades.before held'
      obtain ⟨f₀, held₀, faded₀⟩ := retired.before held₁
      have ties : f.ties = f₀.ties := faded₁.ties.trans faded₀.ties
      have live₁ := faded₁.isLive live
      rcases sound owner f₀ held₀ (faded₀.isLive live₁) need (ties ▸ member) with there | early
      · obtain ⟨owned, held₂, kind, -⟩ := there
        obtain rfl := Option.some.inj (held.symm.trans (same ▸ held₂))
        obtain ⟨r₁, found, rfl⟩ := Store.outline_eq_some_iff.mp held₁
        have dependent : owner ∈ (g.retire id how).store.dependents id r.kind := by
          have needed : need ∈ r₁.wiring.ties.needs := by
            rw [show r₁.wiring.ties = f.ties from faded₁.ties.symm]
            exact member
          refine indexedNow.mem_dependents found live₁ ?_
          rw [← same, kind]
          exact needed
        have gone := Store.isVacant_iff_outline.mp (vacantAll owner dependent) f held'
        exact absurd (gone.symm.trans live) (by simp)
      · exact .inr early
    · exact .inr before

theorem removesWithin (terminal : how.status.isTerminal) (depth : Nat) :
    RemovesWithin α how depth := by
  induction depth with
  | zero =>
      intro g id lost indexed low sound
      exact ⟨sound, Store.isVacant_of_rank_le_zero low⟩
  | succ depth ih =>
      intro g id lost indexed low sound
      rcases g.store.isVacant_or_isLive id with vacant | ⟨r, held, live⟩
      · rw [removeWithin_of_isVacant vacant]
        exact ⟨sound, vacant⟩
      · rw [removeWithin_of_isLive held live]
        exact cascade_sound ih terminal held (low r held) indexed sound

theorem remove_sound (terminal : how.status.isTerminal) (g : Graph α) (id : ObjectId)
    (indexed : g.store.Indexed) (sound : g.store.Sound []) :
    (g.remove id how).1.store.Sound [] :=
  (removesWithin terminal 3 g id [] indexed (fun r _ => r.kind.rank_le) sound).1

end Graph

/-! ## Changes -/

namespace RecordChange

variable {α : Type} {g h : Graph α} {d : RecordChange} {said : List Notification}

theorem Does.outline_evict (does : RecordChange.evict.Does g said h) (indexed : g.store.Indexed)
    {id : ObjectId} {f : Frame} (held : h.store.outline id = some f) :
    g.store.outline id = some f := by
  obtain ⟨r, found, rfl⟩ := Store.outline_eq_some_iff.mp held
  rw [does.store, RecordChange.store, Graph.find?_evict indexed] at found
  exact Store.outline_of_find? (Option.filter_eq_some_iff.mp found).1

theorem Does.sound (does : d.Does g said h) (indexed : g.store.Indexed) (sound : g.store.Sound []) :
    h.store.Sound [] := by
  cases d with
  | keep | fill | edit | merge | commit =>
      have same : g.store.SameOutline h.store := by
        refine IsInner.sameOutline ?_ does
        trivial
      intro id f held live need member
      rw [same.outline id] at held
      exact (sound id f held live need member).imp_left (.congr (same.outline need.1))
  | found r =>
      obtain ⟨live, vacant, fits, -⟩ := does.guard
      have outline (id : ObjectId) : h.store.outline id =
          if r.id = id then some r.frame else g.store.outline id :=
        does.store ▸ g.store.outline_found r id
      have stays {id : ObjectId} {kind : ObjectKind} (there : g.store.HasLive id kind) :
          h.store.HasLive id kind :=
        there.congr ((outline id).trans (if_neg (there.ne_of_isVacant vacant)))
      intro id f held alive need member
      rw [outline] at held
      split at held
      · obtain rfl := Option.some.inj held
        exact .inl (stays (fits.needs need member))
      · exact (sound id f held alive need member).imp_left stays
  | remove id how => exact does.store ▸ Graph.remove_sound does.guard g id indexed sound
  | evict =>
      have stays {id : ObjectId} {kind : ObjectKind} (there : g.store.HasLive id kind) :
          h.store.HasLive id kind := by
        obtain ⟨r, held, same, live⟩ := there
        refine ⟨r, ?_, same, live⟩
        simp [does.store, RecordChange.store, Graph.find?_evict indexed, held, Graph.isDoomed, live]
      intro id f held alive need member
      exact (sound id f (does.outline_evict indexed held) alive need member).imp_left stays

theorem Does.sized (does : d.Does g said h) (indexed : g.store.Indexed)
    (sized : g.store.Sized g.config.maxMapSources) : h.store.Sized h.config.maxMapSources := by
  rw [does.config]
  cases d with
  | keep | fill | edit | merge | commit | remove =>
      exact (does.fades (by simp) (by simp)).sized sized
  | found r =>
      intro id f held alive
      rw [does.store, RecordChange.store, Store.outline_found] at held
      split at held
      · exact Option.some.inj held ▸ does.guard.2.2.1.sized
      · exact sized id f held alive
  | evict =>
      intro id f held
      exact sized id f (does.outline_evict indexed held)

end RecordChange

/-! ## Reachable graphs -/

namespace Graph

variable {α : Type} {config : Config} {g : Graph α}

/-- What is kept of references: nothing that is there lacks anything. -/
structure Complete (g : Graph α) : Prop where
  indexed : g.store.Indexed
  sound : g.store.Sound []
  sized : g.store.Sized g.config.maxMapSources

theorem complete_make (wire : Wire) (config : Config) :
    (make wire config : Graph α).Complete := by
  refine ⟨.empty, fun id f held => ?_, fun id f held => ?_⟩ <;>
    simp [make, Store.outline] at held

theorem complete_isHeld : IsHeld fun (g : Graph α) _ h => g.Complete → h.Complete :=
  .ofKept
    (fun does complete => ⟨does.indexed complete.indexed,
      does.sound complete.indexed complete.sound, does.sized complete.indexed complete.sized⟩)
    fun complete => ⟨complete.indexed, complete.sound, complete.sized⟩

theorem Reachable.complete (reachable : Reachable config g) :
    g.Complete ∧ g.config = config := by
  obtain ⟨wire, said, run⟩ := reachable
  exact ⟨complete_isHeld.run run (complete_make wire config), run.config⟩

/-- Referential integrity: in every graph that there can be, a live signal is that of a live device,
    a live link joins two live devices, and a live map has some sources, no more than allowed, and
    runs from live signals to a live signal. -/
theorem references_resolve (reachable : Reachable config g) {id : ObjectId} {r : Record}
    (held : g.store.find? id = some r) (live : r.isLive) :
    (r.kind = .signal → ∃ device, r.device? = some device ∧ g.store.HasLive device .device) ∧
    (r.kind = .link → ∃ first second, r.linkEnds = [first, second] ∧
      g.store.HasLive first .device ∧ g.store.HasLive second .device) ∧
    (r.kind = .map → r.sources ≠ [] ∧ r.sources.length ≤ config.maxMapSources ∧
      (∀ source ∈ r.sources, g.store.HasLive source .signal) ∧
      ∃ destination, r.destination? = some destination ∧
        g.store.HasLive destination .signal) := by
  obtain ⟨complete, rfl⟩ := reachable.complete
  have outline := Store.outline_of_find? held
  have there : ∀ need ∈ r.wiring.ties.needs, g.store.HasLive need.1 need.2 := fun need member =>
    (complete.sound id r.frame outline live need member).resolve_right List.not_mem_nil
  have sized := complete.sized id r.frame outline live
  simp only [Record.frame_ties] at sized
  have kind : r.kind = r.wiring.kind := rfl
  cases wiring : r.wiring <;> simp only [wiring, Wiring.kind] at kind <;>
    simp only [wiring, Wiring.ties] at there sized <;>
    refine ⟨fun same => ?_, fun same => ?_, fun same => ?_⟩ <;> rw [kind] at same <;> cases same
  case signal.refine_1 device pool =>
    exact ⟨device, by simp only [Record.device?, wiring], there _ List.mem_cons_self⟩
  case link.refine_2 first second =>
    exact ⟨first, second, by simp only [Record.linkEnds, wiring], there _ List.mem_cons_self,
      there _ (List.mem_cons_of_mem _ List.mem_cons_self)⟩
  case map.refine_3 sources destination isLocal =>
    have signal {id : ObjectId} (member : id ∈ sources.map Slot.signal ++ [destination.signal]) :
        g.store.HasLive id .signal := there (id, .signal) (List.mem_map_of_mem member)
    have same : r.sources = sources.map Slot.signal := by simp only [Record.sources, wiring]
    refine same ▸ ⟨sized.1, sized.2, ?_, destination.signal, ?_, ?_⟩
    · intro source member
      exact signal (List.mem_append_left _ member)
    · simp only [Record.destination?, wiring]
    · exact signal (List.mem_append_right _ List.mem_cons_self)

theorem heardOfSignal_device_live :
    (heardOfSignal ⟨[.set (.wellKnown .device) (.ofId ⟨1⟩)]⟩).store.HasLive ⟨1⟩ .device := by
  have there : ((heardOfSignal ⟨[.set (.wellKnown .device) (.ofId ⟨1⟩)]⟩).store.find? ⟨2⟩).any
      fun r => r.isLive ∧ r.kind = .signal ∧ r.device? = some ⟨1⟩ := by decide
  obtain ⟨r, held, facts⟩ := (Option.any_eq_true ..).mp there
  obtain ⟨live, kind, owner⟩ := of_decide_eq_true facts
  obtain ⟨device, owns, deviceLive⟩ :=
    (references_resolve (heardOfSignal_reachable _) held live).1 kind
  exact Option.some.inj (owner.symm.trans owns) ▸ deviceLive

end Graph

end SignalGraph
