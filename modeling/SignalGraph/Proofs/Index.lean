import SignalGraph.Proofs.RunInvariants

/-! # The index of the store

Beside the records the store keeps for each kind the order in which they came. The two agree in
every graph that there can be, and no operation shuffles what it leaves alone.
-/

namespace SignalGraph

/-! ## Fading -/

/-- Whether a frame is another as it was, or with its object gone. -/
structure Frame.Fades (f faded : Frame) : Prop where
  id : faded.id = f.id
  ties : faded.ties = f.ties
  isLive : faded.isLive → f.isLive

theorem Frame.Fades.refl (f : Frame) : f.Fades f := ⟨rfl, rfl, fun live => live⟩

theorem Frame.Fades.trans {f f' f'' : Frame} (first : f.Fades f') (second : f'.Fades f'') :
    f.Fades f'' :=
  ⟨second.id.trans first.id, second.ties.trans first.ties,
    fun live => first.isLive (second.isLive live)⟩

theorem Frame.Fades.kind {f f' : Frame} (fades : f.Fades f') : f'.kind = f.kind :=
  congrArg Ties.kind fades.ties

namespace Store

/-- Whether a store is another in which at most some objects have gone. -/
structure Fades (s t : Store) : Prop where
  order : t.order = s.order
  held : ∀ id f, s.outline id = some f → ∃ f', t.outline id = some f' ∧ f.Fades f'
  absent : ∀ id, s.outline id = none → t.outline id = none

variable {s t u : Store} {id other : ObjectId} {kind : ObjectKind}

theorem SameOutline.fades (same : SameOutline s t) : Fades s t :=
  ⟨same.order, fun id f held => ⟨f, (same.outline id).trans held, .refl f⟩,
    fun id absent => (same.outline id).trans absent⟩

theorem Fades.refl (s : Store) : Fades s s := (SameOutline.refl s).fades

theorem Fades.trans (first : Fades s t) (second : Fades t u) : Fades s u := by
  refine ⟨second.order.trans first.order, ?_,
    fun id absent => second.absent id (first.absent id absent)⟩
  intro id f held
  obtain ⟨f', held', fades⟩ := first.held id f held
  obtain ⟨f'', held'', fades'⟩ := second.held id f' held'
  exact ⟨f'', held'', fades.trans fades'⟩

theorem Fades.before (fades : Fades s t) {f' : Frame} (held : t.outline id = some f') :
    ∃ f, s.outline id = some f ∧ f.Fades f' := by
  cases before : s.outline id with
  | none => exact absurd ((fades.absent id before).symm.trans held) (by simp)
  | some f =>
      obtain ⟨f'', held'', fades'⟩ := fades.held id f before
      exact ⟨f, rfl, Option.some.inj (held''.symm.trans held) ▸ fades'⟩

theorem Fades.ofModify {f : Record → Record}
    (each : ∀ r, s.find? id = some r → r.frame.Fades (f r).frame) : Fades s (s.modify id f) := by
  have outline (other : ObjectId) : (s.modify id f).outline other =
      if id = other then (s.find? id).map fun r => (f r).frame else s.outline other := by
    simp only [outline, find?_modify]
    split
    · rw [Option.map_map]
      rfl
    · rfl
  refine ⟨rfl, fun other frame held => ?_, fun other absent => ?_⟩ <;> rw [outline other] <;> split
  · rename_i here
    subst here
    obtain ⟨r, found, rfl⟩ := outline_eq_some_iff.mp held
    exact ⟨_, congrArg _ found, each r found⟩
  · exact ⟨frame, held, .refl frame⟩
  · rename_i here
    subst here
    rw [Option.map_eq_none_iff.mp absent]
    rfl
  · exact absent

end Store

namespace Graph

variable {α : Type}

theorem retire_fades {how : Lifecycle} (terminal : how.status.isTerminal) (g : Graph α)
    (id : ObjectId) : g.store.Fades (g.retire id how).store :=
  .ofModify fun r _ => ⟨rfl, rfl, fun live => by
    simp [Record.frame, Record.isLive, terminal] at live⟩

theorem removeWithin_fades {how : Lifecycle} (terminal : how.status.isTerminal) (depth : Nat)
    (g : Graph α) (id : ObjectId) : g.store.Fades (removeWithin depth g id how).1.store :=
  removeWithin_keeps (R := fun g h => g.store.Fades h.store) (fun quiet => quiet.store ▸ .refl _)
    Store.Fades.trans (retire_fades terminal) depth g id

end Graph

/-! ## Indexed stores -/

namespace Store

/-- Whether the order of a store agrees with its records: each record is held under its own
    identity, and the identities of a kind are those of its records, each once. -/
structure Indexed (s : Store) : Prop where
  keyed : ∀ id r, s.find? id = some r → r.id = id
  nodup : ∀ kind, (s.order.get kind).Nodup
  listed : ∀ kind id, id ∈ s.order.get kind ↔ ∃ r, s.find? id = some r ∧ r.kind = kind

variable {s t : Store} {id : ObjectId} {kind : ObjectKind}

theorem order_drop (s : Store) (id : ObjectId) (kind other : ObjectKind) :
    (s.drop id kind).order.get other =
      if other = kind then (s.order.get other).filter (· ≠ id) else s.order.get other :=
  ByKind.get_modify ..

theorem order_insert (s : Store) (r : Record) (kind : ObjectKind) :
    (s.insert r).order.get kind =
      if kind = r.kind then s.order.get kind ++ [r.id] else s.order.get kind :=
  ByKind.get_modify ..

namespace Indexed

theorem empty : Indexed .empty := by
  constructor
  case keyed =>
    intro id r held
    simp at held
  case nodup =>
    intro kind
    simp [Store.empty]
  case listed =>
    intro kind id
    have none : Store.empty.order.get kind = [] := ByKind.get_const [] kind
    simp [none]

theorem outline_id (indexed : s.Indexed) {f : Frame} (held : s.outline id = some f) :
    f.id = id := by
  obtain ⟨r, found, rfl⟩ := outline_eq_some_iff.mp held
  exact indexed.keyed id r found

theorem listed_iff_outline (indexed : s.Indexed) :
    id ∈ s.order.get kind ↔ ∃ f, s.outline id = some f ∧ f.kind = kind := by
  rw [indexed.listed kind id]
  constructor
  · rintro ⟨r, held, rfl⟩
    exact ⟨r.frame, outline_of_find? held, r.frame_kind⟩
  · rintro ⟨f, held, rfl⟩
    obtain ⟨r, found, rfl⟩ := outline_eq_some_iff.mp held
    exact ⟨r, found, r.frame_kind.symm⟩

/-- The records under identities that are held have just these. -/
theorem ids_filterMap (indexed : s.Indexed) {ids : List ObjectId}
    (held : ∀ id ∈ ids, s.contains id) : (ids.filterMap s.find?).map Record.id = ids := by
  induction ids with
  | nil => rfl
  | cons id ids ih =>
      obtain ⟨first, rest⟩ := List.forall_mem_cons.mp held
      obtain ⟨r, found⟩ := Option.isSome_iff_exists.mp first
      rw [List.filterMap_cons_some found, List.map_cons, ih rest, indexed.keyed id r found]

theorem fades (indexed : s.Indexed) (fades : Fades s t) : t.Indexed := by
  refine ⟨?_, fun kind => fades.order ▸ indexed.nodup kind, ?_⟩
  · intro id r held
    obtain ⟨f, before, faded⟩ := fades.before (outline_of_find? held)
    exact faded.id.trans (indexed.outline_id before)
  · intro kind id
    rw [fades.order, indexed.listed_iff_outline]
    constructor
    · rintro ⟨f, before, rfl⟩
      obtain ⟨f', after, faded⟩ := fades.held id f before
      obtain ⟨r, held, rfl⟩ := outline_eq_some_iff.mp after
      exact ⟨r, held, r.frame_kind.symm.trans faded.kind⟩
    · rintro ⟨r, held, rfl⟩
      obtain ⟨f, before, faded⟩ := fades.before (outline_of_find? held)
      exact ⟨f, before, faded.kind.symm.trans r.frame_kind⟩

/-- Dropping a record with its own kind keeps the index. -/
theorem drop (indexed : s.Indexed) (own : ∀ r, s.find? id = some r → r.kind = kind) :
    (s.drop id kind).Indexed := by
  constructor
  case keyed =>
    intro other r held
    rw [find?_drop] at held
    split at held
    · simp at held
    · exact indexed.keyed other r held
  case nodup =>
    intro other
    rw [order_drop]
    split
    · exact (indexed.nodup other).filter _
    · exact indexed.nodup other
  case listed =>
    intro other key
    rw [order_drop]
    simp only [find?_drop]
    by_cases here : id = key
    · subst here
      simp only [↓reduceIte, reduceCtorEq, false_and, exists_false, iff_false]
      split
      · simp
      · rename_i different
        intro member
        obtain ⟨r, held, rfl⟩ := (indexed.listed other id).mp member
        exact different (own r held)
    · simp only [here, ↓reduceIte, ← indexed.listed other key]
      split
      · simp [Ne.symm here]
      · rfl

theorem discard (indexed : s.Indexed) (id : ObjectId) : (s.discard id).Indexed := by
  simp only [Store.discard]
  split
  · rename_i r held
    exact indexed.drop fun r' held' => Option.some.inj (held'.symm.trans held) ▸ rfl
  · exact indexed

/-- In an indexed store what is discarded stood in no other order than that of its kind. -/
theorem order_discard (indexed : s.Indexed) (id : ObjectId) (kind : ObjectKind) :
    (s.discard id).order.get kind = (s.order.get kind).filter (· ≠ id) := by
  have absent (none : id ∉ s.order.get kind) :
      (s.order.get kind).filter (· ≠ id) = s.order.get kind :=
    List.filter_eq_self.mpr fun key member => by
      simpa using fun same : key = id => none (same ▸ member)
  simp only [Store.discard]
  split
  · rename_i r held
    rw [order_drop]
    split
    · rfl
    · rename_i different
      refine (absent fun member => different ?_).symm
      obtain ⟨r', held', rfl⟩ := (indexed.listed kind id).mp member
      exact Option.some.inj (held'.symm.trans held) ▸ rfl
  · rename_i held
    refine (absent ?_).symm
    intro member
    obtain ⟨r, held', -⟩ := (indexed.listed kind id).mp member
    exact absurd (held.symm.trans held') (by simp)

theorem insert (indexed : s.Indexed) {r : Record} (absent : s.find? r.id = none) :
    (s.insert r).Indexed := by
  have unlisted (kind : ObjectKind) : r.id ∉ s.order.get kind := fun member => by
    obtain ⟨r', held, -⟩ := (indexed.listed kind r.id).mp member
    exact absurd (absent.symm.trans held) (by simp)
  constructor
  case keyed =>
    intro id r' held
    rw [find?_insert] at held
    split at held
    · rename_i same
      exact Option.some.inj held ▸ same
    · exact indexed.keyed id r' held
  case nodup =>
    intro kind
    rw [order_insert]
    split
    · refine List.nodup_append.mpr ⟨indexed.nodup kind, by simp, ?_⟩
      rintro id member _ last rfl
      exact unlisted kind (List.mem_singleton.mp last ▸ member)
    · exact indexed.nodup kind
  case listed =>
    intro kind id
    rw [order_insert]
    simp only [find?_insert]
    by_cases here : r.id = id
    · subst here
      by_cases same : kind = r.kind
      · simp [same]
      · simp [same, unlisted kind, Ne.symm same]
    · simp only [here, ↓reduceIte, ← indexed.listed kind id]
      split
      · simp [Ne.symm here]
      · rfl

end Indexed

/-! ## Letting go -/

/-- The store without some records, each dropped with its kind. -/
def dropAll (s : Store) (rs : List Record) : Store := rs.foldl (fun s r => s.drop r.id r.kind) s

theorem find?_dropAll (rs : List Record) (s : Store) (id : ObjectId) :
    (s.dropAll rs).find? id = if id ∈ rs.map Record.id then none else s.find? id := by
  induction rs generalizing s with
  | nil => simp [dropAll]
  | cons r rs ih =>
      rw [dropAll, List.foldl_cons, ← dropAll, ih, find?_drop]
      by_cases here : r.id = id
      · simp [here]
      · simp [here, Ne.symm here]

theorem Indexed.dropAll {rs : List Record} (indexed : s.Indexed)
    (own : ∀ r ∈ rs, ∀ r', s.find? r.id = some r' → r'.kind = r.kind) :
    (s.dropAll rs).Indexed := by
  induction rs generalizing s with
  | nil => exact indexed
  | cons r rs ih =>
      apply ih (indexed.drop (own r List.mem_cons_self))
      intro next member r' held
      rw [find?_drop] at held
      split at held
      · simp at held
      · exact own next (List.mem_cons_of_mem r member) r' held

theorem order_dropAll (rs : List Record) (s : Store) (kind : ObjectKind) :
    ((s.dropAll rs).order.get kind).Sublist (s.order.get kind) := by
  induction rs generalizing s with
  | nil => exact List.Sublist.refl _
  | cons r rs ih =>
      refine (ih (s.drop r.id r.kind)).trans ?_
      rw [order_drop]
      split
      · exact List.filter_sublist
      · exact List.Sublist.refl _

end Store

namespace Graph

variable {α : Type} {g : Graph α}

def doomed (g : Graph α) : List Record := g.store.records.values.filter g.isDoomed

theorem evict_store (g : Graph α) : g.evict.store = g.store.dropAll g.doomed := rfl

theorem mem_doomed_iff (indexed : g.store.Indexed) (r : Record) :
    r ∈ g.doomed ↔ g.store.find? r.id = some r ∧ g.isDoomed r := by
  simp only [doomed, List.mem_filter, Directory.mem_values_iff]
  refine and_congr_left fun _ => ⟨?_, fun held => ⟨r.id, held⟩⟩
  rintro ⟨id, held⟩
  exact (indexed.keyed id r held).symm ▸ held

/-- In an indexed store those whose time is over go, and no others. -/
theorem find?_evict (indexed : g.store.Indexed) (id : ObjectId) :
    g.evict.store.find? id = (g.store.find? id).filter fun r => !g.isDoomed r := by
  have among : id ∈ g.doomed.map Record.id ↔ ∃ r, g.store.find? id = some r ∧ g.isDoomed r := by
    simp only [List.mem_map, mem_doomed_iff indexed]
    constructor
    · rintro ⟨r, ⟨held, doomed⟩, rfl⟩
      exact ⟨r, held, doomed⟩
    · rintro ⟨r, held, doomed⟩
      obtain rfl := indexed.keyed id r held
      exact ⟨r, ⟨held, doomed⟩, rfl⟩
  rw [evict_store, Store.find?_dropAll]
  simp only [among]
  cases g.store.find? id with
  | none => simp
  | some r => cases doomed : g.isDoomed r <;> simp [Option.filter, doomed]

theorem evict_indexed (indexed : g.store.Indexed) : g.evict.store.Indexed := by
  refine evict_store g ▸ indexed.dropAll ?_
  intro r member r' held
  exact Option.some.inj (held.symm.trans ((mem_doomed_iff indexed r).mp member).1) ▸ rfl

end Graph

/-! ## Order -/

/-- Whether a list comes from another by leaving out some, keeping the rest in order, and adding
    others at the end: those made in the meantime, and those alone. -/
def Reorders (made before after : List ObjectId) : Prop :=
  ∃ kept fresh, after = kept ++ fresh ∧ kept.Sublist before ∧ (∀ id ∈ kept, id ∉ made) ∧
    ∀ id ∈ fresh, id ∈ made

namespace Reorders

theorem ofSublist {before after : List ObjectId} (sublist : after.Sublist before) :
    Reorders [] before after :=
  ⟨after, [], (List.append_nil after).symm, sublist, fun _ _ => List.not_mem_nil,
    fun _ member => member⟩

theorem refl (before : List ObjectId) : Reorders [] before before :=
  ofSublist (List.Sublist.refl before)

theorem trans {made more start middle last : List ObjectId} (first : Reorders made start middle)
    (second : Reorders more middle last) : Reorders (made ++ more) start last := by
  obtain ⟨kept, fresh, rfl, keptBefore, keptOld, freshMade⟩ := first
  obtain ⟨_, later, rfl, sublist, stillOld, laterMade⟩ := second
  obtain ⟨still, freshStill, rfl, stillKept, freshBefore⟩ := List.sublist_append_iff.mp sublist
  refine ⟨still, freshStill ++ later, List.append_assoc .., stillKept.trans keptBefore, ?_, ?_⟩
  · intro id member made
    rcases List.mem_append.mp made with early | late
    · exact keptOld id (stillKept.subset member) early
    · exact stillOld id (List.mem_append_left _ member) late
  · intro id member
    rcases List.mem_append.mp member with early | late
    · exact List.mem_append_left _ (freshMade id (freshBefore.subset early))
    · exact List.mem_append_right _ (laterMade id late)

end Reorders

namespace RecordChange

variable {α : Type} {g h : Graph α} {d : RecordChange} {said : List Notification}

/-- A change that neither makes a record nor lets go of any lets frames fade at most. -/
theorem Does.fades (does : d.Does g said h) (made : ∀ r, d ≠ .found r) (stays : d ≠ .evict) :
    g.store.Fades h.store := by
  cases d with
  | keep | fill | edit | merge | commit =>
      refine (IsInner.sameOutline ?_ does).fades
      trivial
  | found r => exact absurd rfl (made r)
  | remove id how => exact does.store ▸ Graph.removeWithin_fades does.guard 3 g id
  | evict => exact absurd rfl stays

theorem Does.indexed (does : d.Does g said h) (indexed : g.store.Indexed) : h.store.Indexed := by
  cases d with
  | keep | fill | edit | merge | commit | remove =>
      exact indexed.fades (does.fades (by simp) (by simp))
  | found r =>
      have absent : (g.store.discard r.id).find? r.id = none := by simp [Store.find?_discard]
      exact does.store ▸ (indexed.discard r.id).insert absent
  | evict => exact does.store ▸ Graph.evict_indexed indexed

theorem Does.reorders (does : d.Does g said h) (indexed : g.store.Indexed) (kind : ObjectKind) :
    Reorders d.creates (g.store.order.get kind) (h.store.order.get kind) := by
  cases d with
  | keep | fill | edit | merge | commit | remove =>
      exact (does.fades (by simp) (by simp)).order ▸ .refl _
  | found r =>
      have order : h.store.order.get kind = (g.store.order.get kind).filter (· ≠ r.id) ++
          if kind = r.kind then [r.id] else [] := by
        rw [does.store]
        simp only [RecordChange.store, Store.order_insert, indexed.order_discard]
        split
        · rfl
        · exact (List.append_nil _).symm
      refine ⟨_, _, order, List.filter_sublist, ?_, ?_⟩
      · intro id member made
        simp_all [creates]
      · intro id member
        split at member
        · exact member
        · exact absurd member List.not_mem_nil
  | evict =>
      exact .ofSublist (does.store ▸ Store.order_dropAll g.doomed g.store kind)

end RecordChange

namespace Graph

variable {α : Type} {config : Config} {g : Graph α}

theorem indexed_isHeld : IsHeld fun (g : Graph α) made h => g.store.Indexed → h.store.Indexed ∧
    ∀ kind, Reorders made (g.store.order.get kind) (h.store.order.get kind) := by
  refine ⟨fun g indexed => ⟨indexed, fun kind => .refl _⟩, ?_,
    fun does indexed => ⟨does.indexed indexed, does.reorders indexed⟩,
    fun g indexed => ⟨indexed, fun kind => .refl _⟩⟩
  intro g h k made more first second indexed
  obtain ⟨indexed, early⟩ := first indexed
  obtain ⟨indexed, late⟩ := second indexed
  exact ⟨indexed, fun kind => (early kind).trans (late kind)⟩

theorem Reachable.indexed (reachable : Reachable config g) : g.store.Indexed := by
  obtain ⟨wire, said, run⟩ := reachable
  exact (indexed_isHeld.run run .empty).1

/-- In every graph that there can be, each record is held under its own identity, and the order of
    a kind names its records, each once. What happens from there on, if only one call or one poll,
    keeps those of a kind that stay without being made anew in order, and puts those made meanwhile
    behind them. -/
theorem store_index_consistent (reachable : Reachable config g) :
    g.store.Indexed ∧ ∀ said h, Run (Law.any α) g said h → ∀ kind,
      Reorders (created said) (g.store.order.get kind) (h.store.order.get kind) :=
  ⟨reachable.indexed, fun _ _ run => (indexed_isHeld.run run reachable.indexed).2⟩

theorem heardOfSignal_indexed :
    Reachable .standard (heardOfSignal ⟨[.set (.wellKnown .device) (.ofId ⟨1⟩)]⟩) ∧
      (heardOfSignal ⟨[.set (.wellKnown .device) (.ofId ⟨1⟩)]⟩).store.Indexed ∧
      (heardOfSignal ⟨[.set (.wellKnown .device) (.ofId ⟨1⟩)]⟩).store.order.get .signal =
        [⟨2⟩] := by
  have reachable := heardOfSignal_reachable ⟨[.set (.wellKnown .device) (.ofId ⟨1⟩)]⟩
  exact ⟨reachable, (store_index_consistent reachable).1, by decide⟩

end Graph

end SignalGraph
