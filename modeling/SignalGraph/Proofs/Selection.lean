import SignalGraph.Proofs.Reference
import SignalGraph.Query.Evaluate

/-! # What queries select

A query says which objects it asks for, whatever the order in which they are found. What it yields
are those objects, each once and all of them there.
-/

namespace SignalGraph

/-! ## Ends of maps -/

/-- The signals at the end of a map in a direction, or at any end. -/
def Record.ends (r : Record) : Option Direction → List ObjectId
  | none => r.mapSignals
  | some .input => r.destination?.toList
  | some .output => r.sources

theorem Record.touches_iff (r : Record) (chosen : ObjectId → Bool) (direction : Option Direction) :
    r.touches chosen direction ↔ ∃ signal ∈ r.ends direction, chosen signal := by
  have incoming : r.destination?.any chosen ↔ ∃ signal ∈ r.destination?.toList, chosen signal := by
    simp [Option.any_eq_true]
  have outgoing : r.sources.any chosen ↔ ∃ signal ∈ r.sources, chosen signal := by
    simp
  cases direction with
  | none =>
      simp only [touches, ends, mapSignals, Bool.or_eq_true, incoming, outgoing, List.mem_append]
      grind
  | some direction =>
      cases direction with
      | input => exact incoming
      | output => exact outgoing

theorem Record.kind_of_mem_ends {r : Record} {direction : Option Direction} {signal : ObjectId}
    (member : signal ∈ r.ends direction) : r.kind = .map := by
  cases direction with
  | none => exact kind_of_mem_mapSignals member
  | some direction =>
      cases direction with
      | input => exact kind_of_mem_mapSignals (List.mem_append_right _ member)
      | output => exact kind_of_mem_mapSignals (List.mem_append_left _ member)

theorem Record.kind_of_touches {r : Record} {chosen : ObjectId → Bool}
    {direction : Option Direction} (touches : r.touches chosen direction) : r.kind = .map := by
  obtain ⟨signal, member, -⟩ := (r.touches_iff chosen direction).mp touches
  exact kind_of_mem_ends member

/-! ## Records found in order -/

namespace Store

variable {s : Store} {id : ObjectId} {kind : ObjectKind}

theorem Indexed.nodup_live (indexed : s.Indexed) (kind : ObjectKind) :
    ((s.live kind).map Record.id).Nodup := by
  have listed : (s.ofKind kind).Nodup :=
    (indexed.nodup kind).filterMap fun id other r held held' =>
      (indexed.keyed id r held).symm.trans (indexed.keyed other r held')
  refine (listed.filter _).map_on fun r there other there' same => ?_
  have held := (indexed.mem_live_iff.mp there).1
  rw [same, (indexed.mem_live_iff.mp there').1] at held
  exact (Option.some.inj held).symm

/-- Of the live records of a kind, those that pass a test are found once each. -/
theorem Indexed.nodup_filter_live (indexed : s.Indexed) (kind : ObjectKind) (test : Record → Bool) :
    (((s.live kind).filter test).map Record.id).Nodup :=
  (indexed.nodup_live kind).sublist (List.filter_sublist.map Record.id)

/-- They are those that pass, if nothing of another kind does. -/
theorem Indexed.mem_filter_live_iff (indexed : s.Indexed) {test : Record → Bool}
    (own : ∀ r, test r → r.kind = kind) :
    id ∈ ((s.live kind).filter test).map Record.id ↔
      ∃ r, s.find? id = some r ∧ r.isLive ∧ test r := by
  simp only [List.mem_map, List.mem_filter, indexed.mem_live_iff]
  constructor
  · rintro ⟨r, ⟨⟨held, -, live⟩, passes⟩, rfl⟩
    exact ⟨r, held, live, passes⟩
  · rintro ⟨r, held, live, passes⟩
    obtain rfl := indexed.keyed id r held
    exact ⟨r, ⟨⟨held, own r passes, live⟩, passes⟩, rfl⟩

end Store

namespace Query

variable {s : Store} {id : ObjectId} {q : Query}

/-! ## Building queries -/

/-- Whether a query is built of others in the ways that there are. What is asked to be there or to
    be absent is a filter too, and two queries combine only if they are for the same kind. -/
inductive Built : Query → Prop
  | all (kind : ObjectKind) : Built (all kind)
  | ids (kind : ObjectKind) (given : List ObjectId) : Built (ids kind given)
  | filter {input : Query} (built : Built input) (key : Key) (op : FilterOp) (value : Value) :
      Built (input.filter key op value)
  | union {a b q : Query} (left : Built a) (right : Built b) (made : combine union a b = .ok q) :
      Built q
  | intersect {a b q : Query} (left : Built a) (right : Built b)
      (made : combine intersect a b = .ok q) : Built q
  | difference {a b q : Query} (left : Built a) (right : Built b)
      (made : combine difference a b = .ok q) : Built q
  | signalsOf (device : ObjectId) (direction : Option Direction) :
      Built (signalsOf device direction)
  | mapsOf (signal : ObjectId) (direction : Option Direction) : Built (mapsOf signal direction)
  | mapsOfDevice (device : ObjectId) (direction : Option Direction) :
      Built (mapsOfDevice device direction)
  | linksOf (device : ObjectId) : Built (linksOf device)
  | signalsOfMap (map : ObjectId) : Built (signalsOfMap map)

theorem combine_eq_ok_iff {make : Query → Query → Query} {a b : Query} :
    combine make a b = .ok q ↔ a.kind = b.kind ∧ make a b = q := by
  simp only [combine]
  split <;> simp [*]

/-! ## Selecting -/

/-- Whether a query asks for an object, as the records say. -/
def Selects (s : Store) : Query → ObjectId → Prop
  | all kind, id => s.HasLive id kind
  | ids kind given, id => id ∈ given ∧ s.HasLive id kind
  | filter input key op value, id =>
    input.Selects s id ∧ ∃ r, s.find? id = some r ∧ r.passes key op value
  | union a b, id => a.Selects s id ∨ b.Selects s id
  | intersect a b, id => a.Selects s id ∧ b.Selects s id
  | difference a b, id => a.Selects s id ∧ ¬ b.Selects s id
  | signalsOf device direction, id =>
    ∃ r, s.find? id = some r ∧ r.isLive ∧ r.device? = some device ∧
      (direction = none ∨ r.direction? = direction)
  | mapsOf signal direction, id =>
    ∃ r, s.find? id = some r ∧ r.isLive ∧ signal ∈ r.ends direction
  | mapsOfDevice device direction, id =>
    ∃ r, s.find? id = some r ∧ r.isLive ∧ ∃ signal ∈ r.ends direction,
      ∃ owned, s.find? signal = some owned ∧ owned.device? = some device
  | linksOf device, id => ∃ r, s.find? id = some r ∧ r.isLive ∧ device ∈ r.linkEnds
  | signalsOfMap map, id =>
    s.HasLive id .signal ∧ ∃ r, s.find? map = some r ∧ id ∈ r.mapSignals

/-- What a built query asks for are objects of its kind. -/
theorem Built.hasLive (built : q.Built) (selects : q.Selects s id) : s.HasLive id q.kind := by
  induction built with
  | all kind => exact selects
  | ids kind given => exact selects.2
  | filter _ key op value ih => exact ih selects.1
  | union _ _ made ihLeft ihRight =>
      obtain ⟨same, rfl⟩ := combine_eq_ok_iff.mp made
      rcases selects with left | right
      · exact ihLeft left
      · exact (show _ = kind _ from same) ▸ ihRight right
  | intersect _ _ made ihLeft _ | difference _ _ made ihLeft _ =>
      obtain ⟨-, rfl⟩ := combine_eq_ok_iff.mp made
      exact ihLeft selects.1
  | signalsOf device direction =>
      obtain ⟨r, held, live, owned, -⟩ := selects
      exact ⟨r, held, Record.kind_of_device? owned, live⟩
  | mapsOf signal direction =>
      obtain ⟨r, held, live, member⟩ := selects
      exact ⟨r, held, Record.kind_of_mem_ends member, live⟩
  | mapsOfDevice device direction =>
      obtain ⟨r, held, live, signal, member, -⟩ := selects
      exact ⟨r, held, Record.kind_of_mem_ends member, live⟩
  | linksOf device =>
      obtain ⟨r, held, live, member⟩ := selects
      exact ⟨r, held, Record.kind_of_mem_linkEnds member, live⟩
  | signalsOfMap map => exact selects.1

/-! ## Yielding -/

theorem mem_pick_iff {kind : ObjectKind} {given : List ObjectId} :
    id ∈ pick s kind given ↔ id ∈ given ∧ s.HasLive id kind := by
  simp only [pick, List.mem_eraseDups, List.mem_filter, Option.any_eq_true, Bool.and_eq_true,
    beq_iff_eq, Store.HasLive, and_comm]

theorem nodup_evaluate (indexed : s.Indexed) (q : Query) : (q.evaluate s).Nodup := by
  induction q with
  | all kind => exact indexed.nodup_live kind
  | ids | signalsOfMap => exact nodup_eraseDups _
  | filter _ _ _ _ ih => exact ih.filter _
  | intersect _ _ ih _ | difference _ _ ih _ => exact ih.filter _
  | union a b ih _ =>
      refine List.nodup_append.mpr ⟨ih, (nodup_eraseDups _).filter _, ?_⟩
      rintro id left _ right rfl
      simpa [left] using (List.mem_filter.mp right).2
  | signalsOf | mapsOf | mapsOfDevice | linksOf => exact indexed.nodup_filter_live _ _

/-- A query yields what it asks for and nothing else. -/
theorem mem_evaluate_iff (indexed : s.Indexed) (q : Query) (id : ObjectId) :
    id ∈ q.evaluate s ↔ q.Selects s id := by
  induction q with
  | all kind =>
      simp only [evaluate, List.mem_map, indexed.mem_live_iff, Selects, Store.HasLive]
      constructor
      · rintro ⟨r, found, rfl⟩
        exact ⟨r, found⟩
      · rintro ⟨r, held, there⟩
        obtain rfl := indexed.keyed id r held
        exact ⟨r, ⟨held, there⟩, rfl⟩
  | ids kind given => exact mem_pick_iff
  | filter input key op value ih =>
      simp only [evaluate, List.mem_filter, ih, Option.any_eq_true, Selects]
  | union a b ihLeft ihRight =>
      simp only [evaluate, List.mem_append, List.mem_filter, List.mem_eraseDups, ihLeft, ihRight,
        decide_not, Bool.not_eq_true', decide_eq_false_iff_not, Selects]
      tauto
  | intersect a b ihLeft ihRight =>
      simp only [evaluate, List.mem_filter, ihLeft, ihRight, decide_eq_true_eq, Selects]
  | difference a b ihLeft ihRight =>
      simp only [evaluate, List.mem_filter, ihLeft, ihRight, decide_not, Bool.not_eq_true',
        decide_eq_false_iff_not, Selects]
  | signalsOf device direction =>
      rw [evaluate, indexed.mem_filter_live_iff fun r passes =>
        Record.kind_of_device? (of_decide_eq_true passes).1]
      simp only [decide_eq_true_eq, Selects]
  | mapsOf signal direction =>
      rw [evaluate, indexed.mem_filter_live_iff fun _ => Record.kind_of_touches]
      simp only [Record.touches_iff, decide_eq_true_eq, exists_eq_right, Selects]
  | mapsOfDevice device direction =>
      rw [evaluate, indexed.mem_filter_live_iff fun _ => Record.kind_of_touches]
      simp only [Record.touches_iff, decide_eq_true_eq, Option.bind_eq_some_iff, Selects]
  | linksOf device =>
      rw [evaluate, indexed.mem_filter_live_iff fun r passes =>
        Record.kind_of_mem_linkEnds (of_decide_eq_true passes)]
      simp only [decide_eq_true_eq, Selects]
  | signalsOfMap map =>
      rw [evaluate, mem_pick_iff, and_comm]
      refine and_congr_right fun _ => ?_
      cases s.find? map <;> simp

end Query

/-! ## Reachable graphs -/

namespace Graph

variable {α : Type} {config : Config} {g : Graph α} {q : Query}

/-- What a query yields, however it is built, are objects that are there and of the query's kind,
    each once: all those that it asks for and no others. -/
theorem queries_yield_live (reachable : Reachable config g) (built : q.Built) :
    (q.evaluate g.store).Nodup ∧ (∀ id ∈ q.evaluate g.store, g.store.HasLive id q.kind) ∧
      ∀ id, id ∈ q.evaluate g.store ↔ q.Selects g.store id := by
  have yields := q.mem_evaluate_iff reachable.indexed
  refine ⟨q.nodup_evaluate reachable.indexed, fun id member => ?_, yields⟩
  exact built.hasLive ((yields id).mp member)

/-- Of a list with a repeat, a device and an unknown object, and the signals of the device, only the
    signal is left. -/
theorem heardOfSignal_yields :
    let g := heardOfSignal ⟨[.set (.wellKnown .device) (.ofId ⟨1⟩)]⟩
    let q : Query := .union (.ids .signal [⟨2⟩, ⟨1⟩, ⟨9⟩, ⟨2⟩]) (.signalsOf ⟨1⟩ none)
    Reachable .standard g ∧ q.Built ∧ q.evaluate g.store = [⟨2⟩] ∧ g.store.HasLive ⟨2⟩ .signal := by
  intro g q
  have reachable := heardOfSignal_reachable ⟨[.set (.wellKnown .device) (.ofId ⟨1⟩)]⟩
  have built : q.Built :=
    .union (.ids .signal [⟨2⟩, ⟨1⟩, ⟨9⟩, ⟨2⟩]) (.signalsOf ⟨1⟩ none) rfl
  have yielded : q.evaluate g.store = [⟨2⟩] := by decide
  obtain ⟨-, there, -⟩ := queries_yield_live reachable built
  exact ⟨reachable, built, yielded, there ⟨2⟩ (yielded ▸ List.mem_cons_self)⟩

end Graph

end SignalGraph
