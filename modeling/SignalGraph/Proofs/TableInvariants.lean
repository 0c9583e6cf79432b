import SignalGraph.Proofs.Duplicate
import SignalGraph.Proofs.Records

/-! # What tables keep in every run

Tables of records and of their slots begin empty. From then on the network changes them, edits of
them are confirmed, and the owner of the graph works on them; nothing else happens to them. So the
tables of a graph stay of a sort in every run in which each of these keeps a table so.
-/

namespace SignalGraph

variable {T : Table → Prop} {C : Change → Prop}

/-- Whether tables of a sort stay of it in the hands of a graph, if changes that come are of a sort
    too. -/
structure Table.Lasts (T : Table → Prop) (C : Change → Prop) : Prop where
  empty : T .empty
  commitStaged {t : Table} (own : T t) : T t.commitStaged
  applyChange {t : Table} {c : Change} (own : T t) (may : C c) : T (t.applyChange c).1
  /-- New maps have what they join staged. -/
  set {t : Table} (own : T t) (p : Property) (v : Value) : T ((Table.set (.wellKnown p) v).after t)

theorem Table.Lasts.afterChanges (lasts : Table.Lasts T C) {t : Table} (own : T t) {cs : List Change}
    (may : ∀ c ∈ cs, C c) : T (t.afterChanges cs) :=
  List.foldlRecOn cs _ (motive := T) own fun _ own c member => lasts.applyChange own (may c member)

/-- Whether all changes that a delta brings are of a sort. -/
structure Delta.Brings (C : Change → Prop) (d : Delta) : Prop where
  diff : ∀ c ∈ d.diff.changes, C c
  slots : ∀ s ∈ d.slots, ∀ c ∈ s.diff.changes, C c

theorem Delta.Brings.slotChanges {d : Delta} (brings : d.Brings C) (location : SlotLocation) :
    ∀ c ∈ slotChanges d.slots location, C c := by
  intro c member
  obtain ⟨s, among, said⟩ := List.mem_flatMap.mp member
  exact brings.slots s (List.mem_filter.mp among).1 c said

theorem Delta.Brings.empty (kind : ObjectKind) (id : ObjectId) : (Delta.empty kind id).Brings C :=
  ⟨fun _ member => absurd member List.not_mem_nil, fun _ member => absurd member List.not_mem_nil⟩

/-- Whether all changes that an input brings are of a sort, and what else it does to tables keeps them
    of one. -/
def Input.Minds {α : Type} (T : Table → Prop) (C : Change → Prop) : Input α → Prop
  | .event (.record _ delta) | .call (.apply _ delta) => delta.Brings C
  | .call (.edit _ action) | .call (.editSlot _ _ action) => ∀ t, T t → T (action.after t)
  | _ => True

namespace Record

variable {r s : Record}

/-- Whether the tables of a record are of a sort, its own and that of each slot. -/
structure Tables (T : Table → Prop) (r : Record) : Prop where
  properties : T r.properties
  slots : ∀ location slot, r.slot? location = some slot → T slot.properties

theorem Tables.congr (tables : r.Tables T) (properties : s.properties = r.properties)
    (slots : ∀ location, s.slot? location = r.slot? location) : s.Tables T where
  properties := properties ▸ tables.properties
  slots := fun location slot there =>
    tables.slots location slot ((slots location).symm.trans there)

/-- What is done to each slot of a record alike, if at all, keeps slots of a sort if it keeps tables
    so. -/
theorem Tables.map (tables : r.Tables T) (properties : T s.properties)
    {f : SlotLocation → Table → Table} (keeps : ∀ location t, T t → T (f location t))
    (slots : ∀ location, s.slot? location = (r.slot? location).map (·.modify (f location))) :
    s.Tables T where
  properties := properties
  slots := by
    intro location slot there
    rw [slots] at there
    obtain ⟨slot', before, rfl⟩ := Option.map_eq_some_iff.mp there
    exact keeps location _ (tables.slots location slot' before)

theorem slot?_withPool (r : Record) (pool : Pool) (location : SlotLocation) :
    (r.withPool pool).slot? location = r.slot? location := by
  cases wiring : r.wiring <;> cases location <;> simp [withPool, wiring, slot?]

theorem slot?_modifySlots (r : Record) (f : Table → Table) (location : SlotLocation) :
    (r.modifySlots f).slot? location = (r.slot? location).map (·.modify f) := by
  cases wiring : r.wiring <;> cases location <;> simp [modifySlots, wiring, slot?]

theorem slot?_commitStaged (r : Record) (location : SlotLocation) :
    r.commitStaged.slot? location = (r.slot? location).map (·.modify Table.commitStaged) := by
  refine (slot?_modifySlots ..).trans ?_
  cases location <;> rfl

theorem Tables.withPool (tables : r.Tables T) (pool : Pool) : (r.withPool pool).Tables T :=
  tables.congr (r.withPool_fills pool).properties (r.slot?_withPool pool)

theorem Tables.commitStaged (lasts : Table.Lasts T C) (tables : r.Tables T) :
    r.commitStaged.Tables T := by
  refine tables.map ?_ (fun _ _ own => lasts.commitStaged own) r.slot?_commitStaged
  rw [properties_commitStaged]
  exact lasts.commitStaged tables.properties

theorem Tables.modifySlot (tables : r.Tables T) {location : SlotLocation} {f : Table → Table}
    (keeps : ∀ slot, r.slot? location = some slot → T (f slot.properties)) :
    (r.modifySlot location f).Tables T where
  properties := (r.modifySlot_fills location f).properties ▸ tables.properties
  slots := by
    intro other slot there
    rw [slot?_modifySlot] at there
    split at there
    · rename_i here
      obtain ⟨slot', before, rfl⟩ := Option.map_eq_some_iff.mp there
      exact keeps slot' (here ▸ before)
    · exact tables.slots other slot there

/-- A record without edits, on the record or on its slots. -/
theorem tables_make (empty : T .empty) {id : ObjectId} {wiring : Wiring}
    (bare : ∀ sources destination isLocal, wiring = .map sources destination isLocal →
      ∀ slot ∈ sources ++ [destination], slot.properties = .empty) :
    (Record.make id wiring).Tables T where
  properties := empty
  slots := by
    intro location slot there
    suffices slot.properties = .empty from this ▸ empty
    cases wiring with
    | map sources destination isLocal =>
        refine bare sources destination isLocal rfl slot ?_
        cases location with
        | source i => exact List.mem_append_left _ (List.mem_of_getElem? there)
        | destination => exact List.mem_append_right _ (by simpa [slot?, make, eq_comm] using there)
    | device | signal | link => cases location <;> cases there

theorem tables_make_of_told (empty : T .empty) {delta : Delta} {wiring : Wiring}
    (speaks : Graph.Says delta wiring) : (Record.make delta.id wiring).Tables T := by
  apply tables_make empty
  rintro _ _ _ rfl slot member
  cases speaks with
  | @map kind sources destination start goal =>
      simp only [List.mem_append, List.mem_map, List.mem_singleton] at member
      rcases member with ⟨id, -, rfl⟩ | rfl <;> rfl

end Record

namespace Graph

variable {α β σ : Type} {g h : Graph α} {delta : Delta} {r : Record}

/-- Whether all tables of a graph are of a sort. -/
def Tables (T : Table → Prop) (g : Graph α) : Prop := g.store.All (Record.Tables T)

/-- Whether a graph with tables of a sort becomes one. -/
def KeepsTables (T : Table → Prop) (g h : Graph α) : Prop := g.Tables T → h.Tables T

namespace KeepsTables

instance : IsPreorder (Graph α) (KeepsTables T) where
  refl _ := id
  trans _ _ _ first second := second ∘ first

theorem refl (g : Graph α) : KeepsTables T g g := id

theorem of_store (same : h.store = g.store) : KeepsTables T g h := fun tables => by
  rw [Tables, same]
  exact tables

theorem modify {id : ObjectId} {f : Record → Record}
    (each : ∀ r, g.store.find? id = some r → r.Tables T → (f r).Tables T) :
    KeepsTables T g (g.modify id f) :=
  fun tables => Store.All.modify tables each

/-- A change that no table feels. -/
theorem fill {id : ObjectId} {f : Record → Record} (properties : ∀ r, (f r).properties = r.properties)
    (slots : ∀ r location, (f r).slot? location = r.slot? location) :
    KeepsTables T g (g.modify id f) :=
  modify fun r _ tables => tables.congr (properties r) (slots r)

end KeepsTables

open Record

/-! ## Steps that no table feels -/

theorem touch_keepsTables (g : Graph α) (id : ObjectId) : KeepsTables T g (g.touch id) := by
  apply KeepsTables.fill
  · intro r
    split
    · split <;> rfl
    · rfl
  · intro r location
    split
    · rename_i synced wiring
      split
      · cases location <;> simp only [slot?, wiring]
      · rfl
    · rfl

theorem touchOwner_keepsTables (g : Graph α) (signal : ObjectId) :
    KeepsTables T g (g.touchOwner signal) := touchOwner_walks touch_keepsTables g signal

theorem withPool_keepsTables (signal : ObjectId) (x : Record → Attempt Pool β) :
    Attempt.Walks (KeepsTables T) (withPool (α := α) signal x) :=
  withPool_walks (fun _ _ => .modify fun _ _ tables => tables.withPool _) x

theorem withPoolEvents_keepsTables (signal : ObjectId)
    (x : Record → Attempt Pool (List PoolEvent)) :
    Attempt.Walks (KeepsTables T) (withPoolEvents (α := α) signal x) :=
  .bind (withPool_keepsTables signal x) fun _ => .change fun _ => .of_store rfl

theorem applyValue_keepsTables (u : ValueUpdate) :
    Attempt.Walks (KeepsTables T) (applyValue (α := α) u) := by
  refine .bind (withPool_keepsTables u.signal _) fun events => ?_
  cases events with
  | some events =>
      exact .bind (.change fun g => touchOwner_keepsTables g u.signal) fun _ =>
        .change fun _ => .of_store rfl
  | none => exact .pure ()

theorem remove_keepsTables (g : Graph α) (id : ObjectId) (how : Lifecycle) :
    KeepsTables T g (g.remove id how).1 := by
  apply removeWithin_walks KeepsTables.refl (fun first second => second ∘ first)
  · intro g id r _ _
    exact .fill (fun _ => rfl) fun r location => by cases location <;> rfl
  · exact fun g id => .of_store rfl

theorem observe_keepsTables (g : Graph α) (note : Notification) :
    KeepsTables T g (g.observe note) := by
  cases note with
  | record id lifecycle => exact .fill (fun _ => rfl) fun r location => by cases location <;> rfl
  | pool signal event => exact .refl g

section Lasting

variable (lasts : Table.Lasts T C)

include lasts

/-! ## What comes from the network -/

theorem recordOf_tables {wiring : Wiring} (g : Graph α) (brings : delta.Brings C)
    (made : (Record.make delta.id wiring).Tables T) : (g.recordOf delta wiring).Tables T := by
  obtain ⟨properties, slots, -⟩ := parts_applySlotDiffs (Record.make delta.id wiring) delta
  refine made.map ?_ (fun location t own => lasts.afterChanges own (brings.slotChanges location))
    fun location => (slot?_syncPool ..).trans (slots location)
  rw [(recordOf_fills g delta wiring).properties, Table.applyDiff_eq_afterChanges]
  exact lasts.afterChanges lasts.empty brings.diff

theorem establish_keepsTables {wiring : Wiring} (g : Graph α) (brings : delta.Brings C)
    (made : (Record.make delta.id wiring).Tables T) : KeepsTables T g (g.establish delta wiring) := by
  intro tables
  have founded : (g.founded delta wiring).Tables T :=
    (Store.All.insert_iff (tables.discard delta.id) _).mpr (recordOf_tables lasts g brings made)
  rw [Tables, store_establish]
  exact touchOwner_keepsTables _ delta.id founded

theorem ensureDevice_keepsTables (id : ObjectId) :
    Attempt.Walks (KeepsTables T) (ensureDevice (α := α) id) := by
  refine ensureDevice_walks ?_ id
  intro g id now
  have made : (Record.make id (.device now)).Tables T := by
    apply tables_make lasts.empty
    intro _ _ _ other
    cases other
  exact establish_keepsTables lasts g (.empty .device id) made

theorem create_keepsTables (brings : delta.Brings C) :
    Attempt.Walks (KeepsTables T) (create (α := α) delta) := by
  intro g
  refine create_walks_of (ensureDevice_keepsTables lasts) fun wiring h _ resolves => ?_
  exact establish_keepsTables lasts h brings (tables_make_of_told lasts.empty resolves.speaks)

theorem mergedRecord_tables (g : Graph α) (tables : r.Tables T) (brings : delta.Brings C) :
    (g.mergedRecord r delta).1.Tables T := by
  have takes := mergedRecord_takes g r delta
  refine tables.map ?_ (fun location t own => lasts.afterChanges own (brings.slotChanges location))
    takes.slots
  exact takes.properties ▸ lasts.afterChanges tables.properties brings.diff

theorem afterMerge_keepsTables (brings : delta.Brings C) (held : g.store.find? delta.id = some r) :
    KeepsTables T g (g.afterMerge r delta) := by
  have merged : KeepsTables T g ((g.withMerged r delta).touchOwner delta.id) := by
    refine touchOwner_keepsTables _ delta.id ∘ KeepsTables.modify fun r' held' tables => ?_
    obtain rfl := Option.some.inj (held.symm.trans held')
    exact mergedRecord_tables lasts g tables brings
  have noted (h : Graph α) : KeepsTables T h (h.noteChange delta) := fun tables => by
    rw [Tables, store_noteChange]
    exact tables.modify fun r _ own => own.congr rfl fun location => by cases location <;> rfl
  simp only [afterMerge]
  split
  · exact noted _ ∘ merged
  · exact merged

theorem upsert_keepsTables (brings : delta.Brings C) :
    Attempt.Walks (KeepsTables T) (upsert (α := α) delta) := by
  intro g
  rcases upsert_cases delta g with ⟨vacant, same⟩ | ⟨e, refused⟩ | ⟨r, how, held, -, -, -, merged⟩
  · have created := create_keepsTables lasts brings g
    simpa only [Attempt.after, same] using created
  · simpa only [Attempt.after, refused] using .refl g
  · simpa only [Attempt.after, merged] using afterMerge_keepsTables lasts brings held

theorem applyEvent_keepsTables (type : EventType) (brings : delta.Brings C) :
    Attempt.Walks (KeepsTables T) (applyEvent (α := α) type delta) := by
  intro g
  cases type with
  | announce | update => exact upsert_keepsTables lasts brings g
  | remove | expire => exact remove_keepsTables g delta.id _

theorem handle_keepsTables {event : NetworkEvent} (minds : (Input.event event : Input α).Minds T C)
    (g : Graph α) : KeepsTables T g (g.handle event) := by
  cases event with
  | record type delta => exact applyEvent_keepsTables lasts type minds g
  | value update => exact applyValue_keepsTables update g
  | sync device => exact touch_keepsTables g device

/-! ## Edits -/

omit lasts in
theorem editProperties_keepsTables {x : Attempt Table Unit} (keeps : ∀ t, T t → T (x.after t))
    (id : ObjectId) : Attempt.Walks (KeepsTables T) (editProperties (α := α) id x) := by
  refine editProperties_walks fun g => .modify fun r _ tables => ?_
  exact ⟨keeps _ tables.properties, fun location slot there =>
    tables.slots location slot (by cases location <;> exact there)⟩

omit lasts in
theorem editSlot_keepsTables {x : Attempt Table Unit} (keeps : ∀ t, T t → T (x.after t))
    (map : ObjectId) (location : SlotLocation) :
    Attempt.Walks (KeepsTables T) (editSlot (α := α) map location x) := by
  intro g
  simp only [editSlot, Attempt.after_bind, Attempt.current_apply]
  cases got : g.store.getLive map .map with
  | error e => exact .refl g
  | ok r =>
      have held := (Store.getLive_eq_ok_iff.mp got).1
      simp only [Attempt.demand_ok]
      cases there : r.slot? location with
      | none => exact .refl g
      | some slot =>
          simp only [Attempt.after_within]
          refine .modify fun r' held' tables => tables.modifySlot fun _ _ => ?_
          obtain rfl := Option.some.inj (held.symm.trans held')
          exact keeps _ (tables.slots location slot there)

theorem push_keepsTables (id : ObjectId) : Attempt.Walks (KeepsTables T) (push (α := α) id) := by
  refine push_walks ?_ fun g => .modify fun r _ tables => tables.commitStaged lasts
  intro dest delta g
  simp only [Attempt.after, send]
  cases g.wire.send dest delta with
  | mk sent wire => cases sent <;> exact .of_store rfl

theorem stageEnds_lasts {sources : List ObjectId} {destination : ObjectId} {properties : Table}
    (staged : stageEnds sources destination = .ok properties) : T properties := by
  have start := lasts.set lasts.empty .sources (.ofIds sources)
  exact stageEnds_eq_after staged ▸ lasts.set start .destination (.ofId destination)

theorem newMap_keepsTables (sources : List ObjectId) (destination : ObjectId) :
    Attempt.Walks (KeepsTables T) (newMap (α := α) sources destination) := by
  intro g tables
  refine newMap_all tables fun id properties staged => ?_
  have bare : (Record.make id
      (.map (sources.map Slot.bare) (Slot.bare destination) true)).Tables T := by
    apply tables_make lasts.empty
    rintro _ _ _ ⟨⟩ slot member
    simp only [List.mem_append, List.mem_map, List.mem_singleton] at member
    rcases member with ⟨id, -, rfl⟩ | rfl <;> rfl
  exact ⟨stageEnds_lasts lasts staged, bare.slots⟩

/-! ## Runs -/

theorem call_keepsTables {c : Call α} (minds : (Input.call c).Minds T C) (g : Graph α) :
    KeepsTables T g (g.call c) := by
  cases c with
  | network | listen | unlisten | defer => exact .of_store rfl
  | apply type delta => exact applyEvent_keepsTables lasts type minds g
  | remove id => exact remove_keepsTables g id .removed
  | newMap sources destination => exact newMap_keepsTables lasts sources destination g
  | edit id action => exact editProperties_keepsTables minds id g
  | editSlot map location action => exact editSlot_keepsTables minds map location g
  | push id => exact push_keepsTables lasts id g
  | reserve signal n => exact withPool_keepsTables signal _ g
  | reserveIds signal ids => exact withPool_keepsTables signal _ g
  | update signal slot value => exact withPoolEvents_keepsTables signal _ g
  | release signal slot => exact withPoolEvents_keepsTables signal _ g
  | drop signal slot => exact withPoolEvents_keepsTables signal _ g
  | tag signal slot tag => exact withPool_keepsTables signal _ g
  | subscribe target categories lease => exact .of_store (subscribe_quiet g target _ _).store
  | unsubscribe target => exact .of_store (unsubscribe_quiet g target).store

theorem step_keepsTables {input : Input α} (minds : input.Minds T C) (g : Graph α) :
    KeepsTables T g (g.step input) := by
  cases input with
  | event event => exact handle_keepsTables lasts minds g
  | call c => exact call_keepsTables lasts minds g

end Lasting

/-- What the records alone tell of a graph, runs keep if what polls do to records does, and all that
    comes as it may. -/
theorem Run.holds {law : Law α} {P : Graph α → Prop} {said : List Notification}
    (run : Run law g said h) (ofStore : ∀ {g h : Graph α}, h.store = g.store → P g → P h)
    (remove : ∀ {g : Graph α} id how, P g → P (g.remove id how).1)
    (observe : ∀ {g : Graph α} note, P g → P (g.observe note)) (evict : ∀ {g : Graph α}, P g → P g.evict)
    (step : ∀ {g input}, law g input → P g → P (g.step input)) (start : P g) : P h := by
  induction run with
  | refl g => exact start
  | call before c may ih => exact step may (ih start)
  | @poll σ g h said later before host s may acts ih ihActs =>
      have tookIn : P h.intake := by
        refine ofStore (renewSubscriptions_quiet _).store ?_
        have begun : P h.beginPoll := ofStore (g := h) rfl (ih start)
        have drained := may.keeps (fun {g _ _} _ => ofStore (g := g) rfl) (fun may => step may) begun
        simp only [expireDevices]
        split
        · exact drained
        · exact List.foldlRecOn _ _ (motive := P) drained fun _ sofar r _ => remove r.id .expired sofar
      have told : P (dispatch host s h.intake).2 := by
        have untold : P h.intake.unsaid := ofStore (g := h.intake) rfl tookIn
        have heard := (tellAll_aside host h.intake.notifications s h.intake.unsaid).store
        exact List.foldlRecOn _ _ (motive := P) (ofStore heard untold)
          fun _ sofar note _ => observe note sofar
      have settled : (h.toldAndEvicted host s).store = (dispatch host s h.intake).2.evict.store := by
        rw [toldAndEvicted]
      exact ihActs (ofStore settled (evict told))

/-- As long as all that comes minds it, all tables stay of a sort. -/
theorem Run.tables {law : Law α} {said : List Notification} (lasts : Table.Lasts T C)
    (minds : ∀ g input, law g input → input.Minds T C) (run : Run law g said h)
    (tables : g.Tables T) : h.Tables T := by
  refine run.holds (P := Tables T) (fun same => KeepsTables.of_store same) ?_ ?_ ?_ ?_ tables
  · exact fun id how => remove_keepsTables _ id how
  · exact fun note => observe_keepsTables _ note
  · exact fun tables => tables.dropAll _
  · exact fun may => step_keepsTables lasts (minds _ _ may) _

end Graph

end SignalGraph
