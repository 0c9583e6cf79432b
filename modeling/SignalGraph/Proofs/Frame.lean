import SignalGraph.Graph.Edits

/-! # Frames of records

The frame of a record is what the graph goes by when it relates records to each other: identity,
ties, and whether the object is there. Properties, instances and times only fill the frame. What
only fills frames leaves every relation between records as it was.
-/

namespace SignalGraph

/-- What an object is tied to, without what is kept at each end. -/
inductive Ties where
  | device
  | signal (device : ObjectId)
  | map (sources : List ObjectId) (destination : ObjectId)
  | link (first second : ObjectId)
  deriving Repr, DecidableEq

namespace Ties

def kind : Ties → ObjectKind
  | device => .device
  | signal _ => .signal
  | map _ _ => .map
  | link _ _ => .link

/-- The objects that one with these ties cannot be without, each with its kind. -/
def needs : Ties → List (ObjectId × ObjectKind)
  | device => []
  | signal owner => [(owner, .device)]
  | map sources destination => (sources ++ [destination]).map (·, .signal)
  | link first second => [(first, .device), (second, .device)]

/-- Whether a map joins some sources, and no more than allowed. -/
def Sized (limit : Nat) : Ties → Prop
  | map sources _ => sources ≠ [] ∧ sources.length ≤ limit
  | _ => True

end Ties

def Wiring.ties : Wiring → Ties
  | device _ => .device
  | signal owner _ => .signal owner
  | map sources destination _ => .map (sources.map Slot.signal) destination.signal
  | link first second => .link first second

@[simp] theorem Wiring.kind_ties (w : Wiring) : w.ties.kind = w.kind := by cases w <;> rfl

/-- What relates a record to others. -/
structure Frame where
  id : ObjectId
  isLive : Bool
  ties : Ties
  deriving Repr, DecidableEq

def Frame.kind (f : Frame) : ObjectKind := f.ties.kind

namespace Record

def frame (r : Record) : Frame := ⟨r.id, r.isLive, r.wiring.ties⟩

@[simp] theorem frame_id (r : Record) : r.frame.id = r.id := rfl

@[simp] theorem frame_isLive (r : Record) : r.frame.isLive = r.isLive := rfl

@[simp] theorem frame_ties (r : Record) : r.frame.ties = r.wiring.ties := rfl

@[simp] theorem frame_kind (r : Record) : r.frame.kind = r.kind := r.wiring.kind_ties

/-! ## What ties say -/

theorem device?_eq_some_iff (r : Record) (id : ObjectId) :
    r.device? = some id ↔ r.wiring.ties = .signal id := by
  cases h : r.wiring <;> simp [device?, h, Wiring.ties]

theorem mem_linkEnds_iff (r : Record) (id : ObjectId) :
    id ∈ r.linkEnds ↔ ∃ first second, r.wiring.ties = .link first second ∧
      (id = first ∨ id = second) := by
  cases h : r.wiring <;> simp [linkEnds, h, Wiring.ties, and_assoc]

theorem mem_mapSignals_iff (r : Record) (id : ObjectId) :
    id ∈ r.mapSignals ↔ ∃ sources destination, r.wiring.ties = .map sources destination ∧
      id ∈ sources ++ [destination] := by
  cases h : r.wiring <;> simp [mapSignals, sources, destination?, h, Wiring.ties, and_assoc]

theorem kind_of_device? {r : Record} {id : ObjectId} (owned : r.device? = some id) :
    r.kind = .signal := by
  rw [kind, ← Wiring.kind_ties, (r.device?_eq_some_iff id).mp owned]
  rfl

theorem kind_of_mem_linkEnds {r : Record} {id : ObjectId} (member : id ∈ r.linkEnds) :
    r.kind = .link := by
  obtain ⟨first, second, ties, -⟩ := (r.mem_linkEnds_iff id).mp member
  rw [kind, ← Wiring.kind_ties, ties]
  rfl

theorem kind_of_mem_mapSignals {r : Record} {id : ObjectId} (member : id ∈ r.mapSignals) :
    r.kind = .map := by
  obtain ⟨sources, destination, ties, -⟩ := (r.mem_mapSignals_iff id).mp member
  rw [kind, ← Wiring.kind_ties, ties]
  rfl

/-! ## Fillings -/

/-- Whether a record differs from another in what fills its frame only, its properties apart. -/
structure Fills (r filled : Record) : Prop where
  frame : filled.frame = r.frame
  properties : filled.properties = r.properties
  isLocal : filled.isLocal = r.isLocal

theorem Fills.refl (r : Record) : r.Fills r := ⟨rfl, rfl, rfl⟩

theorem Fills.symm {r filled : Record} (fills : r.Fills filled) : filled.Fills r :=
  ⟨fills.frame.symm, fills.properties.symm, fills.isLocal.symm⟩

theorem Fills.trans {r s t : Record} (first : r.Fills s) (second : s.Fills t) : r.Fills t :=
  ⟨second.frame.trans first.frame, second.properties.trans first.properties,
    second.isLocal.trans first.isLocal⟩

/-- What is wired the same way and was not confirmed since is the same but for fillings. -/
theorem fills_wiring (r : Record) {wiring : Wiring} (ties : wiring.ties = r.wiring.ties)
    (isLocal : { r with wiring }.isLocal = r.isLocal) : r.Fills { r with wiring } :=
  ⟨congrArg (Frame.mk r.id r.isLive) ties, rfl, isLocal⟩

theorem withPool_fills (r : Record) (pool : Pool) : r.Fills (r.withPool pool) := by
  simp only [withPool]
  split
  · rename_i wiring
    exact r.fills_wiring (wiring ▸ rfl) (by simp only [isLocal, wiring])
  · exact .refl r

theorem device?_withPool (r : Record) (pool : Pool) : (r.withPool pool).device? = r.device? := by
  cases wiring : r.wiring <;> simp [withPool, device?, wiring]

theorem syncPool_fills (r : Record) (config : Config) : r.Fills (r.syncPool config) := by
  simp only [syncPool]
  split
  · exact .refl r
  · exact withPool_fills r _

theorem signal_modify (f : Table → Table) (s : Slot) : (s.modify f).signal = s.signal := rfl

theorem map_signal_modify (f : Table → Table) (slots : List Slot) (i : Nat) :
    (slots.modify i (·.modify f)).map Slot.signal = slots.map Slot.signal := by
  induction slots generalizing i with
  | nil => simp
  | cons head rest ih =>
      cases i with
      | zero => rfl
      | succ i => simp [ih]

theorem modifySlot_fills (r : Record) (location : SlotLocation) (f : Table → Table) :
    r.Fills (r.modifySlot location f) := by
  simp only [modifySlot]
  split
  · rename_i wiring
    exact r.fills_wiring (by simp only [wiring, Wiring.ties, map_signal_modify])
      (by simp only [isLocal, wiring])
  · rename_i wiring
    exact r.fills_wiring (by simp only [wiring, Wiring.ties, signal_modify])
      (by simp only [isLocal, wiring])
  · exact .refl r

theorem applySlotDiffs_fills (r : Record) (slots : List SlotDiff) :
    r.Fills (r.applySlotDiffs slots).1 := by
  refine List.foldlRecOn slots _ (motive := fun x : Record × Bool => r.Fills x.1) (.refl r) ?_
  rintro ⟨s, changed⟩ fills diff -
  simp only
  split
  · exact fills
  · exact fills.trans (modifySlot_fills s _ _)

theorem frame_commitStaged (r : Record) : r.commitStaged.frame = r.frame := by
  cases h : r.wiring <;>
    simp [commitStaged, modifySlots, frame, h, Wiring.ties, signal_modify, Function.comp_def,
      isLive]

theorem isLocal_commitStaged (r : Record) : r.commitStaged.isLocal = r.isLocal := by
  cases h : r.wiring <;> simp [commitStaged, modifySlots, isLocal, h]

theorem properties_commitStaged (r : Record) :
    r.commitStaged.properties = r.properties.commitStaged := by
  cases h : r.wiring <;> simp [commitStaged, modifySlots, h]

end Record

namespace Graph

variable {α : Type}

/-- Nothing but the changes of a delta makes the properties of a new record. -/
theorem recordOf_fills (g : Graph α) (delta : Delta) (wiring : Wiring) :
    Record.Fills { Record.make delta.id wiring with
      properties := (Table.empty.applyDiff delta.diff).1 } (g.recordOf delta wiring) :=
  (Record.applySlotDiffs_fills _ _).trans (Record.syncPool_fills _ _)

theorem recordOf_frame (g : Graph α) (delta : Delta) (wiring : Wiring) :
    (g.recordOf delta wiring).frame = ⟨delta.id, true, wiring.ties⟩ :=
  (recordOf_fills g delta wiring).frame

theorem recordOf_kind (g : Graph α) (delta : Delta) (wiring : Wiring) :
    (g.recordOf delta wiring).kind = wiring.kind := by
  rw [← Record.frame_kind, recordOf_frame, ← Wiring.kind_ties]
  rfl

/-- A merge fills the frame of a record, with its properties as the delta has them, and it
    confirms a map that was made here. -/
theorem mergedRecord_spec (g : Graph α) (r : Record) (delta : Delta) :
    (g.mergedRecord r delta).1.frame = r.frame ∧
      (g.mergedRecord r delta).1.properties = (r.properties.applyDiff delta.diff).1 ∧
      (g.mergedRecord r delta).1.isLocal = false := by
  have slots := Record.applySlotDiffs_fills
    { r with properties := (r.properties.applyDiff delta.diff).1 } delta.slots
  simp only [mergedRecord]
  generalize (Record.applySlotDiffs _ delta.slots).1 = s at slots
  have frame : s.frame = r.frame := slots.frame
  split
  · rename_i wiring
    have synced := Record.syncPool_fills { s with wiring := .device g.now } g.config
    refine ⟨?_, synced.properties.trans slots.properties, synced.isLocal.trans rfl⟩
    rw [synced.frame, ← frame, Record.frame, Record.frame, wiring]
    rfl
  · rename_i sources destination isLocal wiring
    have synced := Record.syncPool_fills
      { s with wiring := .map sources destination false } g.config
    refine ⟨?_, synced.properties.trans slots.properties, synced.isLocal.trans rfl⟩
    rw [synced.frame, ← frame, Record.frame, Record.frame, wiring]
    rfl
  · rename_i notDevice notMap
    have synced := Record.syncPool_fills s g.config
    refine ⟨synced.frame.trans frame, synced.properties.trans slots.properties,
      synced.isLocal.trans ?_⟩
    cases wiring : s.wiring with
    | map sources destination isLocal => exact absurd wiring (notMap sources destination isLocal)
    | device | signal | link => simp only [Record.isLocal, wiring]

end Graph

/-! ## Outlines of stores -/

namespace Store

def outline (s : Store) (id : ObjectId) : Option Frame := (s.find? id).map Record.frame

def HasLive (s : Store) (id : ObjectId) (kind : ObjectKind) : Prop :=
  ∃ r, s.find? id = some r ∧ r.kind = kind ∧ r.isLive

/-- Whether the record of an identity, if there is one, is that of an object gone. -/
def IsVacant (s : Store) (id : ObjectId) : Prop := ∀ r, s.find? id = some r → r.isLive = false

/-- Whether all is there that ties need, and a map joins no more sources than allowed. -/
structure Fits (s : Store) (limit : Nat) (ties : Ties) : Prop where
  needs : ∀ need ∈ ties.needs, s.HasLive need.1 need.2
  sized : ties.Sized limit

/-- Whether two stores hold the same frames in the same order. -/
structure SameOutline (s t : Store) : Prop where
  order : t.order = s.order
  outline : ∀ id, t.outline id = s.outline id

variable {s t u : Store} {id other : ObjectId} {kind : ObjectKind}

theorem outline_of_find? {r : Record} (held : s.find? id = some r) :
    s.outline id = some r.frame := congrArg (Option.map Record.frame) held

theorem outline_eq_some_iff {f : Frame} :
    s.outline id = some f ↔ ∃ r, s.find? id = some r ∧ r.frame = f := Option.map_eq_some_iff

theorem hasLive_iff_outline :
    s.HasLive id kind ↔ ∃ f, s.outline id = some f ∧ f.kind = kind ∧ f.isLive := by
  simp only [HasLive, outline_eq_some_iff]
  constructor
  · rintro ⟨r, held, rfl, live⟩
    exact ⟨r.frame, ⟨r, held, rfl⟩, r.frame_kind, live⟩
  · rintro ⟨-, ⟨r, held, rfl⟩, same, live⟩
    exact ⟨r, held, r.frame_kind.symm.trans same, live⟩

theorem isVacant_iff_outline :
    s.IsVacant id ↔ ∀ f, s.outline id = some f → f.isLive = false := by
  simp only [IsVacant, outline_eq_some_iff]
  exact ⟨fun vacant _ ⟨r, held, same⟩ => same ▸ vacant r held,
    fun vacant r held => vacant r.frame ⟨r, held, rfl⟩⟩

theorem getLive_eq_ok_iff {r : Record} :
    s.getLive id kind = .ok r ↔ s.find? id = some r ∧ r.kind = kind ∧ r.isLive := by
  simp only [getLive]
  cases held : s.find? id with
  | none => simp
  | some r' =>
      by_cases same : r'.kind = kind <;> cases live : r'.isLive <;> grind

theorem hasLive_of_getLive {r : Record} (got : s.getLive id kind = .ok r) : s.HasLive id kind :=
  ⟨r, getLive_eq_ok_iff.mp got⟩

theorem isVacant_of_free (free : s.find? id = none) : s.IsVacant id := fun r held =>
  absurd (free.symm.trans held) (by simp)

theorem discard_of_free (free : s.find? id = none) : s.discard id = s := by
  simp only [discard, free]

theorem not_isVacant {r : Record} (held : s.find? id = some r) (live : r.isLive) :
    ¬ s.IsVacant id := fun vacant => Bool.false_ne_true ((vacant r held).symm.trans live)

theorem HasLive.ne_of_isVacant (there : s.HasLive id kind) (vacant : s.IsVacant other) :
    other ≠ id := by
  rintro rfl
  obtain ⟨r, held, -, live⟩ := there
  exact not_isVacant held live vacant

theorem HasLive.congr (same : t.outline id = s.outline id) (there : s.HasLive id kind) :
    t.HasLive id kind := by
  rw [hasLive_iff_outline, same]
  exact hasLive_iff_outline.mp there

theorem IsVacant.congr (same : t.outline id = s.outline id) (vacant : s.IsVacant id) :
    t.IsVacant id := by
  rw [isVacant_iff_outline, same]
  exact isVacant_iff_outline.mp vacant

theorem isVacant_or_isLive (s : Store) (id : ObjectId) :
    s.IsVacant id ∨ ∃ r, s.find? id = some r ∧ r.isLive := by
  cases held : s.find? id with
  | none => exact .inl fun r held' => absurd (held.symm.trans held') (by simp)
  | some r =>
      cases live : r.isLive with
      | false => exact .inl fun r' held' => Option.some.inj (held.symm.trans held') ▸ live
      | true => exact .inr ⟨r, rfl, live⟩

theorem outline_found (s : Store) (r : Record) (id : ObjectId) :
    ((s.discard r.id).insert r).outline id = if r.id = id then some r.frame else s.outline id := by
  simp only [outline, find?_insert, find?_discard]
  split <;> rfl

theorem SameOutline.refl (s : Store) : SameOutline s s := ⟨rfl, fun _ => rfl⟩

theorem SameOutline.trans (first : SameOutline s t) (second : SameOutline t u) :
    SameOutline s u :=
  ⟨second.order.trans first.order, fun id => (second.outline id).trans (first.outline id)⟩

theorem sameOutline_modify {f : Record → Record}
    (same : ∀ r, s.find? id = some r → (f r).frame = r.frame) :
    SameOutline s (s.modify id f) := by
  refine ⟨rfl, ?_⟩
  intro other
  simp only [outline, find?_modify]
  split
  · rename_i here
    subst here
    cases held : s.find? id with
    | none => rfl
    | some r => exact congrArg some (same r held)
  · rfl

end Store

end SignalGraph
