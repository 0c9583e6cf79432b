import SignalGraph.Proofs.Index
import SignalGraph.Proofs.TableEdits

/-! # Pushing

A push sends all that a record has staged, for itself and for its slots, in one message, and confirms
it once that is taken. Where it is refused or has nothing to send, nothing is done: no edit is sent
without the others of its record, and none is confirmed that was not sent.
-/

namespace SignalGraph

/-! ## Edits of tables -/

namespace Table

variable {t u : Table}

/-- Whether readers find the same in two tables, in the same order. -/
structure ReadsAs (t u : Table) : Prop where
  get? : ∀ key, u.get? key = t.get? key
  toList : u.toList = t.toList

theorem isEmpty_stagedDiff (t : Table) : t.stagedDiff.isEmpty = !t.hasStaged := by
  simp only [Diff.isEmpty, stagedDiff, hasStaged]
  induction t.entries with
  | nil => rfl
  | cons e rest ih =>
      obtain ⟨key, committed, staged, removed⟩ := e
      cases staged <;> cases removed <;> simp_all [TableEntry.isStaged]

theorem hasStaged_commitStaged (t : Table) : t.commitStaged.hasStaged = false := by
  refine List.any_eq_false.mpr ?_
  intro e member
  obtain ⟨e', -, done⟩ := List.mem_filterMap.mp member
  simp only [TableEntry.commit?] at done
  split at done
  · obtain rfl := Option.some.inj done
    exact Bool.false_ne_true
  · cases done

theorem toList_commitStaged (t : Table) : t.commitStaged.toList = t.toList := by
  simp only [toList, commitStaged, List.filterMap_filterMap]
  congr 1
  funext e
  simp only [TableEntry.commit?, TableEntry.visible?]
  cases e.removed <;> cases e.staged <;> cases e.committed <;> rfl

theorem Sound.readsAs_commitStaged (sound : t.Sound) : t.ReadsAs t.commitStaged := by
  obtain ⟨settled, kept⟩ := sound.layers_commitStaged
  refine ⟨fun key => ?_, t.toList_commitStaged⟩
  calc t.commitStaged.get? key = t.commitStaged.layers.get? key := (kept.get?_layers key).symm
    _ = t.layers.settle.get? key := by rw [settled]
    _ = t.layers.get? key := rfl
    _ = t.get? key := sound.get?_layers key

end Table

/-! ## Sizes of deltas -/

/-- All that a delta changes, of the object and of its slots. -/
def Delta.changes (d : Delta) : List Change := d.diff.changes ++ d.slots.flatMap (·.diff.changes)

theorem Delta.size_eq (d : Delta) : d.size = d.changes.length := by
  have counted (slots : List SlotDiff) (n : Nat) : slots.foldl (fun n s => n + s.diff.size) n =
      n + (slots.flatMap (·.diff.changes)).length := by
    induction slots generalizing n with
    | nil => rfl
    | cons s slots ih =>
        rw [List.foldl_cons, ih, List.flatMap_cons, List.length_append, Diff.size, Nat.add_assoc]
  rw [size, counted, changes, List.length_append, Diff.size]

theorem Delta.isEmpty_iff (d : Delta) :
    d.isEmpty ↔ d.diff.isEmpty ∧ ∀ s ∈ d.slots, s.diff.isEmpty := by
  simp only [isEmpty, beq_iff_eq, d.size_eq, changes, List.length_eq_zero_iff,
    List.append_eq_nil_iff, List.flatMap_eq_nil_iff, Diff.isEmpty, List.isEmpty_iff]

/-! ## Edits of records -/

namespace Record

variable {r s : Record}

theorem mem_slots_iff (r : Record) (location : SlotLocation) (slot : Slot) :
    (location, slot) ∈ r.slots ↔ r.slot? location = some slot := by
  cases wiring : r.wiring with
  | map sources destination isLocal =>
      cases location with
      | source i =>
          simp only [slots, slot?, wiring, List.mem_append, List.mem_mapIdx, List.mem_singleton,
            Prod.mk.injEq, SlotLocation.source.injEq, reduceCtorEq, false_and, or_false,
            List.getElem?_eq_some_iff]
          constructor
          · rintro ⟨j, below, rfl, same⟩
            exact ⟨below, same⟩
          · rintro ⟨below, same⟩
            exact ⟨i, below, rfl, same⟩
      | destination => simp [slots, slot?, wiring, eq_comm]
  | device | signal | link => cases location <;> simp [slots, slot?, wiring]

theorem nodup_locations (r : Record) : (r.slots.map Prod.fst).Nodup := by
  cases wiring : r.wiring with
  | map sources destination isLocal =>
      have named : (sources.mapIdx fun i s => (SlotLocation.source i, s)).map Prod.fst =
          (List.range sources.length).map .source := by
        refine List.ext_getElem (by simp) fun i _ _ => by simp
      simp only [slots, wiring, List.map_append, named]
      refine List.nodup_append.mpr ⟨?_, by simp, by simp⟩
      exact List.nodup_range.map fun i j same => SlotLocation.source.inj same
  | device | signal | link => simp [slots, wiring]

/-- What is staged for slots is a diff for each slot with edits. -/
theorem slots_stagedDelta (r : Record) : r.stagedDelta.slots =
    (r.slots.filter fun x => x.2.properties.hasStaged).map
      fun x => ⟨x.1, x.2.properties.stagedDiff⟩ := by
  simp only [stagedDelta]
  induction r.slots with
  | nil => rfl
  | cons x rest ih =>
      rw [List.filterMap_cons, List.filter_cons, ih]
      rw [Table.isEmpty_stagedDiff]
      cases x.2.properties.hasStaged <;> rfl

theorem isEmpty_stagedDelta (r : Record) : r.stagedDelta.isEmpty = !r.hasStaged := by
  have own : r.stagedDelta.diff = r.properties.stagedDiff := rfl
  have none : (∀ s ∈ r.stagedDelta.slots, s.diff.isEmpty) ↔
      ∀ x ∈ r.slots, x.2.properties.hasStaged = false := by
    rw [slots_stagedDelta]
    constructor
    · intro empty x member
      refine Bool.eq_false_iff.mpr fun staged => ?_
      have none := empty _ (List.mem_map_of_mem (List.mem_filter.mpr ⟨member, staged⟩))
      rw [Table.isEmpty_stagedDiff, staged] at none
      cases none
    · intro none s member
      obtain ⟨x, among, rfl⟩ := List.mem_map.mp member
      obtain ⟨there, staged⟩ := List.mem_filter.mp among
      exact absurd (none x there) (by simp [staged])
  rw [Bool.eq_iff_iff, Delta.isEmpty_iff, none, own, Table.isEmpty_stagedDiff]
  simp [hasStaged]

theorem hasStaged_commitStaged (r : Record) : r.commitStaged.hasStaged = false := by
  rw [hasStaged, properties_commitStaged, Table.hasStaged_commitStaged, Bool.false_or]
  refine List.any_eq_false.mpr ?_
  rintro ⟨location, slot⟩ member
  rw [mem_slots_iff, slot?_commitStaged] at member
  obtain ⟨slot', -, rfl⟩ := Option.map_eq_some_iff.mp member
  simp [Slot.modify, Table.hasStaged_commitStaged]

theorem synced?_commitStaged (r : Record) : r.commitStaged.synced? = r.synced? := by
  cases wiring : r.wiring <;> simp [commitStaged, modifySlots, synced?, wiring]

/-- Whether a record is another with its edits confirmed: none waits any more, and all else is as it
    was, whoever reads it. -/
structure ConfirmedAs (r s : Record) : Prop where
  settled : s.hasStaged = false
  properties : r.properties.ReadsAs s.properties
  slots : ∀ location slot, r.slot? location = some slot →
    ∃ slot', s.slot? location = some slot' ∧ slot.properties.ReadsAs slot'.properties
  standing : s.standing = r.standing
  pool : s.pool? = r.pool?
  synced : s.synced? = r.synced?
  isLocal : s.isLocal = r.isLocal

theorem Sound.confirmedAs_commitStaged (sound : r.Sound) : r.ConfirmedAs r.commitStaged where
  settled := r.hasStaged_commitStaged
  properties := r.properties_commitStaged.symm ▸ sound.properties.readsAs_commitStaged
  slots := by
    intro location slot there
    refine ⟨slot.modify Table.commitStaged, ?_, (sound.slots location slot there).readsAs_commitStaged⟩
    rw [slot?_commitStaged, there, Option.map_some]
  standing := r.standing_commitStaged
  pool := r.pool?_commitStaged
  synced := r.synced?_commitStaged
  isLocal := r.isLocal_commitStaged

end Record

/-- Whether a delta says all that a record has staged and nothing else, the edits of each slot under
    its own location. -/
structure Delta.SaysStaged (delta : Delta) (r : Record) : Prop where
  kind : delta.kind = r.kind
  id : delta.id = r.id
  diff : delta.diff = r.properties.stagedDiff
  slots : ∀ location diff, ⟨location, diff⟩ ∈ delta.slots ↔ ∃ slot, r.slot? location = some slot ∧
    diff = slot.properties.stagedDiff ∧ diff.isEmpty = false
  once : (delta.slots.map SlotDiff.location).Nodup

theorem Record.stagedDelta_saysStaged (r : Record) : r.stagedDelta.SaysStaged r where
  kind := rfl
  id := rfl
  diff := rfl
  slots := by
    intro location diff
    rw [slots_stagedDelta]
    simp only [List.mem_map, List.mem_filter, Prod.exists, SlotDiff.mk.injEq, mem_slots_iff]
    constructor
    · rintro ⟨_, slot, ⟨there, staged⟩, rfl, rfl⟩
      exact ⟨slot, there, rfl, by rw [Table.isEmpty_stagedDiff, staged, Bool.not_true]⟩
    · rintro ⟨slot, there, rfl, some⟩
      rw [Table.isEmpty_stagedDiff, Bool.not_eq_false'] at some
      exact ⟨location, slot, ⟨there, some⟩, rfl, rfl⟩
  once := by
    rw [slots_stagedDelta, List.map_map]
    exact r.nodup_locations.sublist (List.filter_sublist.map Prod.fst)

theorem Wire.send_of_taken {w : Wire} (takes : w.failingSends = 0) (dest : Destination)
    (delta : Delta) : w.send dest delta = (.ok (), { w with sent := w.sent ++ [(dest, delta)] }) := by
  have taken : w.takeFailure = (.ok (), w) := by simp only [takeFailure, takes]
  simp only [send, taken]

/-! ## Pushes -/

namespace Graph

variable {α : Type} {g h : Graph α} {id : ObjectId} {r : Record} {config : Config}

/-- What comes of a push. Only a push that is sent does anything to the graph, but that the wire has
    one refusal less to come. -/
inductive Pushed (g : Graph α) (id : ObjectId) : EStateM.Result Error (Graph α) Nat → Prop
  | unknown (absent : g.store.find? id = none) : Pushed g id (.error (.missing (.object id)) g)
  | gone {r : Record} (held : g.store.find? id = some r) (terminal : r.status.isTerminal) :
      Pushed g id (.error (.stale id) g)
  | nothing {r : Record} (held : g.store.find? id = some r) (live : r.isLive)
      (settled : r.hasStaged = false) : Pushed g id (.ok 0 g)
  | refused {r : Record} (held : g.store.find? id = some r) (live : r.isLive) (staged : r.hasStaged)
      {failingSends : Nat} (refuses : g.wire.failingSends = failingSends + 1) :
      Pushed g id (.error (.wire "injected failure") { g with wire := { g.wire with failingSends } })
  | sent {r s : Record} {delta : Delta} {n : Nat} {store : Store} (held : g.store.find? id = some r)
      (live : r.isLive) (staged : r.hasStaged) (takes : g.wire.failingSends = 0)
      (tells : delta.SaysStaged r) (own : delta.id = id)
      (count : n = delta.changes.length)
      (after : store.find? id = some s) (confirmed : r.ConfirmedAs s)
      (others : ∀ other, other ≠ id → store.find? other = g.store.find? other)
      (order : store.order = g.store.order) :
      Pushed g id (.ok n { g with
        store, wire := { g.wire with sent := g.wire.sent ++ [(g.store.ownerOf r, delta)] } })

theorem push_of_staged (held : g.store.find? id = some r) (live : r.isLive) (staged : r.hasStaged) :
    push id g = match g.wire.send (g.store.ownerOf r) r.stagedDelta with
      | (.ok (), wire) => .ok r.stagedDelta.size
          { g with store := g.store.modify id Record.commitStaged, wire }
      | (.error e, wire) => .error e { g with wire } := by
  have some : r.stagedDelta.isEmpty = false := by rw [r.isEmpty_stagedDelta, staged, Bool.not_true]
  simp only [push, Attempt.bind_apply, Attempt.current_apply, held, live, Bool.not_true,
    Bool.false_eq_true, ↓reduceIte, some, send]
  cases g.wire.send (g.store.ownerOf r) r.stagedDelta with
  | mk sent wire => cases sent <;> rfl

theorem pushed_of_staged (sound : r.Sound) (own : r.id = id) (held : g.store.find? id = some r)
    (live : r.isLive) (staged : r.hasStaged) : Pushed g id (push id g) := by
  rw [push_of_staged held live staged]
  cases fails : g.wire.failingSends with
  | succ failingSends =>
      simp only [Wire.send, Wire.takeFailure, fails]
      exact .refused held live staged fails
  | zero =>
      rw [Wire.send_of_taken fails]
      refine .sent held live staged fails r.stagedDelta_saysStaged own r.stagedDelta.size_eq ?_
        sound.confirmedAs_commitStaged ?_ rfl
      · rw [Store.find?_modify, if_pos rfl, held, Option.map_some]
      · intro other apart
        rw [Store.find?_modify, if_neg apart.symm]

/-- A push is all or nothing. For a record that is not there or whose object is gone, and where the
    message is refused, it ends in an error, and each edit stays staged. With nothing staged it sends
    nothing. Else it sends the edits of the record and of all its slots in one message to the owner,
    says how many changes that were, and leaves the record without edits, each property read as
    before, and all others as they were. -/
theorem push_atomic (handled : Handled config g) (id : ObjectId) : Pushed g id (push id g) := by
  cases held : g.store.find? id with
  | none =>
      simp only [push, Attempt.bind_apply, Attempt.current_apply, held]
      exact .unknown held
  | some r =>
      cases live : r.isLive with
      | false =>
          simp only [push, Attempt.bind_apply, Attempt.current_apply, held, live]
          exact .gone held (by simpa [Record.isLive] using live)
      | true =>
          cases staged : r.hasStaged with
          | false =>
              have none : r.stagedDelta.isEmpty := by
                rw [r.isEmpty_stagedDelta, staged, Bool.not_false]
              simp only [push, Attempt.bind_apply, Attempt.current_apply, held, live, none]
              exact .nothing held live staged
          | true =>
              exact pushed_of_staged (handled.isSound id r held)
                (handled.reachable.indexed.keyed id r held) held live staged

/-- A graph with a map from signal 2 to signal 3 of which the record and both slots are edited. -/
def drafted : Graph Unit :=
  let signal (id : ObjectId) : Call Unit :=
    .apply .announce ⟨.signal, id, ⟨[.set (.wellKnown .device) (.ofId ⟨1⟩)]⟩, []⟩
  let map : Call Unit := .apply .announce ⟨.map, ⟨4⟩,
    ⟨[.set (.wellKnown .sources) (.ofIds [⟨2⟩]), .set (.wellKnown .destination) (.ofId ⟨3⟩)]⟩, []⟩
  let edit : Attempt Table Unit := (TableCall.edit (.set (.named "x") (.ofId ⟨5⟩))).action
  [signal ⟨2⟩, signal ⟨3⟩, map, .edit ⟨4⟩ edit, .editSlot ⟨4⟩ (.source 0) edit,
    .editSlot ⟨4⟩ .destination edit].foldl call (make (.quiet ⟨0, 0⟩) .standard)

theorem drafted_handled : Handled .standard drafted := by
  have edits := TableCall.isByCalls (.edit (.set (.named "x") (.ofId ⟨5⟩)))
  refine .calls (.make _ _) ?_
  simp only [List.forall_mem_cons]
  exact ⟨trivial, trivial, trivial, edits, edits, edits, fun _ member => nomatch member⟩

/-- All three edits go to the device of the destination in one message. -/
theorem drafted_pushed : drafted.Pushed ⟨4⟩ (push ⟨4⟩ drafted) ∧
    ∃ h, push ⟨4⟩ drafted = .ok 3 h ∧
      (h.wire.sent.map fun m => (m.1, m.2.diff.size, m.2.slots.map SlotDiff.location)) =
        [(.device ⟨1⟩, 1, [.source 0, .destination])] :=
  ⟨push_atomic drafted_handled ⟨4⟩, _, rfl, by decide⟩

end Graph

end SignalGraph
