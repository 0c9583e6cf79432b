import SignalGraph.Proofs.ArrivingDevices

/-! # Maps made here

A map is made under an identity that no record has, and the search for one ends where there are
fewer records than counts, though the count goes round. Whoever asks for the same map again is given
the one that there is.
-/

namespace SignalGraph

/-! ## Drafts -/

/-- A map between signals as it is made here: nothing of it is confirmed, and the signals are staged
    as its ends. -/
structure Record.IsDraft (r : Record) (sources : List ObjectId) (destination : ObjectId) :
    Prop where
  status : r.status = .new
  isLocal : r.isLocal
  start : r.sources = sources
  goal : r.destination? = some destination
  unconfirmed : ∀ key, r.properties.committed? key = none
  staged : r.properties.stagedDiff = ⟨[.set (.wellKnown .sources) (.ofIds sources),
    .set (.wellKnown .destination) (.ofId destination)]⟩
  bare : ∀ location slot, r.slot? location = some slot → slot.properties = .empty

theorem Record.kind_of_goal (r : Record) {destination : ObjectId}
    (goal : r.destination? = some destination) : r.kind = .map :=
  kind_of_mem_mapSignals (List.mem_append_right _ (Option.mem_toList.mpr goal))

namespace Store

variable {s : Store} {id : ObjectId} {sources : List ObjectId} {destination : ObjectId} {r : Record}

/-- Whether there is a map of an identity from some signals, in order, to another. -/
def HasMap (s : Store) (id : ObjectId) (sources : List ObjectId) (destination : ObjectId) : Prop :=
  ∃ r, s.find? id = some r ∧ r.isLive ∧ r.sources = sources ∧ r.destination? = some destination

theorem hasMap_of_mapBySignals? (indexed : s.Indexed)
    (found : s.mapBySignals? sources destination = some r) : s.HasMap r.id sources destination := by
  obtain ⟨held, -, live⟩ := indexed.mem_live_iff.mp (List.mem_of_find?_eq_some found)
  have ends : r.destination? = some destination ∧ r.sources = sources := by
    simpa using List.find?_some found
  exact ⟨r, held, live, ends.2, ends.1⟩

theorem mapBySignals?_eq_none_iff (indexed : s.Indexed) :
    s.mapBySignals? sources destination = none ↔ ¬ ∃ id, s.HasMap id sources destination := by
  constructor
  · rintro none ⟨id, r, held, live, start, goal⟩
    have among : r ∈ s.live .map := indexed.mem_live_iff.mpr
      ⟨(indexed.keyed id r held).symm ▸ held, r.kind_of_goal goal, live⟩
    exact List.find?_eq_none.mp none r among (decide_eq_true ⟨goal, start⟩)
  · intro without
    cases found : s.mapBySignals? sources destination with
    | none => rfl
    | some r => exact absurd ⟨r.id, hasMap_of_mapBySignals? indexed found⟩ without

/-- A map that comes where there was none between its ends is found there. -/
theorem mapBySignals?_insert (indexed : s.Indexed) (free : s.find? r.id = none)
    (draft : r.IsDraft sources destination) (without : s.mapBySignals? sources destination = none) :
    (s.insert r).mapBySignals? sources destination = some r := by
  have live : r.isLive := by simp [Record.isLive, draft.status, Status.isTerminal]
  have behind := live_found indexed (isVacant_of_free free) live .map
  rw [discard_of_free free, if_pos (r.kind_of_goal draft.goal).symm] at behind
  rw [mapBySignals?] at without
  rw [mapBySignals?, behind, List.find?_append, without]
  simp [draft.start, draft.goal]

theorem HasLive.insert {other : ObjectId} {kind : ObjectKind} (there : s.HasLive other kind)
    (free : s.find? r.id = none) : (s.insert r).HasLive other kind := by
  have apart := there.ne_of_isVacant (isVacant_of_free free)
  obtain ⟨r', held, facts⟩ := there
  exact ⟨r', (s.find?_insert r other).trans ((if_neg apart).trans held), facts⟩

end Store

namespace Graph

variable {α : Type} {config : Config} {g h : Graph α} {count : UInt32} {tries : Nat}
  {sources : List ObjectId} {destination : ObjectId}

/-! ## Counting -/

/-- An identity made here ends in its count. -/
theorem localId_toUInt32 (g : Graph α) (count : UInt32) :
    (g.localId count).val.toUInt32 = count := by
  apply UInt32.eq_of_toBitVec_eq
  ext i
  simp [localId]

theorem localId_injective (g : Graph α) : Function.Injective g.localId := fun count other same => by
  rw [← g.localId_toUInt32 count, same, localId_toUInt32]

/-- Where a search fails, the identities of all counts that it tried are taken. -/
theorem taken_of_freeCount?_eq_none (failed : g.freeCount? count tries = none) {i : Nat}
    (tried : i < tries) : g.store.contains (g.localId (count + 1 + .ofNat i)) := by
  induction tries generalizing count i with
  | zero => exact absurd tried (Nat.not_lt_zero i)
  | succ tries ih =>
      simp only [freeCount?] at failed
      split at failed
      · rename_i taken
        cases i with
        | zero => simpa using taken
        | succ i =>
            have next := ih failed (Nat.lt_of_succ_lt_succ tried)
            have same : count + 1 + 1 + UInt32.ofNat i = count + 1 + .ofNat (i + 1) := by
              rw [UInt32.ofNat_add, UInt32.add_assoc (count + 1), UInt32.add_comm 1]
              rfl
            exact same ▸ next
      · simp at failed

/-- No two tries of a search that does not go round try the same identity. -/
theorem nodup_tried (g : Graph α) (count : UInt32) (once : tries ≤ UInt32.size) :
    ((List.range tries).map fun i => g.localId (count + .ofNat i)).Nodup := by
  refine List.Nodup.map_on (fun i first j second same => ?_) List.nodup_range
  have counts := (UInt32.add_right_inj count).mp (g.localId_injective same)
  have below (i : Nat) (member : i ∈ List.range tries) : i < UInt32.size :=
    (List.mem_range.mp member).trans_le once
  have numbers := congrArg UInt32.toNat counts
  rwa [UInt32.toNat_ofNat_of_lt' (below i first), UInt32.toNat_ofNat_of_lt' (below j second)]
    at numbers

/-- A search that tries more counts than there are records ends. -/
theorem exists_freeCount? (g : Graph α) (count : UInt32) (room : g.store.size < tries)
    (once : tries ≤ UInt32.size) : ∃ free, g.freeCount? count tries = some free := by
  refine Option.ne_none_iff_exists'.mp fun failed => Nat.not_lt.mpr ?_ room
  -- Else all the identities that were tried would be those of records, of which there are fewer.
  have taken : (List.range tries).map (fun i => g.localId (count + 1 + .ofNat i)) ⊆
      g.store.records.entries.map Prod.fst := by
    intro id member
    obtain ⟨i, tried, rfl⟩ := List.mem_map.mp member
    obtain ⟨r, held⟩ := Option.isSome_iff_exists.mp
      (taken_of_freeCount?_eq_none failed (List.mem_range.mp tried))
    exact List.mem_map_of_mem ((g.store.records.mem_entries_iff _ r).mpr held)
  simpa [Store.size, Directory.size] using
    (g.nodup_tried (count + 1) once).length_le_of_subset taken

theorem nextLocalId_of_room (room : g.store.size < UInt32.size) :
    ∃ id localCounter, nextLocalId g = .ok id { g with localCounter } ∧
      g.store.find? id = none := by
  obtain ⟨free, found⟩ := g.exists_freeCount? g.localCounter room le_rfl
  refine ⟨g.localId free, free, ?_, freeCount?_free found⟩
  simp only [nextLocalId, Attempt.bind_apply, Attempt.current_apply, found]
  rfl

/-! ## Ends -/

/-- What the ends of a new map are staged as. -/
def draftEnds (sources : List ObjectId) (destination : ObjectId) : Table :=
  ⟨[⟨.wellKnown .sources, none, some (.ofIds sources), false⟩,
    ⟨.wellKnown .destination, none, some (.ofId destination), false⟩]⟩

theorem stageEnds_eq (some : sources ≠ []) :
    stageEnds sources destination = .ok (draftEnds sources destination) := by
  have valid : (Payload.int64 (sources.map ObjectId.toInt64)).Valid :=
    .inr (by simpa [Payload.size] using some)
  have start : (Key.wellKnown .sources).validate (.ofIds sources) = .ok () := by
    rw [Value.ofIds, Value.ofPayloadOrNull, dif_pos valid]
    rfl
  have goal : (Key.wellKnown .destination).validate (.ofId destination) = .ok () := rfl
  simp only [stageEnds, Attempt.bind_apply, Table.set, start, goal, Attempt.demand_ok,
    Attempt.change_apply]
  rfl

theorem isDraft_localMap (id : ObjectId) (sources : List ObjectId) (destination : ObjectId) :
    (localMap id sources destination (draftEnds sources destination)).IsDraft
      sources destination where
  status := rfl
  isLocal := rfl
  start := by simp [localMap, Record.sources, Record.make, Slot.bare, Function.comp_def]
  goal := rfl
  unconfirmed key := by
    refine Option.bind_eq_none_iff.mpr fun e held => ?_
    rcases List.mem_pair.mp (List.mem_of_find?_eq_some held) with rfl | rfl <;> rfl
  staged := rfl
  bare location slot there := by
    cases location with
    | source i =>
        obtain ⟨signal, -, rfl⟩ := List.mem_map.mp (List.mem_of_getElem? there)
        rfl
    | destination => exact Option.some.inj there ▸ rfl

/-! ## New maps -/

theorem newMap_of_refused {e : Error}
    (check : g.store.checkMapEnds g.config sources destination = .error e) :
    newMap sources destination g = .error e g := by
  simp only [newMap, Attempt.bind_apply, Attempt.current_apply, check]
  rfl

theorem newMap_of_found {r : Record}
    (check : g.store.checkMapEnds g.config sources destination = .ok ())
    (found : g.store.mapBySignals? sources destination = some r) :
    newMap sources destination g = .ok r.id g := by
  simp only [newMap, Attempt.bind_apply, Attempt.current_apply, check, Attempt.demand_ok, found]
  rfl

theorem newMap_of_room (room : g.store.size < UInt32.size)
    (check : g.store.checkMapEnds g.config sources destination = .ok ())
    (without : g.store.mapBySignals? sources destination = none) :
    ∃ localCounter r, newMap sources destination g =
        .ok r.id (({ g with localCounter } : Graph α).insert r) ∧
      g.store.find? r.id = none ∧ r.IsDraft sources destination := by
  obtain ⟨id, localCounter, made, free⟩ := nextLocalId_of_room room
  have some := (Store.checkMapEnds_eq_ok_iff.mp check).1
  refine ⟨localCounter, localMap id sources destination (draftEnds sources destination), ?_, free,
    isDraft_localMap id sources destination⟩
  simp only [newMap, Attempt.bind_apply, Attempt.current_apply, check, Attempt.demand_ok, without,
    made, stageEnds_eq some]
  rfl

/-- What comes of asking for a map: a refusal that changes nothing, the one that there is, or where
    there is none a draft under an identity that no record had. -/
inductive Maps (g : Graph α) (sources : List ObjectId) (destination : ObjectId) :
    EStateM.Result Error (Graph α) ObjectId → Prop
  | refused {e : Error} (check : g.store.checkMapEnds g.config sources destination = .error e) :
      Maps g sources destination (.error e g)
  | found {id : ObjectId} (there : g.store.HasMap id sources destination) :
      Maps g sources destination (.ok id g)
  | made {r : Record} {localCounter : UInt32}
      (without : ¬ ∃ id, g.store.HasMap id sources destination)
      (free : g.store.find? r.id = none) (draft : r.IsDraft sources destination) :
      Maps g sources destination (.ok r.id (({ g with localCounter } : Graph α).insert r))

theorem newMap_maps (indexed : g.store.Indexed) (room : g.store.size < UInt32.size)
    (sources : List ObjectId) (destination : ObjectId) :
    g.Maps sources destination (newMap sources destination g) := by
  cases check : g.store.checkMapEnds g.config sources destination with
  | error e => exact newMap_of_refused check ▸ .refused check
  | ok _ =>
      cases found : g.store.mapBySignals? sources destination with
      | some r =>
          rw [newMap_of_found check found]
          exact .found (Store.hasMap_of_mapBySignals? indexed found)
      | none =>
          obtain ⟨localCounter, r, made, free, draft⟩ := newMap_of_room room check found
          rw [made]
          exact .made ((Store.mapBySignals?_eq_none_iff indexed).mp found) free draft

/-- The map that was asked for is found between its ends, where it can be asked for again. -/
theorem checkMapEnds_newMap {id : ObjectId} (indexed : g.store.Indexed)
    (room : g.store.size < UInt32.size) (maps : newMap sources destination g = .ok id h) :
    h.store.checkMapEnds h.config sources destination = .ok () ∧
      ∃ r, h.store.mapBySignals? sources destination = some r ∧ r.id = id := by
  cases check : g.store.checkMapEnds g.config sources destination with
  | error e => exact nomatch (newMap_of_refused check).symm.trans maps
  | ok _ =>
      cases found : g.store.mapBySignals? sources destination with
      | some r =>
          obtain ⟨rfl, rfl⟩ := EStateM.Result.ok.inj ((newMap_of_found check found).symm.trans maps)
          exact ⟨check, r, found, rfl⟩
      | none =>
          -- The ends outlast the insertion, since the map takes the place of no record.
          obtain ⟨localCounter, r, made, free, draft⟩ := newMap_of_room room check found
          obtain ⟨rfl, rfl⟩ := EStateM.Result.ok.inj (made.symm.trans maps)
          obtain ⟨some, few, ends⟩ := Store.checkMapEnds_eq_ok_iff.mp check
          exact ⟨Store.checkMapEnds_eq_ok_iff.mpr
            ⟨some, few, fun id member => (ends id member).insert free⟩, r,
            Store.mapBySignals?_insert indexed free draft found, rfl⟩

/-- A map can be asked for just if there are sources, no more than allowed, and all its ends are
    live signals. A refusal changes nothing. The map that is given is found between its ends; it is
    a new one only where there was none, under an identity that no record had, and whoever asks
    again is given it again, whatever has come beside the records, and changes nothing. -/
theorem maps_made_once (reachable : Reachable config g) (few : g.store.size < UInt32.size)
    (sources : List ObjectId) (destination : ObjectId) :
    g.Maps sources destination (newMap sources destination g) ∧
      ((∃ id h, newMap sources destination g = .ok id h) ↔
        sources ≠ [] ∧ sources.length ≤ config.maxMapSources ∧
          ∀ id ∈ sources ++ [destination], g.store.HasLive id .signal) ∧
      ∀ id h, newMap sources destination g = .ok id h →
        (h.store.mapBySignals? sources destination).map Record.id = some id ∧
          ∀ k : Graph α, k.store = h.store → k.config = h.config →
            newMap sources destination k = .ok id k := by
  obtain ⟨⟨indexed, -, -⟩, rfl⟩ := reachable.complete
  have maps := newMap_maps indexed few sources destination
  refine ⟨maps, ?_, fun id h made => ?_⟩
  · rw [← Store.checkMapEnds_eq_ok_iff]
    constructor
    · rintro ⟨id, h, made⟩
      cases check : g.store.checkMapEnds g.config sources destination with
      | error e => exact nomatch (newMap_of_refused check).symm.trans made
      | ok _ => rfl
    · intro check
      generalize newMap sources destination g = result at maps
      cases maps with
      | refused refusal => exact nomatch check.symm.trans refusal
      | found there => exact ⟨_, _, rfl⟩
      | made without free draft => exact ⟨_, _, rfl⟩
  · obtain ⟨check, r, found, rfl⟩ := checkMapEnds_newMap indexed few made
    refine ⟨congrArg (Option.map Record.id) found, fun k store config => ?_⟩
    exact newMap_of_found (store ▸ config ▸ check) (store ▸ found)

/-- A map from signal 2 to itself is made under the first count that is not the number of a record,
    and made once. -/
theorem own_map_made_once :
    let g := heardOfSignal ⟨[.set (.wellKnown .device) (.ofId ⟨1⟩)]⟩
    Reachable .standard g ∧ g.store.size = 2 ∧ g.localCounter = 0 ∧
      ∃ h, newMap [⟨2⟩] ⟨2⟩ g = .ok ⟨3⟩ h ∧ g.Maps [⟨2⟩] ⟨2⟩ (.ok ⟨3⟩ h) ∧
        newMap [⟨2⟩] ⟨2⟩ h = .ok ⟨3⟩ h := by
  intro g
  have reachable : Reachable .standard g := heardOfSignal_reachable _
  have size : g.store.size = 2 := by decide
  have few : g.store.size < UInt32.size := size ▸ by decide
  obtain ⟨maps, succeeds, again⟩ := maps_made_once reachable few [⟨2⟩] ⟨2⟩
  have check : g.store.checkMapEnds .standard [⟨2⟩] ⟨2⟩ = .ok () := rfl
  obtain ⟨id, h, made⟩ := succeeds.mpr (Store.checkMapEnds_eq_ok_iff.mp check)
  obtain ⟨there, same⟩ := again id h made
  have after : (newMap [⟨2⟩] ⟨2⟩).after g = h := by rw [Attempt.after, made]
  have third : (((newMap [⟨2⟩] ⟨2⟩).after g).store.mapBySignals? [⟨2⟩] ⟨2⟩).map Record.id =
      some ⟨3⟩ := by decide +kernel
  obtain rfl : id = ⟨3⟩ := Option.some.inj (there.symm.trans (after ▸ third))
  exact ⟨reachable, size, rfl, h, made, made ▸ maps, same h rfl rfl⟩

end Graph

end SignalGraph
