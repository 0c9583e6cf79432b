import SignalGraph.Proofs.Cascade

/-! # Queries along relations

Devices, signals and maps can be asked for by way of each other. What a map is attached to are live
signals of live devices as long as it is there, so it does not matter from which end one asks.
-/

namespace SignalGraph

/-! ## Live maps -/

namespace Record

variable {r : Record} {signal : ObjectId}

theorem mem_ends_none_iff :
    signal ∈ r.ends none ↔ signal ∈ r.ends (some .input) ∨ signal ∈ r.ends (some .output) :=
  List.mem_append.trans or_comm

theorem mem_mapSignals_of_mem_ends {direction : Option Direction}
    (member : signal ∈ r.ends direction) : signal ∈ r.mapSignals := by
  cases direction with
  | none => exact member
  | some direction =>
      cases direction with
      | input => exact mem_ends_none_iff.mpr (.inl member)
      | output => exact mem_ends_none_iff.mpr (.inr member)

/-- A map needs the signals that it is attached to. -/
theorem mem_needs_of_mem_mapSignals (member : signal ∈ r.mapSignals) :
    (signal, .signal) ∈ r.wiring.ties.needs := by
  obtain ⟨sources, destination, ties, among⟩ := (r.mem_mapSignals_iff signal).mp member
  rw [ties]
  exact List.mem_map_of_mem among

end Record

namespace Store

variable {s : Store} {id device signal : ObjectId} {r : Record}

/-- Where nothing lacks what it needs, what a live record is attached to are live signals. -/
theorem Sound.hasLive_signal (sound : s.Sound []) (held : s.find? id = some r) (live : r.isLive)
    (member : signal ∈ r.mapSignals) : s.HasLive signal .signal :=
  (sound id r.frame (outline_of_find? held) live (signal, .signal)
    (Record.mem_needs_of_mem_mapSignals member)).resolve_right List.not_mem_nil

/-- A live signal is that of a live device. -/
theorem Sound.hasLive_device (sound : s.Sound []) (held : s.find? id = some r) (live : r.isLive)
    (owned : r.device? = some device) : s.HasLive device .device := by
  have needed : (device, .device) ∈ r.wiring.ties.needs := by
    rw [(r.device?_eq_some_iff device).mp owned]
    exact List.mem_cons_self
  have there := sound id r.frame (outline_of_find? held) live (device, .device) needed
  exact there.resolve_right List.not_mem_nil

/-- A signal that is there is that of its device, so that its owner need not be looked for among
    those that are there. -/
theorem owns_iff (there : s.HasLive signal .signal) :
    s.Owns device signal ↔ (Query.signalsOf device none).Selects s signal := by
  obtain ⟨r, held, -, live⟩ := there
  simp only [Owns, Query.Selects, held, Option.bind_some, Option.some.injEq, true_or, and_true,
    exists_eq_left', live, true_and]

end Store

/-! ## What is asked for -/

namespace Query

variable {s : Store} {id device signal map : ObjectId} {direction : Option Direction}

/-- The maps of a device are those of its signals, as long as maps are attached to live signals
    alone. -/
theorem selects_mapsOfDevice_iff (sound : s.Sound []) :
    (mapsOfDevice device direction).Selects s id ↔
      ∃ signal, (signalsOf device none).Selects s signal ∧
        (mapsOf signal direction).Selects s id := by
  constructor
  · rintro ⟨r, held, live, signal, member, owned, heldSignal, owns⟩
    have there := sound.hasLive_signal held live (Record.mem_mapSignals_of_mem_ends member)
    have owner : s.Owns device signal := Option.bind_eq_some_iff.mpr ⟨owned, heldSignal, owns⟩
    exact ⟨signal, (Store.owns_iff there).mp owner, r, held, live, member⟩
  · rintro ⟨signal, ⟨owned, heldSignal, -, owns, -⟩, r, held, live, member⟩
    exact ⟨r, held, live, signal, member, owned, heldSignal, owns⟩

theorem selects_mapsOf_none_iff :
    (mapsOf signal none).Selects s id ↔ (mapsOf signal (some .input)).Selects s id ∨
      (mapsOf signal (some .output)).Selects s id := by
  simp only [Selects, Record.mem_ends_none_iff, and_or_left, exists_or]

/-- The signals of a live map are those that have it among their maps. -/
theorem selects_signalsOfMap_iff (sound : s.Sound []) (live : s.HasLive map .map) :
    (signalsOfMap map).Selects s signal ↔ (mapsOf signal none).Selects s map := by
  obtain ⟨r, held, -, live⟩ := live
  simp only [Selects, held, Option.some.injEq, exists_eq_left', live, true_and, Record.ends]
  exact and_iff_right_of_imp fun member => sound.hasLive_signal held live member

end Query

/-! ## Reachable graphs -/

namespace Graph

open Query

variable {α : Type} {config : Config} {g : Graph α}

/-- It does not matter from which end a relation is asked for. The maps of a device, in whatever
    direction, are those of its signals; the maps of a signal are those into it and those out of it;
    and the signals of a map that is there are those of which it is a map. -/
theorem relation_queries_agree (reachable : Reachable config g) :
    (∀ device direction id, id ∈ (mapsOfDevice device direction).evaluate g.store ↔
      ∃ signal ∈ (signalsOf device none).evaluate g.store,
        id ∈ (mapsOf signal direction).evaluate g.store) ∧
    (∀ signal id, id ∈ (mapsOf signal none).evaluate g.store ↔
      id ∈ (mapsOf signal (some .input)).evaluate g.store ∨
        id ∈ (mapsOf signal (some .output)).evaluate g.store) ∧
    ∀ map, g.store.HasLive map .map → ∀ signal,
      (signal ∈ (signalsOfMap map).evaluate g.store ↔
        map ∈ (mapsOf signal none).evaluate g.store) := by
  have sound := reachable.complete.1.sound
  simp only [mem_evaluate_iff reachable.indexed]
  exact ⟨fun _ _ _ => selects_mapsOfDevice_iff sound, fun _ _ => selects_mapsOf_none_iff,
    fun _ live _ => selects_signalsOfMap_iff sound live⟩

/-- Of the two maps to the signal of device 2 one is from that signal itself, which is both its source
    and its destination and yet one of its signals once. -/
theorem crossed_relation_queries_agree :
    Reachable .standard crossed ∧ crossed.store.HasLive ⟨7⟩ .map ∧
      (mapsOfDevice ⟨2⟩ (some .input)).evaluate crossed.store = [⟨6⟩, ⟨7⟩] ∧
      (∃ signal ∈ (signalsOf ⟨2⟩ none).evaluate crossed.store,
        ⟨6⟩ ∈ (mapsOf signal (some .input)).evaluate crossed.store) ∧
      (signalsOfMap ⟨7⟩).evaluate crossed.store = [⟨4⟩] ∧
      ⟨7⟩ ∈ (mapsOf ⟨4⟩ none).evaluate crossed.store := by
  have there : (crossed.store.find? ⟨7⟩).any fun r => r.kind = .map ∧ r.isLive := by
    decide +kernel
  obtain ⟨r, held, facts⟩ := (Option.any_eq_true ..).mp there
  have live : crossed.store.HasLive ⟨7⟩ .map := ⟨r, held, of_decide_eq_true facts⟩
  have maps : (mapsOfDevice ⟨2⟩ (some .input)).evaluate crossed.store = [⟨6⟩, ⟨7⟩] := by
    decide +kernel
  have signals : (signalsOfMap ⟨7⟩).evaluate crossed.store = [⟨4⟩] := by decide +kernel
  obtain ⟨devices, -, ends⟩ := relation_queries_agree crossed_reachable
  exact ⟨crossed_reachable, live, maps, (devices _ _ _).mp (maps ▸ List.mem_cons_self), signals,
    (ends _ live _).mp (signals ▸ List.mem_cons_self)⟩

end Graph

end SignalGraph
