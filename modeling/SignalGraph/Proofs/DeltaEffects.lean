import SignalGraph.Proofs.Confirmation
import SignalGraph.Proofs.LifecycleChanges
import SignalGraph.Proofs.Pools

/-! # What a delta makes of a record

A record is what it says of the life of its object, its properties, its slots, its pool, and what
is known of its confirmation. A delta makes of each what it has for it, and made a second time that
holds nothing else.
-/

namespace SignalGraph

/-! ## Slots -/

/-- What the diffs for one slot come to, one after another. -/
def slotChanges (slots : List SlotDiff) (location : SlotLocation) : List Change :=
  (slots.filter fun s => s.location = location).flatMap fun s => s.diff.changes

theorem slotChanges_cons (s : SlotDiff) (slots : List SlotDiff) (location : SlotLocation) :
    slotChanges (s :: slots) location =
      if s.location = location then s.diff.changes ++ slotChanges slots location
      else slotChanges slots location := by
  by_cases here : s.location = location <;> simp [slotChanges, here]

namespace Table

variable {t : Table}

theorem afterChanges_append (t : Table) (cs ds : List Change) :
    t.afterChanges (cs ++ ds) = (t.afterChanges cs).afterChanges ds := List.foldl_append

theorem committed?_applyDiff_of_unchanged {d : Diff} (unchanged : (t.applyDiff d).2 = false)
    (key : Key) : (t.applyDiff d).1.committed? key = t.committed? key := by
  obtain ⟨cs⟩ := d
  have states := (applyDiff_snd_eq_false_iff t cs).mp unchanged
  rw [applyDiff_fst]
  clear unchanged
  induction cs generalizing t with
  | nil => rfl
  | cons c cs ih =>
      have first := states c List.mem_cons_self
      refine (ih ?_).trans (first.committed?_applyChange key)
      intro c' member
      exact (states_congr first.committed?_applyChange c').mpr
        (states c' (List.mem_cons_of_mem c member))

end Table

namespace Record

variable {r s : Record} {location other : SlotLocation}

theorem slot?_modifySlot (r : Record) (location other : SlotLocation) (f : Table → Table) :
    (r.modifySlot location f).slot? other =
      if location = other then (r.slot? other).map (·.modify f) else r.slot? other := by
  cases wiring : r.wiring with
  | map sources destination isLocal =>
      cases location with
      | source i =>
          cases other with
          | source j =>
              simp only [modifySlot, wiring, slot?, List.getElem?_modify, SlotLocation.source.injEq]
              split <;> simp
          | destination => simp [modifySlot, wiring, slot?]
      | destination => cases other <;> simp [modifySlot, wiring, slot?]
  | device | signal | link =>
      have same : r.modifySlot location f = r := by simp only [modifySlot, wiring]
      have none : r.slot? other = none := by cases other <;> simp only [slot?, wiring]
      simp [same, none]

theorem modifySlot_self {slot : Slot} (there : r.slot? location = some slot) :
    r.modifySlot location (fun _ => slot.properties) = r := by
  have same (wiring : Wiring) (own : wiring = r.wiring) : { r with wiring } = r := by rw [own]
  cases wiring : r.wiring with
  | map sources destination isLocal =>
      cases location with
      | source i =>
          simp only [slot?, wiring] at there
          have kept : sources.modify i (·.modify fun _ => slot.properties) = sources := by
            refine List.ext_getElem? fun j => ?_
            rw [List.getElem?_modify]
            by_cases here : i = j
            · subst here
              simp [there, Slot.modify]
            · simp [here]
          simp only [modifySlot, wiring, kept]
          exact same _ wiring.symm
      | destination =>
          simp only [slot?, wiring, Option.some.injEq] at there
          subst there
          simp only [modifySlot, wiring]
          exact same _ wiring.symm
  | device | signal | link => simp only [modifySlot, wiring]

def applySlotDiff (r : Record) (s : SlotDiff) : Record × Bool :=
  match r.slot? s.location with
  | none => (r, false)
  | some slot =>
    (r.modifySlot s.location fun _ => (slot.properties.applyDiff s.diff).1,
      (slot.properties.applyDiff s.diff).2)

theorem applySlotDiffs_cons (r : Record) (s : SlotDiff) (slots : List SlotDiff) :
    r.applySlotDiffs (s :: slots) =
      (((r.applySlotDiff s).1.applySlotDiffs slots).1,
        (r.applySlotDiff s).2 || ((r.applySlotDiff s).1.applySlotDiffs slots).2) := by
  have each (slots : List SlotDiff) (r : Record) : r.applySlotDiffs slots =
      slots.foldl (fun (x : Record × Bool) s =>
        ((x.1.applySlotDiff s).1, x.2 || (x.1.applySlotDiff s).2)) (r, false) := by
    rw [applySlotDiffs]
    congr 1
    funext x s
    obtain ⟨r, changed⟩ := x
    simp only [applySlotDiff]
    cases r.slot? s.location <;> simp
  rw [each, each, List.foldl_cons]
  exact (foldl_flagged applySlotDiff slots (r.applySlotDiff s).1 _).trans (by rw [Bool.false_or])

/-- The table of a slot after changes for slots: those for it have come to it, one after another. -/
theorem slot?_applySlotDiffs (r : Record) (slots : List SlotDiff) (location : SlotLocation) :
    (r.applySlotDiffs slots).1.slot? location =
      (r.slot? location).map (·.modify (·.afterChanges (slotChanges slots location))) := by
  induction slots generalizing r with
  | nil => exact Option.map_id'.symm
  | cons s slots ih =>
      have first : (r.applySlotDiff s).1.slot? location =
          if s.location = location then (r.slot? location).map (·.modify (·.afterChanges s.diff.changes))
          else r.slot? location := by
        simp only [applySlotDiff]
        by_cases here : s.location = location
        · subst here
          rw [if_pos rfl]
          cases there : r.slot? s.location with
          | none => exact there
          | some slot =>
              rw [slot?_modifySlot, if_pos rfl, there, Table.applyDiff_eq_afterChanges]
              rfl
        · rw [if_neg here]
          cases r.slot? s.location with
          | none => rfl
          | some slot => rw [slot?_modifySlot, if_neg here]
      rw [applySlotDiffs_cons, ih, first, slotChanges_cons]
      split
      · cases r.slot? location with
        | none => rfl
        | some slot => simp [Slot.modify, Table.afterChanges_append]
      · rfl

/-- Slots whose tables have taken all that comes stay as they are. -/
theorem applySlotDiffs_of_settled {slots : List SlotDiff}
    (settled : ∀ location slot, r.slot? location = some slot →
      ∀ c ∈ slotChanges slots location, slot.properties.Settled c) :
    r.applySlotDiffs slots = (r, false) := by
  induction slots with
  | nil => rfl
  | cons s slots ih =>
      have first : r.applySlotDiff s = (r, false) := by
        simp only [applySlotDiff]
        cases there : r.slot? s.location with
        | none => rfl
        | some slot =>
            have taken : slot.properties.applyDiff s.diff = (slot.properties, false) := by
              apply Table.applyDiff_of_settled
              intro c member
              refine settled s.location slot there c ?_
              rw [slotChanges_cons, if_pos rfl]
              exact List.mem_append_left _ member
            simp only [taken, modifySlot_self there]
      rw [applySlotDiffs_cons, first, ih]
      · rfl
      · intro location slot there c member
        refine settled location slot there c ?_
        rw [slotChanges_cons]
        split
        · exact List.mem_append_right _ member
        · exact member

/-- Where slots find nothing to change, what is confirmed in each is what is said of it. -/
theorem states_of_applySlotDiffs {slots : List SlotDiff}
    (unchanged : (r.applySlotDiffs slots).2 = false) {slot : Slot}
    (there : r.slot? location = some slot) :
    ∀ c ∈ slotChanges slots location, slot.properties.States c := by
  induction slots generalizing r slot with
  | nil => exact fun c member => absurd member List.not_mem_nil
  | cons s slots ih =>
      rw [applySlotDiffs_cons, Bool.or_eq_false_iff] at unchanged
      obtain ⟨first, rest⟩ := unchanged
      rw [slotChanges_cons]
      simp only [applySlotDiff] at first rest
      by_cases here : s.location = location
      · subst here
        simp only [there] at first rest
        have stated := (Table.applyDiff_snd_eq_false_iff slot.properties s.diff.changes).mp first
        rw [if_pos rfl, List.forall_mem_append]
        refine ⟨stated, ?_⟩
        have later := ih rest ((slot?_modifySlot ..).trans (by rw [if_pos rfl, there]; rfl))
        intro c member
        exact (Table.states_congr (Table.committed?_applyDiff_of_unchanged first) c).mp
          (later c member)
      · rw [if_neg here]
        refine ih rest ?_
        cases other : r.slot? s.location with
        | none => simpa using there
        | some slot' => rw [slot?_modifySlot, if_neg here, there]

/-! ## Parts of records -/

def synced? (r : Record) : Option Timetag :=
  match r.wiring with
  | .device synced => some synced
  | _ => none

/-- A record is what it says of its life and what it is made up of. -/
theorem eq_of_parts (standing : s.standing = r.standing) (properties : s.properties = r.properties)
    (slots : ∀ location, s.slot? location = r.slot? location) (pool : s.pool? = r.pool?)
    (synced : s.synced? = r.synced?) (confirmed : s.isLocal = r.isLocal) : s = r := by
  have ties : s.wiring.ties = r.wiring.ties := congrArg Standing.ties standing
  have wiring : s.wiring = r.wiring := by
    cases own : r.wiring <;> cases theirs : s.wiring <;> rw [own, theirs] at ties <;>
      simp only [Wiring.ties, reduceCtorEq] at ties
    case device.device => simpa [synced?, own, theirs] using synced
    case signal.signal =>
      have same : _ = _ := Ties.signal.inj ties
      rw [same]
      simpa [pool?, own, theirs] using pool
    case map.map sources destination isLocal sources' destination' isLocal' =>
      have first : sources' = sources := List.ext_getElem? fun i => by
        simpa [slot?, own, theirs] using slots (.source i)
      have second : destination' = destination := by
        simpa [slot?, own, theirs] using slots .destination
      have third : isLocal' = isLocal := by simpa [Record.isLocal, own, theirs] using confirmed
      rw [first, second, third]
    case link.link =>
      obtain ⟨first, second⟩ := Ties.link.inj ties
      rw [first, second]
  obtain ⟨id, status, -, terminalAt, observedCycle⟩ := Standing.mk.inj standing
  cases r
  cases s
  simp only at id status properties wiring terminalAt observedCycle
  rw [id, status, properties, wiring, terminalAt, observedCycle]

def poolSize? (t : Table) (config : Config) : Option Nat :=
  ((t.get? (.wellKnown .numInst)).bind Value.toInt32?).map fun n =>
    min n.toInt.toNat config.maxInstances

def stealMode? (t : Table) : Option StealMode :=
  ((t.get? (.wellKnown .steal)).bind Value.toString?).bind Vocabulary.ofText?

theorem syncPool_eq (r : Record) (config : Config) : r.syncPool config =
    match r.pool? with
    | none => r
    | some pool => r.withPool (pool.sync (poolSize? r.properties config) (stealMode? r.properties)) := by
  simp only [syncPool, poolSize?, stealMode?]
  cases r.pool? with
  | none => rfl
  | some pool =>
      cases (r.properties.get? (.wellKnown .numInst)).bind Value.toInt32? <;> rfl

theorem pool?_syncPool (r : Record) (config : Config) : (r.syncPool config).pool? =
    r.pool?.map (Pool.sync (poolSize? r.properties config) (stealMode? r.properties)) := by
  rw [syncPool_eq]
  cases own : r.pool? with
  | none => exact own
  | some pool =>
      cases wiring : r.wiring <;> simp only [pool?, wiring, reduceCtorEq] at own
      simp [withPool, wiring, pool?]

theorem slot?_syncPool (r : Record) (config : Config) (location : SlotLocation) :
    (r.syncPool config).slot? location = r.slot? location := by
  rw [syncPool_eq]
  cases wiring : r.wiring <;> simp only [pool?, wiring]
  cases location <;> simp [withPool, wiring, slot?]

theorem synced?_syncPool (r : Record) (config : Config) :
    (r.syncPool config).synced? = r.synced? := by
  rw [syncPool_eq]
  cases wiring : r.wiring <;> simp only [pool?, wiring]
  simp [withPool, wiring, synced?]

theorem synced?_modifySlot (r : Record) (location : SlotLocation) (f : Table → Table) :
    (r.modifySlot location f).synced? = r.synced? := by
  cases wiring : r.wiring <;> cases location <;> simp [modifySlot, wiring, synced?]

/-- What changes of single slots keep, changes for all slots keep. -/
theorem applySlotDiffs_keeps {β : Type} {part : Record → β}
    (each : ∀ r location f, part (modifySlot r location f) = part r) (r : Record)
    (slots : List SlotDiff) : part (r.applySlotDiffs slots).1 = part r := by
  induction slots generalizing r with
  | nil => rfl
  | cons s slots ih =>
      rw [applySlotDiffs_cons, ih, applySlotDiff]
      split
      · rfl
      · exact each ..

/-- The record as it is when it has just been heard of: a device gave a sign of life, a map is
    confirmed. -/
def refresh (r : Record) (now : Timetag) : Record :=
  match r.wiring with
  | .device _ => { r with wiring := .device now }
  | .map sources destination _ => { r with wiring := .map sources destination false }
  | _ => r

theorem parts_refresh (r : Record) (now : Timetag) :
    (r.refresh now).properties = r.properties ∧ (r.refresh now).pool? = r.pool? ∧
      (∀ location, (r.refresh now).slot? location = r.slot? location) ∧
      (r.refresh now).synced? = r.synced?.map (fun _ => now) ∧ (r.refresh now).isLocal = false := by
  cases wiring : r.wiring <;> simp only [refresh, wiring, pool?, synced?, isLocal, and_self,
    Option.map_some, Option.map_none, true_and, and_true]
  all_goals
    intro location
    cases location <;> simp [slot?, wiring]

/-- Whether a record is what a delta has made of another that is wired like it. -/
structure Takes (now : Timetag) (config : Config) (delta : Delta) (r s : Record) : Prop where
  properties : s.properties = r.properties.afterChanges delta.diff.changes
  slots : ∀ location, s.slot? location =
    (r.slot? location).map (·.modify (·.afterChanges (slotChanges delta.slots location)))
  pool : s.pool? = r.pool?.map (Pool.sync (poolSize? s.properties config) (stealMode? s.properties))
  synced : s.synced? = r.synced?.map fun _ => now
  confirmed : s.isLocal = false

end Record

open Record

namespace Record

/-- Whether a record holds what another does, wherever it is read, and is wired like it. The status
    may be another, and the order of properties. -/
structure Alike (r s : Record) : Prop where
  standing : s.standing = { r.standing with status := s.status }
  properties : ∀ key, s.properties.entry? key = r.properties.entry? key
  slots : ∀ location key, (s.slot? location).bind (·.properties.entry? key) =
    (r.slot? location).bind (·.properties.entry? key)
  pool : s.pool? = r.pool?
  synced : s.synced? = r.synced?
  confirmed : s.isLocal = r.isLocal

theorem get?_congr {t u : Table} (same : ∀ key, u.entry? key = t.entry? key) (key : Key) :
    u.get? key = t.get? key := by
  rw [Table.get?, same, Table.get?]

end Record

/-- Whether a delta speaks of each key of a record, and of each key of its slots, with one voice. -/
structure Delta.Coherent (delta : Delta) (r : Record) : Prop where
  own : Change.Coherent delta.diff.changes
  slots : ∀ location, (r.slot? location).isSome →
    Change.Coherent (slotChanges delta.slots location)

namespace Record.Takes

variable {now : Timetag} {config : Config} {delta : Delta} {before r s : Record}

/-- What a delta makes of what it has made holds nothing else. -/
theorem alike (first : before.Takes now config delta r) (second : r.Takes now config delta s)
    (standing : s.standing = { r.standing with status := s.status }) : r.Alike s := by
  have entries (key : Key) : s.properties.entry? key = r.properties.entry? key := by
    rw [second.properties, first.properties, Table.entry?_afterChanges_twice]
  have size : poolSize? s.properties config = poolSize? r.properties config := by
    simp only [poolSize?, get?_congr entries]
  have steal : stealMode? s.properties = stealMode? r.properties := by
    simp only [stealMode?, get?_congr entries]
  refine ⟨standing, entries, ?_, ?_, ?_, second.confirmed.trans first.confirmed.symm⟩
  · intro location key
    rw [second.slots, first.slots]
    cases before.slot? location with
    | none => rfl
    | some slot => exact Table.entry?_afterChanges_twice ..
  · rw [second.pool, size, steal, first.pool]
    cases before.pool? with
    | none => rfl
    | some pool => exact congrArg some (Pool.sync_sync ..)
  · rw [second.synced, first.synced]
    cases before.synced? <;> rfl

theorem settled (first : before.Takes now config delta r) (coherent : delta.Coherent r) :
    (∀ c ∈ delta.diff.changes, r.properties.Settled c) ∧
      ∀ location slot, r.slot? location = some slot →
        ∀ c ∈ slotChanges delta.slots location, slot.properties.Settled c := by
  refine ⟨first.properties ▸ Table.settled_of_coherent coherent.own _, ?_⟩
  intro location slot there
  have each := coherent.slots location (by rw [there]; rfl)
  rw [first.slots] at there
  obtain ⟨slot', -, rfl⟩ := Option.map_eq_some_iff.mp there
  exact Table.settled_of_coherent each _

/-- What a delta with one voice has made, it leaves as it is. -/
theorem eq_of_coherent (first : before.Takes now config delta r)
    (second : r.Takes now config delta s) (standing : s.standing = r.standing)
    (coherent : delta.Coherent r) : s = r := by
  obtain ⟨own, slots⟩ := first.settled coherent
  have status : s.status = r.status := congrArg Standing.status standing
  have alike := first.alike second (by rw [standing, status]; rfl)
  refine eq_of_parts standing ?_ ?_ alike.pool alike.synced alike.confirmed
  · rw [second.properties]
    exact Table.afterChanges_of_settled own
  · intro location
    rw [second.slots]
    cases there : r.slot? location with
    | none => rfl
    | some slot =>
        exact congrArg (fun t => some { slot with properties := t })
          (Table.afterChanges_of_settled (slots location slot there))

end Record.Takes

end SignalGraph
