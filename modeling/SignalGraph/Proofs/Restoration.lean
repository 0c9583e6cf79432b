import SignalGraph.Json.Codec.Object
import SignalGraph.Proofs.Overlay
import SignalGraph.Proofs.PoolChanges
import SignalGraph.Proofs.Readback

/-! # Pools and tables from documents

A pool or a table that is read from a document is what the document lists, in the order in which it
lists it: nothing is sorted, left out or refused. So it is in order just if the document is, and
whatever there can be, in order or not, is had again from its own document.
-/

namespace SignalGraph

open Json

variable {α : Type} [Codec α] {a : α} {as : List α} {j : Json} {items : List Json} {o : Option Json}

/-! ## What is read -/

theorem array_of_decode (read : (decode j : Option (List α)) = some as) :
    ∃ items, j = .array items := by
  cases j with
  | array items => exact ⟨items, rfl⟩
  | _ => cases read

theorem required_eq_some_iff : required o = some a ↔ ∃ j, o = some j ∧ decode j = some a :=
  Option.bind_eq_some_iff

/-- Whether a member that may be missing is there, and is not null. -/
def Json.isGiven : Option Json → Bool
  | none | some .null => false
  | some _ => true

/-- What may be missing is read just if it is given. -/
theorem isSome_of_optional {v : Option α} (read : Json.optional o = some v) :
    v.isSome = isGiven o := by
  cases o with
  | none =>
      cases read
      rfl
  | some j =>
      cases j with
      | null =>
          cases read
          rfl
      | _ =>
          obtain ⟨a, -, rfl⟩ := Option.map_eq_some_iff.mp read
          rfl

/-! ## Pools -/

/-- Whether a document gives an instance a number. -/
def Instance.IsNumbered (j : Json) (id : UInt64) : Prop :=
  ∃ number rest, j.fields? ["id", "state", "last", "tag", "activated"] 5 =
    some (some number :: rest) ∧ decode number = some id

theorem Instance.isNumbered_of_decode {i : Instance} (read : decode j = some i) :
    IsNumbered j i.id := by
  obtain ⟨parts, listed, read⟩ := Option.bind_eq_some_iff.mp read
  split at read
  · simp only [Option.bind_eq_bind, Option.bind_eq_some_iff, required_eq_some_iff] at read
    obtain ⟨id, ⟨number, rfl, given⟩, _, _, _, _, _, _, _, _, made⟩ := read
    cases made
    exact ⟨number, _, listed, given⟩
  · cases read

namespace Pool

/-- Whether a document of a pool lists instances of some numbers, in their order, and a capacity. -/
def ListedBy (j : Json) (ids : List UInt64) (capacity : Nat) : Prop :=
  ∃ items steal size, j.fields? ["slots", "steal", "capacity"] 3 =
      some [some (.array items), steal, some size] ∧
    List.Forall₂ Instance.IsNumbered items ids ∧ decode size = some capacity

theorem listedBy_of_decode {p : Pool} (read : decode j = some p) :
    ListedBy j (p.slots.map Instance.id) p.capacity := by
  obtain ⟨parts, listed, read⟩ := Option.bind_eq_some_iff.mp read
  split at read
  · simp only [Option.bind_eq_bind, Option.bind_eq_some_iff, required_eq_some_iff] at read
    obtain ⟨slots, ⟨list, rfl, given⟩, steal, -, capacity, ⟨size, rfl, counted⟩, made⟩ := read
    cases made
    obtain ⟨items, rfl⟩ := array_of_decode given
    refine ⟨items, _, size, listed, ?_, counted⟩
    rw [List.forall₂_map_right_iff]
    exact (decode_array_eq_some_iff.mp given).imp fun _ _ => Instance.isNumbered_of_decode
  · cases read

theorem inOrder_iff {p : Pool} : p.InOrder ↔ (p.slots.map Instance.id).Pairwise (· < ·) ∧
    (p.slots.map Instance.id).length ≤ p.capacity ∧ p.capacity ≤ maxCapacity := by
  rw [List.pairwise_map, List.length_map]
  constructor
  · intro order
    exact ⟨order.ascending, order.fits, order.bounded⟩
  · rintro ⟨ascending, fits, bounded⟩
    exact ⟨ascending, fits, bounded⟩

end Pool

theorem readsBack_sample {s : Sample} (finite : s.value.payload.IsFinite) : ReadsBack s := by
  refine readsBack_record rfl (fun _ => rfl) rfl (by simp) fun f => ?_
  simp [required, readsBack_value finite f, readsBack_timetag _ f]

theorem readsBack_instanceState (state : InstanceState) : ReadsBack state :=
  readsBack_tagged (by cases state <;> rfl)

theorem readsBack_instance {i : Instance} (finite : ∀ s ∈ i.last, s.value.payload.IsFinite) :
    ReadsBack i := by
  refine readsBack_record rfl (fun _ => rfl) rfl (by simp) fun f => ?_
  have last : ReadsBack i.last :=
    readsBack_option rfl fun s held => readsBack_sample (finite s held)
  have tag : ReadsBack i.tag := readsBack_option rfl fun n _ => readsBack_uint64 n
  have activated : ReadsBack i.activated := readsBack_option rfl fun t _ => readsBack_timetag t
  simp [required, Json.optional, withDefault, readsBack_uint64 _ f, readsBack_instanceState _ f,
    last f, tag f, activated f]

theorem readsBack_stealMode (mode : StealMode) : ReadsBack mode := by
  intro f
  cases mode <;> cases f <;> rfl

/-- Whether the last values of a pool are of finite numbers, and its capacity is one of 64 bits. -/
structure Pool.IsWritable (p : Pool) : Prop where
  slots : ∀ i ∈ p.slots, ∀ s ∈ i.last, s.value.payload.IsFinite
  capacity : p.capacity < UInt64.size

theorem readsBack_pool {p : Pool} (writable : p.IsWritable) : ReadsBack p := by
  refine readsBack_record rfl (fun _ => rfl) rfl (by simp) fun f => ?_
  have slots := readsBack_list fun i among => readsBack_instance (writable.slots i among)
  simp [required, slots f, readsBack_stealMode _ f, readsBack_nat writable.capacity f]

/-! ## Tables -/

/-- Whether an entry holds a value, confirmed or staged. -/
def TableEntry.holdsValue (e : TableEntry) : Bool := e.committed.isSome || e.staged.isSome

/-- Whether a document gives an entry a key, and whether a value too. -/
def TableEntry.IsListed (j : Json) (listed : Key × Bool) : Prop :=
  ∃ key committed staged removed, j.fields? ["key", "committed", "staged", "removed"] 3 =
      some [some key, committed, staged, removed] ∧ decode key = some listed.1 ∧
    listed.2 = (isGiven committed || isGiven staged)

theorem TableEntry.isListed_of_decode {e : TableEntry} (read : decode j = some e) :
    IsListed j (e.key, e.holdsValue) := by
  obtain ⟨parts, listed, read⟩ := Option.bind_eq_some_iff.mp read
  split at read
  · simp only [Option.bind_eq_bind, Option.bind_eq_some_iff, required_eq_some_iff] at read
    obtain ⟨key, ⟨text, rfl, given⟩, committed, confirmed, staged, waiting, _, _, made⟩ := read
    cases made
    refine ⟨text, _, _, _, listed, given, ?_⟩
    rw [holdsValue, isSome_of_optional confirmed, isSome_of_optional waiting]
  · cases read

namespace Table

/-- Whether a document of a table lists entries of some keys, in their order, and which of them it
    gives a value. -/
def ListedBy (j : Json) (listed : List (Key × Bool)) : Prop :=
  ∃ items, j.fields? ["entries"] 1 = some [some (.array items)] ∧
    List.Forall₂ TableEntry.IsListed items listed

theorem listedBy_of_decode {t : Table} (read : decode j = some t) :
    ListedBy j (t.entries.map fun e => (e.key, e.holdsValue)) := by
  obtain ⟨parts, listed, read⟩ := Option.bind_eq_some_iff.mp read
  split at read
  · simp only [Option.bind_eq_bind, Option.bind_eq_some_iff, required_eq_some_iff] at read
    obtain ⟨entries, ⟨list, rfl, given⟩, made⟩ := read
    cases made
    obtain ⟨items, rfl⟩ := array_of_decode given
    refine ⟨items, listed, ?_⟩
    rw [List.forall₂_map_right_iff]
    exact (decode_array_eq_some_iff.mp given).imp fun _ _ => TableEntry.isListed_of_decode
  · cases read

end Table

/-! ## What holds of them -/

/-- A pool that is read from a document is in order just if the document lists ascending numbers, no
    more than the capacity it gives, and that no more than any pool can have; it then finds each of
    its instances, and stays in order whatever is done with it. A table that is read has each key
    once and a value in each entry just if the document lists it so. Nothing is asked of a document
    beyond that: it is read as whatever pool or table it was written for. -/
theorem restored_as_listed (j : Json) :
    (∀ p : Pool, decode j = some p → ∃ ids capacity, Pool.ListedBy j ids capacity ∧
      (p.InOrder ↔
        ids.Pairwise (· < ·) ∧ ids.length ≤ capacity ∧ capacity ≤ Pool.maxCapacity) ∧
      (p.InOrder → (∀ i ∈ p.slots, p.get? i.id = some i) ∧ ∀ calls, (p.run calls).1.InOrder)) ∧
    (∀ t : Table, decode j = some t → ∃ listed, Table.ListedBy j listed ∧
      (t.Unique ↔ (listed.map Prod.fst).Nodup) ∧
      ((∀ e ∈ t.entries, e.holdsValue) ↔ ∀ l ∈ listed, l.2)) ∧
    (∀ p : Pool, p.IsWritable → j = encode p ∨ j = (encode p).normalize → decode j = some p) ∧
      ∀ t : Table, (∀ e ∈ t.entries, e.IsWritable) →
        j = encode t ∨ j = (encode t).normalize → decode j = some t := by
  refine ⟨?_, ?_, fun p writable => (readsBack_pool writable).of_form,
    fun t writable => (readsBack_table writable).of_form⟩
  · intro p read
    refine ⟨_, _, Pool.listedBy_of_decode read, Pool.inOrder_iff, fun order => ⟨?_, ?_⟩⟩
    · intro i there
      exact order.ascending.get?_eq_some_iff.mpr ⟨there, rfl⟩
    · intro calls
      exact order.steps (order.run_steps calls)
  · intro t read
    refine ⟨_, Table.listedBy_of_decode read, ?_, ?_⟩
    · rw [List.map_map]
      exact Iff.rfl
    · rw [List.forall_mem_map]

/-- A document of an instance that is reserved, and says no more. -/
def reservedJson (id : Int) : Json :=
  .object [("id", .integer id), ("state", .string "Reserved")]

def poolJson (ids : List Int) (capacity : Int) : Json :=
  .object [("slots", .array (ids.map reservedJson)), ("steal", .string "none"),
    ("capacity", .integer capacity)]

/-- The first two slots of a pool of two. -/
def twoSlots : Pool := ⟨[.reserved 0, .reserved 1], .none, 2⟩

theorem twoSlots_restored :
    decode (poolJson [0, 1] 2) = some twoSlots ∧ twoSlots.InOrder ∧
      ∀ calls, (twoSlots.run calls).1.InOrder := by
  have read : decode (poolJson [0, 1] 2) = some twoSlots := by decide +kernel
  have order : twoSlots.InOrder := Pool.inOrder_iff.mpr (by decide)
  obtain ⟨_, _, _, _, kept⟩ := (restored_as_listed (poolJson [0, 1] 2)).1 _ read
  exact ⟨read, order, (kept order).2⟩

/-- Slots that stand in the wrong order, in a pool that is larger than any that is made. -/
def misplaced : Pool := ⟨[.reserved 2, .reserved 1], .none, 200⟩

/-- Two entries for one key, neither of which holds a value. -/
def hollowTable : Table := ⟨[⟨.named "a", none, none, false⟩, ⟨.named "a", none, none, false⟩]⟩

/-- Documents are read as a pool that is out of order and does not find a slot that it lists, and
    as a table with a key twice and nothing for it. -/
theorem misplaced_restored :
    decode (poolJson [2, 1] 200) = some misplaced ∧ ¬misplaced.Ascending ∧
      Pool.maxCapacity < misplaced.capacity ∧ .reserved 2 ∈ misplaced.slots ∧
      misplaced.get? 2 = none ∧ decode (.object [("entries", .array [.object [("key", .string "a")],
        .object [("key", .string "a")]])]) = some hollowTable ∧
      ¬hollowTable.Unique ∧ ∀ e ∈ hollowTable.entries, e.holdsValue = false := by
  have apart : ¬misplaced.Ascending := by
    unfold Pool.Ascending
    decide
  have twice : ¬hollowTable.Unique := by
    unfold Table.Unique
    decide
  exact ⟨by decide +kernel, apart, by decide, by decide, by decide +kernel, by decide +kernel,
    twice, by decide⟩

end SignalGraph
