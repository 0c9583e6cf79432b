import SignalGraph.Object.Id

/-! # Directories

A directory holds at most one item under each identity. It keeps its entries in ascending order of
their identities, so that two directories that hold the same are the same.
-/

namespace SignalGraph

structure Directory (β : Type) where
  entries : List (ObjectId × β)
  ascending : entries.Pairwise fun a b => a.1.val < b.1.val
  deriving Repr, DecidableEq

namespace Directory

variable {β : Type}

/-- The item under an identity in a list of entries. -/
def lookup (id : ObjectId) : List (ObjectId × β) → Option β
  | [] => none
  | (key, b) :: rest => if key = id then some b else lookup id rest

/-- Entries with one put in its place, instead of one of its identity. -/
def putEntry (id : ObjectId) (b : β) : List (ObjectId × β) → List (ObjectId × β)
  | [] => [(id, b)]
  | (key, c) :: rest =>
    if id.val < key.val then (id, b) :: (key, c) :: rest
    else if key = id then (id, b) :: rest
    else (key, c) :: putEntry id b rest

theorem mem_putEntry {id : ObjectId} {b : β} {entries : List (ObjectId × β)} {e : ObjectId × β}
    (member : e ∈ putEntry id b entries) : e = (id, b) ∨ e ∈ entries := by
  induction entries with
  | nil => exact .inl (List.mem_singleton.mp member)
  | cons head rest ih =>
      simp only [putEntry] at member
      split at member
      · exact List.mem_cons.mp member
      · split at member
        · rcases List.mem_cons.mp member with same | inRest
          · exact .inl same
          · exact .inr (List.mem_cons_of_mem _ inRest)
        · rcases List.mem_cons.mp member with same | inRest
          · exact .inr (same ▸ List.mem_cons_self)
          · exact (ih inRest).imp_right (List.mem_cons_of_mem _)

theorem ascending_putEntry (id : ObjectId) (b : β) {entries : List (ObjectId × β)}
    (ascending : entries.Pairwise fun a b => a.1.val < b.1.val) :
    (putEntry id b entries).Pairwise fun a b => a.1.val < b.1.val := by
  induction entries with
  | nil => exact List.pairwise_singleton _ _
  | cons head rest ih =>
      obtain ⟨above, restAscending⟩ := List.pairwise_cons.mp ascending
      simp only [putEntry]
      split
      case isTrue below =>
        refine List.pairwise_cons.mpr ⟨fun e member => ?_, ascending⟩
        rcases List.mem_cons.mp member with rfl | inRest
        · exact below
        · exact UInt64.lt_trans below (above e inRest)
      case isFalse notBelow =>
        split
        case isTrue same => exact List.pairwise_cons.mpr ⟨same ▸ above, restAscending⟩
        case isFalse different =>
          refine List.pairwise_cons.mpr ⟨fun e member => ?_, ih restAscending⟩
          rcases mem_putEntry member with rfl | inRest
          · have apart : head.1.val ≠ id.val := fun same => different (by
              cases id; cases h : head.1; simp_all)
            exact UInt64.lt_of_le_of_ne (UInt64.not_lt.mp notBelow) apart
          · exact above e inRest

def empty : Directory β := ⟨[], .nil⟩

def size (d : Directory β) : Nat := d.entries.length

def get? (d : Directory β) (id : ObjectId) : Option β := lookup id d.entries

def values (d : Directory β) : List β := d.entries.map Prod.snd

def insert (d : Directory β) (id : ObjectId) (b : β) : Directory β :=
  ⟨putEntry id b d.entries, ascending_putEntry id b d.ascending⟩

def erase (d : Directory β) (id : ObjectId) : Directory β :=
  ⟨d.entries.filter fun e => e.1 ≠ id, d.ascending.filter _⟩

def modify (d : Directory β) (id : ObjectId) (f : β → β) : Directory β :=
  ⟨d.entries.map fun e => if e.1 = id then (e.1, f e.2) else e, by
    refine List.pairwise_map.mpr (d.ascending.imp fun {a b} below => ?_)
    split <;> split <;> exact below⟩

/-! ## Laws -/

@[simp] theorem get?_empty (id : ObjectId) : (empty : Directory β).get? id = none := rfl

theorem get?_insert (d : Directory β) (id other : ObjectId) (b : β) :
    (d.insert id b).get? other = if id = other then some b else d.get? other := by
  have entry (entries : List (ObjectId × β)) : lookup other (putEntry id b entries) =
      if id = other then some b else lookup other entries := by
    induction entries with
    | nil => rfl
    | cons head rest ih => grind [lookup, putEntry]
  exact entry d.entries

theorem get?_erase (d : Directory β) (id other : ObjectId) :
    (d.erase id).get? other = if id = other then none else d.get? other := by
  have entry (entries : List (ObjectId × β)) :
      lookup other (entries.filter fun e => e.1 ≠ id) =
        if id = other then none else lookup other entries := by
    induction entries with
    | nil => simp [lookup]
    | cons head rest ih => grind [lookup]
  exact entry d.entries

theorem get?_modify (d : Directory β) (id other : ObjectId) (f : β → β) :
    (d.modify id f).get? other = if id = other then (d.get? id).map f else d.get? other := by
  have entry (entries : List (ObjectId × β)) :
      lookup other (entries.map fun e => if e.1 = id then (e.1, f e.2) else e) =
        if id = other then (lookup id entries).map f else lookup other entries := by
    induction entries with
    | nil => simp [lookup]
    | cons head rest ih => grind [lookup]
  exact entry d.entries

/-- Entries name each identity once, so that each is found. -/
theorem mem_entries_iff (d : Directory β) (id : ObjectId) (b : β) :
    (id, b) ∈ d.entries ↔ d.get? id = some b := by
  have entry (entries : List (ObjectId × β))
      (ascending : entries.Pairwise fun a b => a.1.val < b.1.val) :
      (id, b) ∈ entries ↔ lookup id entries = some b := by
    induction entries with
    | nil => simp [lookup]
    | cons head rest ih =>
        obtain ⟨above, restAscending⟩ := List.pairwise_cons.mp ascending
        have absent (same : head.1 = id) : (id, b) ∉ rest := fun member =>
          UInt64.lt_irrefl _ (same ▸ above _ member)
        grind [lookup]
  exact entry d.entries d.ascending

theorem mem_values_iff (d : Directory β) (b : β) : b ∈ d.values ↔ ∃ id, d.get? id = some b := by
  simp only [values, List.mem_map, ← mem_entries_iff]
  exact ⟨fun ⟨⟨id, _⟩, member, same⟩ => ⟨id, same ▸ member⟩,
    fun ⟨id, member⟩ => ⟨(id, b), member, rfl⟩⟩

/-- Ascending entries are settled by what is among them. -/
theorem entries_eq_of_mem_iff {entries others : List (ObjectId × β)}
    (ascending : entries.Pairwise fun a b => a.1.val < b.1.val)
    (othersAscending : others.Pairwise fun a b => a.1.val < b.1.val)
    (same : ∀ e, e ∈ entries ↔ e ∈ others) : entries = others := by
  induction entries generalizing others with
  | nil =>
      cases others with
      | nil => rfl
      | cons o os => exact absurd ((same o).mpr List.mem_cons_self) List.not_mem_nil
  | cons e es ih =>
      cases others with
      | nil => exact absurd ((same e).mp List.mem_cons_self) List.not_mem_nil
      | cons o os =>
          obtain ⟨above, restAscending⟩ := List.pairwise_cons.mp ascending
          obtain ⟨othersAbove, othersRest⟩ := List.pairwise_cons.mp othersAscending
          have first : e = o := by
            rcases List.mem_cons.mp ((same e).mp List.mem_cons_self) with first | inOthers
            · exact first
            · rcases List.mem_cons.mp ((same o).mpr List.mem_cons_self) with first | inRest
              · exact first.symm
              · exact absurd (othersAbove e inOthers) (UInt64.lt_asymm (above o inRest))
          subst first
          have rest : ∀ x, x ∈ es ↔ x ∈ os := by
            intro x
            have later := same x
            simp only [List.mem_cons] at later
            constructor
            · intro member
              exact (later.mp (.inr member)).resolve_left fun h =>
                UInt64.lt_irrefl _ (h ▸ above x member)
            · intro member
              exact (later.mpr (.inr member)).resolve_left fun h =>
                UInt64.lt_irrefl _ (h ▸ othersAbove x member)
          rw [ih restAscending othersRest rest]

/-- Two directories that hold the same are the same. -/
@[ext] theorem ext {d e : Directory β} (same : ∀ id, d.get? id = e.get? id) : d = e := by
  have entries : d.entries = e.entries :=
    entries_eq_of_mem_iff d.ascending e.ascending fun ⟨id, b⟩ => by
      rw [mem_entries_iff, mem_entries_iff, same id]
  cases d
  cases e
  exact (Directory.mk.injEq ..).mpr entries

end Directory

end SignalGraph
