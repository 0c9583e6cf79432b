import Mathlib.Data.List.Nodup
import SignalGraph.Export.Snapshot
import SignalGraph.Proofs.Documents
import SignalGraph.Proofs.Interference

/-! # Spelling of keys

A well-known property goes by a few spellings, and no other text is one of them. A key that was read
from a text is read again from its own text, so that two such keys have the same text only if they
are the same, and no table or document made of them has two entries for one property.
-/

namespace SignalGraph

namespace Property

variable {p : Property} {s name : String}

theorem mem_all (p : Property) : p ∈ all := by
  cases p <;> decide

/-- The name of a property without its sign, and its long form if it has one. -/
def names (p : Property) : List String :=
  bareName p.text ::
    match p with
    | expr => ["expression"]
    | max => ["maximum"]
    | min => ["minimum"]
    | _ => []

/-- The texts that a property goes by: each of its names, with the sign or without. -/
def spellings (p : Property) : List String := p.names.flatMap fun name => [name, "@" ++ name]

theorem ofText?_of_mem_spellings (spelled : s ∈ p.spellings) : ofText? s = some p := by
  have all : ∀ p ∈ all, ∀ s ∈ p.spellings, ofText? s = some p := by decide +kernel
  exact all p (mem_all p) s spelled

theorem eq_bareName_or (s : String) : s = bareName s ∨ s = "@" ++ bareName s := by
  unfold bareName
  split
  · rename_i rest signed
    right
    apply String.toList_injective
    simpa using signed
  · exact .inl rfl

theorem bareName_mem_names (found : ofText? s = some p) : bareName s ∈ p.names := by
  unfold ofText? at found
  split at found
  case h_1 | h_2 | h_3 =>
    rename_i long
    cases found
    simp [names, long]
  case h_4 =>
    have own := List.find?_some found
    simp only [beq_iff_eq] at own
    simp [names, own]

/-- A text is read as a property just if it is one of the spellings of it. -/
theorem ofText?_eq_some_iff : ofText? s = some p ↔ s ∈ p.spellings := by
  constructor
  · intro found
    have named := bareName_mem_names found
    rw [spellings, List.mem_flatMap]
    refine ⟨bareName s, named, ?_⟩
    simpa using eq_bareName_or s
  · exact ofText?_of_mem_spellings

theorem text_mem_spellings (p : Property) : p.text ∈ p.spellings := by
  have all : ∀ p ∈ all, p.text ∈ p.spellings := by decide +kernel
  exact all p (mem_all p)

end Property

namespace Key

variable {key other : Key} {s : String}

/-- Whether a key is what some text is read as. -/
def IsRead (key : Key) : Prop := ∃ s, ofText s = key

theorem ofText_eq_wellKnown_iff {p : Property} : ofText s = wellKnown p ↔ s ∈ p.spellings := by
  rw [← Property.ofText?_eq_some_iff, ofText]
  cases Property.ofText? s <;> simp

theorem ofText_eq_named_iff {name : String} :
    ofText s = named name ↔ s = name ∧ ∀ p : Property, name ∉ p.spellings := by
  simp only [← Property.ofText?_eq_some_iff, ofText]
  cases found : Property.ofText? s with
  | some p =>
      constructor
      · rintro ⟨⟩
      · rintro ⟨rfl, none⟩
        exact absurd found (none p)
  | none => grind

/-- A key is read from its own text if it is read from any. -/
theorem IsRead.ofText_text (read : key.IsRead) : ofText key.text = key := by
  obtain ⟨s, rfl⟩ := read
  cases own : ofText s with
  | wellKnown p => exact ofText_eq_wellKnown_iff.mpr p.text_mem_spellings
  | named name =>
      obtain ⟨rfl, -⟩ := ofText_eq_named_iff.mp own
      exact own

theorem IsRead.eq_of_text_eq (read : key.IsRead) (read' : other.IsRead)
    (same : key.text = other.text) : key = other := by
  rw [← read.ofText_text, same, read'.ofText_text]

end Key

/-! ## Keys of tables -/

namespace Table

variable {t : Table} {K : Key → Prop} {key : Key}

/-- Whether all keys of a table are of some sort. -/
def KeyedBy (K : Key → Prop) (t : Table) : Prop := ∀ e ∈ t.entries, K e.key

theorem KeyedBy.empty : Table.empty.KeyedBy K := fun _ member => absurd member List.not_mem_nil

theorem KeyedBy.entrywise : Entrywise K (KeyedBy K) where
  filterMap keyed same := by
    intro e' member
    obtain ⟨e, among, worked⟩ := List.mem_filterMap.mp member
    rw [same e e' worked]
    exact keyed e among
  append keyed own _ := by
    intro e' member
    rcases List.mem_append.mp member with before | last
    · exact keyed e' before
    · exact List.mem_singleton.mp last ▸ own

/-! ### Texts of keys -/

/-- Whether a document shows a table: an object with one member for each property that readers see,
    under the text of its key and with its value. -/
structure ShownBy (t : Table) (j : Json) : Prop where
  members : j.IsObjectOf (t.toList.map fun (key, v) => (key.text, (encode v).normalize))
  once : t.keys.Nodup
  seen : ∀ key v, (key, v) ∈ t.toList ↔ t.get? key = some v

/-- Whether no two entries of a table are told apart by spelling alone. -/
structure Spelled (t : Table) : Prop where
  texts : (t.entries.map fun e => e.key.text).Nodup
  once : ∀ p : Property, (t.entries.filter fun e => e.key.text ∈ p.spellings).length ≤ 1
  shown : t.ShownBy (Export.tableJson t).normalize

theorem Unique.mem_toList_iff (unique : t.Unique) {v : Value} :
    (key, v) ∈ t.toList ↔ t.get? key = some v := by
  simp only [toList, List.mem_filterMap, get?, Option.bind_eq_some_iff,
    unique.entry?_eq_some_iff]
  constructor
  · rintro ⟨e, among, seen⟩
    obtain ⟨w, seen, same⟩ := Option.map_eq_some_iff.mp seen
    cases same
    exact ⟨e, ⟨among, rfl⟩, seen⟩
  · rintro ⟨e, ⟨among, rfl⟩, seen⟩
    exact ⟨e, among, by rw [seen, Option.map_some]⟩

variable (unique : t.Unique) (keyed : t.KeyedBy Key.IsRead)

include unique keyed

theorem nodup_texts : (t.entries.map fun e => e.key.text).Nodup := by
  have same : (t.entries.map fun e => e.key.text) = (t.entries.map TableEntry.key).map Key.text := by
    rw [List.map_map]
    rfl
  rw [same]
  apply List.Nodup.map_on _ unique
  intro key member other member' texts
  obtain ⟨e, among, rfl⟩ := List.mem_map.mp member
  obtain ⟨e', among', rfl⟩ := List.mem_map.mp member'
  exact (keyed e among).eq_of_text_eq (keyed e' among') texts

theorem length_spellings_le (p : Property) :
    (t.entries.filter fun e => e.key.text ∈ p.spellings).length ≤ 1 := by
  have few : ((t.entries.filter fun e => e.key.text ∈ p.spellings).map TableEntry.key).Nodup :=
    unique.sublist (List.filter_sublist.map _)
  have one : ((t.entries.filter fun e => e.key.text ∈ p.spellings).map TableEntry.key) ⊆
      [.wellKnown p] := by
    intro key member
    obtain ⟨e, among, rfl⟩ := List.mem_map.mp member
    obtain ⟨among, spelled⟩ := List.mem_filter.mp among
    have own := Key.ofText_eq_wellKnown_iff.mpr (of_decide_eq_true spelled)
    rw [← (keyed e among).ofText_text, own]
    exact List.mem_singleton_self _
  simpa using (List.subperm_of_subset few one).length_le

theorem shownBy_tableJson : t.ShownBy (Export.tableJson t).normalize := by
  have texts : ((t.toList.map fun (key, v) => (key.text, encode v)).map Prod.fst).Nodup := by
    have sublist := t.keys_sublist.map Key.text
    simp only [keys, List.map_map] at sublist ⊢
    exact (nodup_texts unique keyed).sublist sublist
  constructor
  · have shown := Json.normalize_isObjectOf texts
    rwa [List.map_map] at shown
  · exact unique.sublist t.keys_sublist
  · intro key v
    exact unique.mem_toList_iff

theorem spelled_of_keyedBy : t.Spelled where
  texts := nodup_texts unique keyed
  once := length_spellings_le unique keyed
  shown := shownBy_tableJson unique keyed

end Table

/-- A key that is read from a text is read again from its own text. It is a well-known property just
    if the text is a spelling of that, and has a name of its own only if it is no spelling of any; so
    keys with the same text are the same, and whatever is done to a table under such keys, no two of
    its entries, nor two members of the document that shows it, are one property spelled twice. -/
theorem Key.spelling_canonical :
    (∀ s, ofText (ofText s).text = ofText s) ∧
      (∀ s p, ofText s = wellKnown p ↔ s ∈ p.spellings) ∧
      (∀ s name, ofText s = named name → name = s ∧ ∀ p : Property, name ∉ p.spellings) ∧
      (∀ s s', (ofText s).text = (ofText s').text → ofText s = ofText s') ∧
      ∀ calls : List TableCall, (∀ call ∈ calls, ∀ key ∈ call.keys, key.IsRead) →
        (Table.empty.perform calls).Spelled := by
  have read (s : String) : (ofText s).IsRead := ⟨s, rfl⟩
  refine ⟨fun s => (read s).ofText_text, fun s p => ofText_eq_wellKnown_iff, ?_, ?_, ?_⟩
  · intro s name own
    obtain ⟨rfl, none⟩ := ofText_eq_named_iff.mp own
    exact ⟨rfl, none⟩
  · exact fun s s' => (read s).eq_of_text_eq (read s')
  · intro calls own
    exact Table.spelled_of_keyedBy (Table.Unique.empty.perform calls)
      (Table.KeyedBy.entrywise.perform .empty own)

/-- Calls that name one property in three ways, and something else that begins like it. -/
def variedCalls : List TableCall :=
  [.apply (.ofText "@max") (.ofId ⟨5⟩), .edit (.set (.ofText "maximum") (.ofId ⟨6⟩)),
    .applyDiff ⟨[.set (.ofText "max") (.ofId ⟨7⟩), .set (.ofText "maximal") (.ofId ⟨8⟩)]⟩]

theorem variedCalls_spelled :
    (Table.empty.perform variedCalls).keys = [.wellKnown .max, .named "maximal"] ∧
      (Table.empty.perform variedCalls).Spelled := by
  refine ⟨by decide +kernel, Key.spelling_canonical.2.2.2.2 variedCalls ?_⟩
  simp [variedCalls, TableCall.keys, Change.key, Key.IsRead]

end SignalGraph
