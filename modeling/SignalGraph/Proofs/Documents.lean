import SignalGraph.Json.Basic
import Mathlib.Data.List.Perm.Basic

/-! # Objects of documents

What becomes of the members of an object once they are sorted by name. Of members that share a name
only the last is left; where no two do, none is lost, and each keeps its value.
-/

namespace SignalGraph.Json

variable {name : String} {members own : List (String × Json)} {items : List Json}

theorem normalizeItems_eq_map (items : List Json) : normalizeItems items = items.map normalize := by
  induction items with
  | nil => rfl
  | cons item items ih => rw [normalizeItems, ih, List.map_cons]

theorem normalizeMembers_eq_map (members : List (String × Json)) :
    normalizeMembers members = members.map fun (name, value) => (name, value.normalize) := by
  induction members with
  | nil => rfl
  | cons member members ih => rw [normalizeMembers, ih, List.map_cons]

theorem insertMember_perm (value : Json) (fresh : name ∉ members.map Prod.fst) :
    (insertMember name value members).Perm ((name, value) :: members) := by
  induction members with
  | nil => exact .refl _
  | cons member members ih =>
      obtain ⟨other, v⟩ := member
      simp only [List.map_cons, List.mem_cons, not_or] at fresh
      obtain ⟨apart, later⟩ := fresh
      unfold insertMember
      split
      · exact .refl _
      · exact ((ih later).cons _).trans (.swap ..)

/-- Members of which no two share a name, and none shares one with a member sorted before, are all
    kept. -/
theorem foldl_insertMember_perm (distinct : ((own ++ members).map Prod.fst).Nodup) :
    (members.foldl (fun sorted (name, value) => insertMember name value sorted) own).Perm
      (own ++ members) := by
  induction members generalizing own with
  | nil => simp
  | cons member members ih =>
      have next : (own ++ member :: members).Perm (member :: (own ++ members)) := List.perm_middle
      have fresh : member.1 ∉ (own ++ members).map Prod.fst :=
        (List.nodup_cons.mp ((next.map Prod.fst).nodup_iff.mp distinct)).1
      have inserted := insertMember_perm member.2 fun among =>
        fresh (List.map_append ▸ List.mem_append_left _ among)
      have whole := (inserted.append_right members).trans next.symm
      exact (ih ((whole.map Prod.fst).nodup_iff.mpr distinct)).trans whole

theorem sortMembers_perm (distinct : (members.map Prod.fst).Nodup) :
    (sortMembers members).Perm members :=
  foldl_insertMember_perm distinct

/-- Whether a document is an object of just some members, no two of which share a name. -/
def IsObjectOf (j : Json) (members : List (String × Json)) : Prop :=
  ∃ own, j = object own ∧ own.Perm members ∧ (own.map Prod.fst).Nodup

/-- An object no two of whose members share a name keeps them all. -/
theorem normalize_isObjectOf (distinct : (members.map Prod.fst).Nodup) :
    (object members).normalize.IsObjectOf
      (members.map fun (name, value) => (name, value.normalize)) := by
  have names : (normalizeMembers members).map Prod.fst = members.map Prod.fst := by
    rw [normalizeMembers_eq_map, List.map_map]
    rfl
  have kept := sortMembers_perm (names ▸ distinct)
  refine ⟨_, rfl, normalizeMembers_eq_map members ▸ kept, ?_⟩
  rw [(kept.map Prod.fst).nodup_iff, names]
  exact distinct

theorem normalize_array (items : List Json) :
    (array items).normalize = array (items.map normalize) := by
  rw [normalize, normalizeItems_eq_map]

end SignalGraph.Json
