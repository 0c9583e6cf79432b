import Mathlib.Data.List.Forall2
import SignalGraph.Json.Codec.Value
import SignalGraph.Proofs.Documents
import SignalGraph.Proofs.PoolChanges
import SignalGraph.Proofs.Rounding
import SignalGraph.Proofs.Spelling

/-! # Reading back

A document reaches its reader as it was written, or sorted: with the members of objects ordered by
name and 32-bit numbers widened. What reads back is had again from its own document in either form.
Records read back if all their members do, and lists if all their items do; numbers must be finite,
and keys must have been read from texts.
-/

namespace SignalGraph

namespace Json

/-! ## Forms of documents -/

inductive Form where
  | written
  | sorted

namespace Form

variable (f : Form) {members : List (String × Json)} {names : List String}

/-- A document in one of the forms. -/
def of : Form → Json → Json
  | written, j => j
  | sorted, j => j.normalize

@[simp] theorem of_null : f.of .null = .null := by
  cases f <;> rfl

@[simp] theorem of_bool (b : Bool) : f.of (.bool b) = .bool b := by
  cases f <;> rfl

@[simp] theorem of_integer (n : Int) : f.of (.integer n) = .integer n := by
  cases f <;> rfl

@[simp] theorem of_string (s : String) : f.of (.string s) = .string s := by
  cases f <;> rfl

@[simp] theorem of_double (x : Double) : f.of (.double x) = .double x := by
  cases f <;> rfl

@[simp] theorem of_array (items : List Json) : f.of (.array items) = .array (items.map f.of) := by
  cases f with
  | written => exact congrArg array (List.map_id _).symm
  | sorted => exact normalize_array items

theorem isObjectOf (distinct : (members.map Prod.fst).Nodup) :
    (f.of (.object members)).IsObjectOf (members.map fun (name, value) => (name, f.of value)) := by
  cases f with
  | written => exact ⟨members, rfl, .of_eq (List.map_id _).symm, distinct⟩
  | sorted => exact normalize_isObjectOf distinct

/-- An object of one member has it alone in either form. -/
@[simp] theorem of_singleton (name : String) (value : Json) :
    f.of (.object [(name, value)]) = .object [(name, f.of value)] := by
  cases f <;> rfl

end Form

variable {j : Json} {members own : List (String × Json)} {name : String} {value : Json}

theorem lookup_eq_some_of_mem (once : (own.map Prod.fst).count name ≤ 1)
    (member : (name, value) ∈ own) : List.lookup name own = some value := by
  obtain ⟨before, after, rfl⟩ := List.append_of_mem member
  rw [List.map_append, List.map_cons, List.count_append, List.count_cons_self] at once
  have absent : (before.map Prod.fst).count name = 0 := by omega
  rw [List.lookup_eq_some_iff]
  refine ⟨before, after, rfl, fun other among => ?_⟩
  rw [bne_iff_ne]
  rintro rfl
  exact List.count_eq_zero.mp absent (List.mem_map_of_mem among)

/-- A record is read member by member from an object of just these. -/
theorem IsObjectOf.fields?_eq (shape : j.IsObjectOf members) (leading : Nat) :
    j.fields? (members.map Prod.fst) leading = some (members.map fun member => some member.2) := by
  obtain ⟨own, rfl, same, distinct⟩ := shape
  have known : (own.map Prod.fst).filter (members.map Prod.fst).contains = own.map Prod.fst := by
    rw [List.filter_eq_self]
    intro name among
    simpa using (same.map Prod.fst).mem_iff.mp among
  have looked : ∀ member ∈ members, List.lookup member.1 own = some member.2 :=
    fun member among => lookup_eq_some_of_mem (List.nodup_iff_count_le_one.mp distinct member.1)
      (same.mem_iff.mpr among)
  simp only [fields?]
  rw [known, eraseDups_of_nodup distinct, if_pos rfl, List.map_map]
  exact congrArg some (List.map_congr_left looked)

/-- A record is read from its own document member by member, in either form. -/
theorem Form.fields?_of (f : Form) {names : List String} (named : members.map Prod.fst = names)
    (distinct : names.Nodup) (leading : Nat) :
    (f.of (.object members)).fields? names leading =
      some (members.map fun member => some (f.of member.2)) := by
  subst named
  have read := (f.isObjectOf distinct).fields?_eq leading
  rw [List.map_map, List.map_map] at read
  exact read

theorem integerIn?_eq {low high n : Int} (above : low ≤ n) (below : n ≤ high) :
    (integer n).integerIn? low high = some n := if_pos ⟨above, below⟩

theorem count?_natCast {n : Nat} (bound : n < UInt64.size) : (integer n).count? = some n := by
  have within : (n : Int) ≤ UInt64.size - 1 := by omega
  simp only [count?, integerIn?_eq (Int.natCast_nonneg n) within, Option.map_some,
    Int.toNat_natCast]

end Json

open Json

/-! ## Basic types -/

/-- Whether a datum is had again from its own document, in either form. -/
def ReadsBack {α : Type} [Codec α] (a : α) : Prop :=
  ∀ f : Form, decode (f.of (encode a)) = some a

section

variable {α : Type} [Codec α] {a : α} {as : List α} {j : Json}

theorem ReadsBack.of_form (read : ReadsBack a) (form : j = encode a ∨ j = (encode a).normalize) :
    decode j = some a := by
  rcases form with rfl | rfl
  · exact read .written
  · exact read .sorted

theorem readsBack_bool (b : Bool) : ReadsBack b := by
  intro f
  simp [encode, decode]

theorem readsBack_string (s : String) : ReadsBack s := by
  intro f
  simp [encode, decode]

theorem readsBack_int32 (n : Int32) : ReadsBack n := by
  intro f
  simp only [encode, decode, Form.of_integer, integerIn?_eq n.minValue_le_toInt n.toInt_le,
    Option.map_some, Int32.ofInt_toInt]

theorem readsBack_int64 (n : Int64) : ReadsBack n := by
  intro f
  simp only [encode, decode, Form.of_integer, integerIn?_eq n.minValue_le_toInt n.toInt_le,
    Option.map_some, Int64.ofInt_toInt]

theorem readsBack_uint32 (n : UInt32) : ReadsBack n := by
  intro f
  have within : (n.toNat : Int) ≤ UInt32.size - 1 := by
    have bound := n.toNat_lt
    simp only [UInt32.size]
    omega
  simp only [encode, decode, Form.of_integer, integerIn?_eq (Int.natCast_nonneg _) within,
    Option.map_some, Int.toNat_natCast, UInt32.ofNat_toNat]

theorem readsBack_nat {n : Nat} (bound : n < UInt64.size) : ReadsBack n := by
  intro f
  simp only [encode, decode, Form.of_integer, count?_natCast bound]

theorem readsBack_uint64 (n : UInt64) : ReadsBack n := by
  intro f
  simp only [encode, decode, Form.of_integer, count?_natCast n.toNat_lt, Option.map_some,
    UInt64.ofNat_toNat]

theorem readsBack_double {x : Double} (finite : x.isFinite) : ReadsBack x := by
  intro f
  simp [encode, ofDouble, finite, decode]

theorem readsBack_single {x : Single} (finite : x.isFinite) : ReadsBack x := by
  obtain ⟨there, back⟩ := Binary.convert_single finite
  intro f
  cases f with
  | written => simp [encode, ofSingle, finite, Form.of, decode]
  | sorted =>
      simp [encode, ofSingle, finite, Form.of, Json.normalize, ofDouble, there, decode, back]

/-- A list is read item by item. -/
theorem decode_array_eq_some_iff {items : List Json} :
    (decode (.array items) : Option (List α)) = some as ↔
      List.Forall₂ (fun item a => decode item = some a) items as := by
  change items.mapM decode = some as ↔ _
  induction items generalizing as with
  | nil => cases as <;> simp
  | cons item items ih =>
      cases as with
      | nil => simp [Option.bind_eq_some_iff]
      | cons a as => simp [Option.bind_eq_some_iff, ih]

theorem readsBack_list (each : ∀ a ∈ as, ReadsBack a) : ReadsBack as := by
  intro f
  change decode (f.of (.array (as.map encode))) = some as
  rw [Form.of_array, decode_array_eq_some_iff, List.map_map, List.forall₂_map_left_iff,
    List.forall₂_same]
  intro a among
  exact each a among f

/-- What may be missing reads back if what is there does, and is not written as null. -/
theorem readsBack_option (refuses : decode .null = (none : Option α)) {o : Option α}
    (read : ∀ a ∈ o, ReadsBack a) : ReadsBack o := by
  intro f
  cases o with
  | none => simp [encode, decode]
  | some a =>
      have own : decode (f.of (encode a)) = some a := read a rfl f
      have some : f.of (encode a) ≠ .null := by
        intro null
        rw [null, refuses] at own
        cases own
      simp [encode, decode, own]

/-- A record reads back if it is had again from what its members read back as. -/
theorem readsBack_record {members : List (String × Json)} {names : List String} {leading : Nat}
    {make : List (Option Json) → Option α} (writes : encode a = .object members)
    (reads : ∀ j : Json, decode j = (j.fields? names leading).bind make)
    (named : members.map Prod.fst = names) (distinct : names.Nodup)
    (had : ∀ f : Form, make (members.map fun member => some (f.of member.2)) = some a) :
    ReadsBack a := by
  intro f
  rw [writes, reads, f.fields?_of named distinct, Option.bind_some, had]

end

/-- Words read back if no two are spelled the same. -/
theorem readsBack_tagged {α : Type} [Tagged α] {a : α}
    (named : Tagged.ofTag? (Tagged.tag a) = some a) : ReadsBack a := by
  intro f
  simp [encode, decode, unitCase?, case?, named]

/-! ## Values -/

namespace Payload

/-- Whether all numbers among the elements are finite. -/
def IsFinite : Payload → Prop
  | float32 xs => ∀ x ∈ xs, x.isFinite
  | float64 xs => ∀ x ∈ xs, x.isFinite
  | _ => True

end Payload

theorem readsBack_timetag (t : Timetag) : ReadsBack t := by
  refine readsBack_record rfl (fun _ => rfl) rfl (by simp) fun f => ?_
  simp [required, readsBack_uint32 _ f]

theorem readsBack_kind (kind : Kind) : ReadsBack kind :=
  readsBack_tagged (by cases kind <;> rfl)

/-- The kind of a payload comes before its elements in either form. -/
theorem Json.Form.of_payload (f : Form) (kind elements : Json) :
    f.of (.object [("type", kind), ("value", elements)]) =
      .object [("type", f.of kind), ("value", f.of elements)] := by
  cases f with
  | written => rfl
  | sorted =>
    have after : ¬"value" < "type" := by decide
    simp only [Form.of, Json.normalize, normalizeMembers, sortMembers, List.foldl_cons,
      List.foldl_nil, insertMember, if_neg after, String.reduceEq, ↓reduceIte]

theorem decode_payload (f : Form) (kind elements : Json) :
    (decode (f.of (.object [("type", kind), ("value", elements)])) : Option Payload) =
      (decode (f.of kind)).bind fun kind =>
        Payload.decodeElements kind (some (f.of elements)) := by
  have parts : (f.of (.object [("type", kind), ("value", elements)])).fields? ["type", "value"] 2 =
      some [some (f.of kind), some (f.of elements)] := f.fields?_of rfl (by simp) 2
  have first : (f.of (.object [("type", kind), ("value", elements)])).firstName?
      ["type", "value"] = some "type" := by
    rw [f.of_payload]
    rfl
  change (fields? _ _ _).bind _ = _
  rw [parts, Option.bind_some]
  simp [first, required]

/-- A payload that is not null reads back if its elements do. -/
theorem readsBack_elements {α : Type} [Codec α] {p : Payload} {xs : List α}
    {make : List α → Payload}
    (writes : encode p = .object [("type", encode p.kind), ("value", encode xs)])
    (reads : ∀ j, Payload.decodeElements p.kind (some j) = make <$> decode j)
    (made : make xs = p) (items : ∀ x ∈ xs, ReadsBack x) : ReadsBack p := by
  intro f
  rw [writes, decode_payload, readsBack_kind, Option.bind_some, reads, readsBack_list items]
  exact congrArg some made

theorem readsBack_payload {p : Payload} (finite : p.IsFinite) : ReadsBack p := by
  cases p with
  | null =>
      intro f
      cases f <;> rfl
  | bool xs => exact readsBack_elements rfl (fun _ => rfl) rfl fun x _ => readsBack_bool x
  | int32 xs => exact readsBack_elements rfl (fun _ => rfl) rfl fun x _ => readsBack_int32 x
  | int64 xs => exact readsBack_elements rfl (fun _ => rfl) rfl fun x _ => readsBack_int64 x
  | float32 xs =>
      exact readsBack_elements rfl (fun _ => rfl) rfl fun x among =>
        readsBack_single (finite x among)
  | float64 xs =>
      exact readsBack_elements rfl (fun _ => rfl) rfl fun x among =>
        readsBack_double (finite x among)
  | string xs => exact readsBack_elements rfl (fun _ => rfl) rfl fun x _ => readsBack_string x
  | time xs => exact readsBack_elements rfl (fun _ => rfl) rfl fun x _ => readsBack_timetag x

theorem readsBack_value {v : Value} (finite : v.payload.IsFinite) : ReadsBack v := by
  intro f
  change (decode (f.of (encode v.payload))).bind (fun p => (Value.ofPayload p).toOption) = some v
  rw [readsBack_payload finite, Option.bind_some, Value.ofPayload, dif_pos v.valid]
  rfl

/-! ## Properties -/

theorem readsBack_key {key : Key} (read : key.IsRead) : ReadsBack key := by
  intro f
  simp [encode, decode, read.ofText_text]

/-- Whether the key of a change was read from a text, and the numbers of what it sets are finite. -/
def Change.IsWritable : Change → Prop
  | set key v => key.IsRead ∧ v.payload.IsFinite
  | remove key => key.IsRead

theorem readsBack_change {c : Change} (writable : c.IsWritable) : ReadsBack c := by
  intro f
  cases c with
  | set key v =>
      change decode (f.of (.object [("Set", .array [encode key, encode v])])) = _
      simp only [Form.of_singleton, Form.of_array, List.map_cons, List.map_nil]
      change (decode (f.of (encode key))).bind (fun key => (decode (f.of (encode v))).bind
        fun v => some (Change.set key v)) = _
      rw [readsBack_key writable.1, readsBack_value writable.2]
      rfl
  | remove key =>
      change decode (f.of (.object [("Remove", encode key)])) = _
      rw [Form.of_singleton]
      change (decode (f.of (encode key))).bind (fun key => some (Change.remove key)) = _
      rw [readsBack_key writable]
      rfl

theorem readsBack_diff {d : Diff} (writable : ∀ c ∈ d.changes, c.IsWritable) : ReadsBack d := by
  refine readsBack_record rfl (fun _ => rfl) rfl (by simp) fun f => ?_
  have changes := readsBack_list (fun c among => readsBack_change (writable c among)) f
  simp [required, changes]

/-- Whether the key of an entry was read from a text, and the numbers of its values are finite. -/
structure TableEntry.IsWritable (e : TableEntry) : Prop where
  key : e.key.IsRead
  committed : ∀ v ∈ e.committed, v.payload.IsFinite
  staged : ∀ v ∈ e.staged, v.payload.IsFinite

theorem readsBack_value? {o : Option Value} (finite : ∀ v ∈ o, v.payload.IsFinite) : ReadsBack o :=
  readsBack_option rfl fun v some => readsBack_value (finite v some)

theorem readsBack_entry {e : TableEntry} (writable : e.IsWritable) : ReadsBack e := by
  refine readsBack_record rfl (fun _ => rfl) rfl (by simp) fun f => ?_
  have committed := readsBack_value? writable.committed f
  have staged := readsBack_value? writable.staged f
  simp [required, Json.optional, withDefault, readsBack_key writable.key f, committed, staged,
    readsBack_bool e.removed f]

theorem readsBack_table {t : Table} (writable : ∀ e ∈ t.entries, e.IsWritable) : ReadsBack t := by
  refine readsBack_record rfl (fun _ => rfl) rfl (by simp) fun f => ?_
  have entries := readsBack_list (fun e among => readsBack_entry (writable e among)) f
  simp [required, entries]

end SignalGraph
