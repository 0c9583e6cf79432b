import SignalGraph.Json.Codec.Message
import SignalGraph.Proofs.Readback

/-! # Documents of messages

Every message of finite numbers and keys that were read from texts is had again from its own
document. A document in which some value has no elements is no message: a value is refused without
elements, and each reader refuses what holds a part that its own reader refuses.
-/

namespace SignalGraph

open Json

/-! ## What a message can be written with -/

/-- Whether the place of a slot is a number of 64 bits. -/
def SlotLocation.IsWritable : SlotLocation → Prop
  | source index => index < UInt64.size
  | destination => True

structure SlotDiff.IsWritable (s : SlotDiff) : Prop where
  location : s.location.IsWritable
  diff : ∀ c ∈ s.diff.changes, c.IsWritable

structure Delta.IsWritable (d : Delta) : Prop where
  diff : ∀ c ∈ d.diff.changes, c.IsWritable
  slots : ∀ s ∈ d.slots, s.IsWritable

/-- Whether the keys in a message were read from texts, its numbers are finite, and the places of
    its slots are numbers of 64 bits. -/
def NetworkEvent.IsWritable : NetworkEvent → Prop
  | record _ delta => delta.IsWritable
  | value update => ∀ v ∈ update.value, v.payload.IsFinite
  | sync _ => True

/-! ## Reading back -/

theorem readsBack_objectId (id : ObjectId) : ReadsBack id := by
  intro f
  change (decode (f.of (encode id.val))).map ObjectId.mk = some id
  rw [readsBack_uint64, Option.map_some]

theorem readsBack_slotLocation {location : SlotLocation} (writable : location.IsWritable) :
    ReadsBack location := by
  intro f
  cases location with
  | source index =>
      change decode (f.of (.object [("Source", encode index)])) = _
      rw [Form.of_singleton]
      change (decode (f.of (encode index))).map SlotLocation.source = _
      rw [readsBack_nat writable, Option.map_some]
  | destination => cases f <;> rfl

theorem readsBack_slotDiff {s : SlotDiff} (writable : s.IsWritable) : ReadsBack s := by
  refine readsBack_record rfl (fun _ => rfl) rfl (by simp) fun f => ?_
  simp [required, readsBack_slotLocation writable.location f, readsBack_diff writable.diff f]

theorem readsBack_objectKind (kind : ObjectKind) : ReadsBack kind :=
  readsBack_tagged (by cases kind <;> rfl)

theorem readsBack_eventType (type : EventType) : ReadsBack type :=
  readsBack_tagged (by cases type <;> rfl)

theorem readsBack_delta {d : Delta} (writable : d.IsWritable) : ReadsBack d := by
  refine readsBack_record rfl (fun _ => rfl) rfl (by simp) fun f => ?_
  have slots := readsBack_list (fun s among => readsBack_slotDiff (writable.slots s among)) f
  simp [required, readsBack_objectKind _ f, readsBack_objectId _ f, readsBack_diff writable.diff f,
    slots]

theorem readsBack_valueUpdate {u : ValueUpdate} (finite : ∀ v ∈ u.value, v.payload.IsFinite) :
    ReadsBack u := by
  refine readsBack_record rfl (fun _ => rfl) rfl (by simp) fun f => ?_
  have slot : ReadsBack u.slot := readsBack_option rfl fun n _ => readsBack_uint64 n
  simp [required, Json.optional, withDefault, readsBack_objectId _ f, slot f,
    readsBack_value? finite f, readsBack_timetag _ f]

theorem readsBack_networkEvent {e : NetworkEvent} (writable : e.IsWritable) : ReadsBack e := by
  intro f
  cases e with
  | record type delta =>
      have parts : (f.of (.object [("event", encode type), ("delta", encode delta)])).fields?
          ["event", "delta"] 2 = some [some (f.of (encode type)), some (f.of (encode delta))] :=
        f.fields?_of rfl (by simp) 2
      change decode (f.of (.object [("Record", .object _)])) = _
      rw [Form.of_singleton]
      change (fields? _ _ _).bind _ = _
      rw [parts, Option.bind_some]
      simp [required, readsBack_eventType _ f, readsBack_delta writable f]
  | value update =>
      change decode (f.of (.object [("Value", encode update)])) = _
      rw [Form.of_singleton]
      change (decode (f.of (encode update))).bind (fun u => some (NetworkEvent.value u)) = _
      rw [readsBack_valueUpdate writable, Option.bind_some]
  | sync device =>
      have parts : (f.of (.object [("device", encode device)])).fields? ["device"] 1 =
          some [some (f.of (encode device))] := f.fields?_of rfl (by simp) 1
      change decode (f.of (.object [("Sync", .object _)])) = _
      rw [Form.of_singleton]
      change (fields? _ _ _).bind _ = _
      rw [parts, Option.bind_some]
      simp [required, readsBack_objectId _ f]

/-! ## Values without elements -/

namespace Json

variable {j part : Json} {names : List String} {name : String}

/-- What a document of a record gives for one of its members: what stands under the name, or in the
    place of the name in a list. -/
inductive Gives (names : List String) (name : String) : Json → Json → Prop
  | named {members : List (String × Json)} {part : Json} (member : (name, part) ∈ members) :
      Gives names name (.object members) part
  | placed {items : List Json} {part : Json} (there : items[names.idxOf name]? = some part) :
      Gives names name (.array items) part

theorem padded_eq_map {items : List Json} (fits : items.length ≤ names.length)
    (distinct : names.Nodup) :
    items.map some ++ List.replicate (names.length - items.length) none =
      names.map fun name => items[names.idxOf name]? := by
  refine List.ext_getElem (by simp [fits]) fun i before within => ?_
  have bound : i < names.length := by simpa using within
  rw [List.getElem_map, distinct.idxOf_getElem i bound, List.getElem_append]
  split
  · rename_i there
    rw [List.length_map] at there
    rw [List.getElem_map, List.getElem?_eq_getElem there]
  · rename_i beyond
    rw [List.length_map, Nat.not_lt] at beyond
    rw [List.getElem_replicate, List.getElem?_eq_none beyond]

/-- What is given for a member of a record is what its reader finds there, if it finds any. -/
theorem Gives.fields?_eq (gives : Gives names name j part) (known : name ∈ names)
    (distinct : names.Nodup) {leading : Nat} {parts : List (Option Json)}
    (read : j.fields? names leading = some parts) :
    ∃ found : String → Option Json, parts = names.map found ∧ found name = some part := by
  cases gives with
  | @named members _ member =>
    simp only [fields?] at read
    split at read
    · rename_i single
      cases read
      refine ⟨fun name => List.lookup name members, rfl, ?_⟩
      refine lookup_eq_some_of_mem ?_ member
      have once := nodup_eraseDups ((members.map Prod.fst).filter names.contains)
      rw [(eraseDups_sublist _).eq_of_length single, List.nodup_iff_count_le_one] at once
      have own := once name
      rw [List.count_filter (by simpa using known)] at own
      exact own
    · cases read
  | @placed items _ there =>
    simp only [fields?] at read
    split at read
    · rename_i bounds
      cases read
      refine ⟨fun name => items[names.idxOf name]?, ?_, there⟩
      exact padded_eq_map bounds.2 distinct
    · cases read

/-- A record is refused if it gives for a member what no other members make up for. -/
theorem Gives.refused {α : Type} {leading : Nat} {make : List (Option Json) → Option α}
    (gives : Gives names name j part) (distinct : names.Nodup) (known : name ∈ names)
    (refuses : ∀ found : String → Option Json, found name = some part →
      make (names.map found) = none) : (j.fields? names leading).bind make = none := by
  cases read : j.fields? names leading with
  | none => rfl
  | some parts =>
      obtain ⟨found, rfl, given⟩ := gives.fields?_eq known distinct read
      exact refuses found given

end Json

/-- Whether a document, read as a type, describes a value without elements at any depth. -/
inductive HoldsEmpty : (α : Type) → [Codec α] → Json → Prop
  | value {j : Json} (empty : j.Gives ["type", "value"] "value" (.array [])) : HoldsEmpty Value j
  | option {α : Type} [Codec α] {j : Json} (held : HoldsEmpty α j) : HoldsEmpty (Option α) j
  | list {α : Type} [Codec α] {item : Json} {items : List Json} (among : item ∈ items)
      (held : HoldsEmpty α item) : HoldsEmpty (List α) (.array items)
  | change {key v : Json} (held : HoldsEmpty Value v) :
      HoldsEmpty Change (.object [("Set", .array [key, v])])
  | diff {j part : Json} (gives : j.Gives ["changes"] "changes" part)
      (held : HoldsEmpty (List Change) part) : HoldsEmpty Diff j
  | slotDiff {j part : Json} (gives : j.Gives ["location", "diff"] "diff" part)
      (held : HoldsEmpty Diff part) : HoldsEmpty SlotDiff j
  | delta {j part : Json} (gives : j.Gives ["kind", "id", "diff", "slots"] "diff" part)
      (held : HoldsEmpty Diff part) : HoldsEmpty Delta j
  | slots {j part : Json} (gives : j.Gives ["kind", "id", "diff", "slots"] "slots" part)
      (held : HoldsEmpty (List SlotDiff) part) : HoldsEmpty Delta j
  | update {j part : Json} (gives : j.Gives ["signal", "instance", "value", "time"] "value" part)
      (held : HoldsEmpty (Option Value) part) : HoldsEmpty ValueUpdate j
  | record {content part : Json} (gives : content.Gives ["event", "delta"] "delta" part)
      (held : HoldsEmpty Delta part) : HoldsEmpty NetworkEvent (.object [("Record", content)])
  | event {content : Json} (held : HoldsEmpty ValueUpdate content) :
      HoldsEmpty NetworkEvent (.object [("Value", content)])

/-- No kind of value is made of no elements. -/
theorem ofPayload_decodeElements_nil {kind : Kind} {p : Payload}
    (read : Payload.decodeElements kind (some (.array [])) = some p) :
    (Value.ofPayload p).toOption = none := by
  cases kind <;> cases read <;> rfl

theorem refused_value {j : Json} (empty : j.Gives ["type", "value"] "value" (.array [])) :
    (decode j : Option Value) = none := by
  change ((j.fields? _ _).bind _).bind _ = none
  rw [Option.bind_assoc]
  refine empty.refused (by simp) (by simp) fun found given => ?_
  rw [Option.bind_eq_none_iff]
  intro p read
  simp only [List.map_cons, List.map_nil, given, Option.bind_eq_bind,
    Option.bind_eq_some_iff] at read
  obtain ⟨_, _, kind, _, elements⟩ := read
  exact ofPayload_decodeElements_nil elements

theorem HoldsEmpty.ne_null {α : Type} [Codec α] {j : Json} (held : HoldsEmpty α j) : j ≠ .null := by
  induction held with
  | value gives | diff gives | slotDiff gives | delta gives | slots gives | update gives =>
      cases gives <;> simp
  | option _ ih => exact ih
  | list | change | record | event => simp

theorem refused_list {α : Type} [Codec α] {item : Json} {items : List Json} (among : item ∈ items)
    (refused : (decode item : Option α) = none) :
    (decode (.array items) : Option (List α)) = none := by
  change items.mapM decode = none
  induction items with
  | nil => cases among
  | cons first items ih =>
      rcases List.mem_cons.mp among with rfl | later
      · simp [refused]
      · simp [ih later]

theorem HoldsEmpty.refused {α : Type} [Codec α] {j : Json} (held : HoldsEmpty α j) :
    (decode j : Option α) = none := by
  induction held with
  | value empty => exact refused_value empty
  | option held ih =>
      have some := held.ne_null
      simp [decode, ih]
  | list among held ih => exact refused_list among ih
  | change held ih =>
      change (decode _).bind (fun key => (decode _).bind fun v => some (Change.set key v)) = _
      simp [ih]
  | diff gives held ih | slotDiff gives held ih | delta gives held ih | slots gives held ih
  | update gives held ih | record gives held ih =>
      refine gives.refused (by simp) (by simp) fun found given => ?_
      simp [required, Json.optional, withDefault, given, ih]
  | event held ih =>
      change (decode _).bind (fun u => some (NetworkEvent.value u)) = _
      simp [ih]

/-- Whatever a message says, it is had again from its own document, as it was written or sorted. A
    document that describes a value without elements is refused, however deep in it the value is. -/
theorem documents_of_messages (j : Json) :
    (∀ e : NetworkEvent, e.IsWritable → j = encode e ∨ j = (encode e).normalize →
      decode j = some e) ∧
      ∀ (α : Type) [Codec α], HoldsEmpty α j → (decode j : Option α) = none := by
  constructor
  · intro e writable
    exact (readsBack_networkEvent writable).of_form
  · intro α _ held
    exact held.refused

/-- The name of a map is taken back, and its first slot told a tenth, which has no exact form. -/
def tenth : NetworkEvent :=
  .record .update ⟨.map, ⟨7⟩, ⟨[.remove (.wellKnown .name)]⟩,
    [⟨.source 0, ⟨[.set (.named "gain") ⟨.float32 [.ofQuotient false 1 10], by decide⟩]⟩⟩]⟩

/-- The first slot of a map is told a value without elements. -/
def hollow : Json :=
  .object [("Record", .object [("event", .string "Update"), ("delta", .object
    [("kind", .string "Map"), ("id", .integer 7), ("diff", .object [("changes", .array [])]),
     ("slots", .array [.object [("location", .object [("Source", .integer 0)]),
       ("diff", .object [("changes", .array [.object [("Set", .array [.string "gain",
         .object [("type", .string "Float32"), ("value", .array [])]])]])])]])])])]

theorem tenth_read_back :
    tenth.IsWritable ∧ decode (encode tenth).normalize = some tenth ∧
      HoldsEmpty NetworkEvent hollow ∧ (decode hollow : Option NetworkEvent) = none := by
  have finite : (Binary.ofQuotient false 1 10 : Single).isFinite := by decide +kernel
  have name : Key.IsRead (.wellKnown .name) := ⟨"@name", by decide +kernel⟩
  have gain : Key.IsRead (.named "gain") := ⟨"gain", by decide +kernel⟩
  have writable : tenth.IsWritable := by
    refine ⟨List.forall_mem_singleton.mpr name, List.forall_mem_singleton.mpr ?_⟩
    refine ⟨Nat.two_pow_pos 64, List.forall_mem_singleton.mpr ⟨gain, ?_⟩⟩
    exact List.forall_mem_singleton.mpr finite
  have held : HoldsEmpty NetworkEvent hollow := by
    refine .record (.named (.tail _ (.head _))) ?_
    refine .slots (.named (.tail _ (.tail _ (.tail _ (.head _))))) (.list (.head _) ?_)
    refine .slotDiff (.named (.tail _ (.head _))) (.diff (.named (.head _)) (.list (.head _) ?_))
    exact .change (.value (.named (.tail _ (.head _))))
  exact ⟨writable, (documents_of_messages _).1 tenth writable (.inr rfl), held,
    (documents_of_messages hollow).2 _ held⟩

end SignalGraph
