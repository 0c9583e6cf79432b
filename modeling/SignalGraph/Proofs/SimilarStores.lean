import SignalGraph.Proofs.Reference

/-! # Stores with the same live objects

Two stores are alike if the same objects are there, with the same records in the same order. What
else they hold, of objects gone, may differ. Whatever is done to both leaves them alike, as long as
it does not bring back what is gone.
-/

namespace SignalGraph

namespace Store

/-- The record of an object that is there. -/
def live? (s : Store) (id : ObjectId) : Option Record := (s.find? id).filter Record.isLive

/-- The identities of those objects of a kind that are there, in order. -/
def liveIds (s : Store) (kind : ObjectKind) : List ObjectId :=
  (s.order.get kind).filter fun id => (s.live? id).isSome

variable {s t u : Store} {id other : ObjectId} {kind : ObjectKind} {r : Record}

theorem live?_eq_some_iff : s.live? id = some r ↔ s.find? id = some r ∧ r.isLive :=
  Option.filter_eq_some_iff

theorem live?_eq_none_iff : s.live? id = none ↔ s.IsVacant id := by
  simp only [live?, Option.filter_eq_none_iff, IsVacant, Bool.not_eq_true]

theorem live?_of_kind_iff : s.live? id = some r ∧ r.kind = kind ↔
    s.find? id = some r ∧ r.kind = kind ∧ r.isLive := by
  rw [live?_eq_some_iff, and_right_comm, and_assoc]

theorem hasLive_iff_live? : s.HasLive id kind ↔ ∃ r, s.live? id = some r ∧ r.kind = kind :=
  exists_congr fun _ => live?_of_kind_iff.symm

theorem live_eq_filterMap (s : Store) (kind : ObjectKind) :
    s.live kind = (s.liveIds kind).filterMap s.live? := by
  simp only [live, ofKind, liveIds, List.filter_filterMap, List.filterMap_filter]
  refine List.filterMap_congr fun id _ => ?_
  change s.live? id = _
  cases s.live? id <;> rfl

/-- Only what is live can stand in the way of a device. -/
theorem checkDevice_eq (s : Store) (owner id : ObjectId) : s.checkDevice owner id =
    if id = owner then .error (.malformed (.selfReference owner))
    else match s.live? id with
      | some r => if r.kind ≠ .device then .error (.malformed (.notDevice id r.kind)) else .ok ()
      | none => .ok () := by
  rw [checkDevice, live?]
  congr 1
  cases s.find? id with
  | none => rfl
  | some r => cases live : r.isLive <;> simp [Option.filter, live]

/-! ## What is done to a store -/

/-- Dropping what is not there takes nothing live away. -/
theorem live?_drop (gone : s.live? id = none) (kind : ObjectKind) (other : ObjectId) :
    (s.drop id kind).live? other = s.live? other := by
  simp only [live?, find?_drop]
  split
  · rename_i here
    exact (here ▸ gone).symm
  · rfl

theorem liveIds_drop (gone : s.live? id = none) (kind other : ObjectKind) :
    (s.drop id kind).liveIds other = s.liveIds other := by
  simp only [liveIds, live?_drop gone, order_drop]
  split
  · rw [List.filter_filter]
    refine List.filter_congr fun key _ => ?_
    by_cases here : key = id
    · simp [here, gone]
    · simp [here]
  · rfl

/-- A change that brings nothing back is felt by what is live alone. -/
theorem live?_modify {f : Record → Record}
    (fades : ∀ r, s.find? id = some r → r.frame.Fades (f r).frame) (other : ObjectId) :
    (s.modify id f).live? other =
      if id = other then ((s.live? id).map f).filter Record.isLive else s.live? other := by
  simp only [live?, find?_modify]
  split
  · cases held : s.find? id with
    | none => rfl
    | some r =>
        have stays : (f r).isLive → r.isLive := (fades r held).isLive
        cases live : r.isLive <;> cases now : (f r).isLive <;> simp_all [Option.filter]
  · rfl

theorem liveIds_modify {f : Record → Record}
    (fades : ∀ r, s.find? id = some r → r.frame.Fades (f r).frame) (kind : ObjectKind) :
    (s.modify id f).liveIds kind =
      (s.liveIds kind).filter fun other => ((s.modify id f).live? other).isSome := by
  simp only [liveIds, order_modify, List.filter_filter]
  refine List.filter_congr fun other _ => ?_
  simp only [live?_modify fades]
  split
  · rename_i here
    subst here
    cases s.live? id <;> simp
  · simp

/-- A new record in place of none, or of that of an object gone. -/
theorem live?_found (live : r.isLive) (other : ObjectId) :
    ((s.discard r.id).insert r).live? other =
      if r.id = other then some r else s.live? other := by
  simp only [live?, find?_insert, find?_discard]
  split
  · simp [live]
  · rfl

theorem liveIds_found (indexed : s.Indexed) (vacant : s.IsVacant r.id) (live : r.isLive)
    (kind : ObjectKind) : ((s.discard r.id).insert r).liveIds kind =
      s.liveIds kind ++ if kind = r.kind then [r.id] else [] := by
  have before : ((s.order.get kind).filter (· ≠ r.id)).filter
      (fun id => (((s.discard r.id).insert r).live? id).isSome) = s.liveIds kind := by
    rw [List.filter_filter]
    refine List.filter_congr fun id _ => ?_
    by_cases here : r.id = id
    · simp [← here, live?_eq_none_iff.mpr vacant]
    · simp [live?_found live, here, Ne.symm here]
  have order : ((s.discard r.id).insert r).order.get kind =
      (s.order.get kind).filter (· ≠ r.id) ++ if kind = r.kind then [r.id] else [] := by
    rw [order_insert, indexed.order_discard]
    split
    · rfl
    · exact (List.append_nil _).symm
  rw [liveIds, order, List.filter_append, before]
  congr 1
  split
  · simp [live?_found live]
  · rfl

/-! ## Likeness -/

/-- Whether two stores, each with its index, hold the same of all objects that are there, and also
    of those that the live records need. These may be gone already, in the middle of a removal, and
    what depends on a link is found through them. -/
structure Alike (s t : Store) : Prop where
  left : s.Indexed
  right : t.Indexed
  live : ∀ id, t.live? id = s.live? id
  order : ∀ kind, t.liveIds kind = s.liveIds kind
  needs : ∀ id r, s.live? id = some r → ∀ need ∈ r.wiring.ties.needs,
    t.find? need.1 = s.find? need.1

namespace Alike

theorem refl (indexed : s.Indexed) : Alike s s :=
  ⟨indexed, indexed, fun _ => rfl, fun _ => rfl, fun _ _ _ _ _ => rfl⟩

theorem trans (first : Alike s t) (second : Alike t u) : Alike s u := by
  refine ⟨first.left, second.right, fun id => (second.live id).trans (first.live id),
    fun kind => (second.order kind).trans (first.order kind), ?_⟩
  intro id r live need member
  have there : t.live? id = some r := (first.live id).trans live
  exact (second.needs id r there need member).trans (first.needs id r live need member)

theorem find? (alike : Alike s t) (live : s.live? id = some r) : t.find? id = s.find? id :=
  (live?_eq_some_iff.mp ((alike.live id).trans live)).1.trans (live?_eq_some_iff.mp live).1.symm

theorem live_eq (alike : Alike s t) (kind : ObjectKind) : t.live kind = s.live kind := by
  rw [live_eq_filterMap, live_eq_filterMap, alike.order, funext alike.live]

theorem hasLive_iff (alike : Alike s t) : t.HasLive id kind ↔ s.HasLive id kind := by
  rw [hasLive_iff_live?, hasLive_iff_live?, alike.live]

theorem isVacant_iff (alike : Alike s t) : t.IsVacant id ↔ s.IsVacant id := by
  rw [← live?_eq_none_iff, ← live?_eq_none_iff, alike.live]

/-- Nothing that is there lacks anything in a store if nothing does in one alike. -/
theorem sound (alike : Alike s t) (sound : s.Sound []) : t.Sound [] := by
  intro id f held live need member
  obtain ⟨r, found, rfl⟩ := outline_eq_some_iff.mp held
  have there : s.live? id = some r :=
    (alike.live id).symm.trans (live?_eq_some_iff.mpr ⟨found, live⟩)
  have before := outline_of_find? (live?_eq_some_iff.mp there).1
  exact (sound id r.frame before live need member).imp_left alike.hasLive_iff.mpr

/-- What is held of an object that is there can be changed, if it is the same object after. -/
theorem modify_of_fades (alike : Alike s t) {f : Record → Record}
    (here : ∀ r, s.find? id = some r → r.frame.Fades (f r).frame)
    (there : ∀ r, t.find? id = some r → r.frame.Fades (f r).frame) :
    Alike (s.modify id f) (t.modify id f) := by
  have live (other : ObjectId) : (t.modify id f).live? other = (s.modify id f).live? other := by
    simp only [live?_modify here, live?_modify there, alike.live]
  refine ⟨alike.left.fades (.ofModify here), alike.right.fades (.ofModify there), live, ?_, ?_⟩
  · intro kind
    rw [liveIds_modify here, liveIds_modify there, alike.order, funext live]
  · intro owner r' held need member
    -- Whoever needs something needed it before.
    have same : t.find? need.1 = s.find? need.1 := by
      rw [live?_modify here] at held
      split at held
      · rename_i own
        obtain ⟨changed, -⟩ := Option.filter_eq_some_iff.mp held
        obtain ⟨r, was, rfl⟩ := Option.map_eq_some_iff.mp changed
        have ties : (f r).wiring.ties = r.wiring.ties :=
          (here r (live?_eq_some_iff.mp was).1).ties
        exact alike.needs id r was need (ties ▸ member)
      · exact alike.needs owner r' held need member
    rw [find?_modify, find?_modify, same]
    split
    · rename_i own
      rw [own, same]
    · rfl

theorem modify_of_live (alike : Alike s t) {f : Record → Record} (live : s.live? id = some r)
    (fades : r.frame.Fades (f r).frame) : Alike (s.modify id f) (t.modify id f) := by
  have held := (live?_eq_some_iff.mp live).1
  have here : ∀ r, s.find? id = some r → r.frame.Fades (f r).frame := fun r' held' =>
    Option.some.inj (held.symm.trans held') ▸ fades
  exact alike.modify_of_fades here fun r' held' => here r' ((alike.find? live).symm.trans held')

/-- A new record can be made of an object that is not there. -/
theorem found (alike : Alike s t) (vacant : s.IsVacant r.id) (live : r.isLive)
    (fits : ∀ need ∈ r.wiring.ties.needs, s.HasLive need.1 need.2) :
    Alike ((s.discard r.id).insert r) ((t.discard r.id).insert r) := by
  have free (s : Store) : (s.discard r.id).find? r.id = none := by simp [find?_discard]
  refine ⟨(alike.left.discard r.id).insert (free s), (alike.right.discard r.id).insert (free t),
    ?_, ?_, ?_⟩
  · intro id
    rw [live?_found live, live?_found live, alike.live]
  · intro kind
    rw [liveIds_found alike.right (alike.isVacant_iff.mpr vacant) live,
      liveIds_found alike.left vacant live, alike.order]
  · intro owner r' held need member
    have same : t.find? need.1 = s.find? need.1 := by
      rw [live?_found live] at held
      split at held
      · obtain rfl := Option.some.inj held
        obtain ⟨needed, there, -⟩ := hasLive_iff_live?.mp (fits need member)
        exact alike.find? there
      · exact alike.needs owner r' held need member
    simp only [find?_insert, find?_discard, same]

/-- Records of objects gone can be let go of. -/
theorem dropAll {rs : List Record} (indexed : s.Indexed) (sound : s.Sound [])
    (gone : ∀ r ∈ rs, s.find? r.id = some r ∧ r.isLive = false) : Alike s (s.dropAll rs) := by
  have vacant : ∀ r ∈ rs, s.live? r.id = none := fun r member =>
    live?_eq_none_iff.mpr fun r' held =>
      Option.some.inj ((gone r member).1.symm.trans held) ▸ (gone r member).2
  have kept : (∀ id, (s.dropAll rs).live? id = s.live? id) ∧
      ∀ kind, (s.dropAll rs).liveIds kind = s.liveIds kind := by
    clear gone sound indexed
    induction rs generalizing s with
    | nil => exact ⟨fun _ => rfl, fun _ => rfl⟩
    | cons r rs ih =>
        have first := vacant r List.mem_cons_self
        obtain ⟨live, order⟩ := ih (s := s.drop r.id r.kind) fun r' member =>
          (live?_drop first r.kind r'.id).trans (vacant r' (List.mem_cons_of_mem r member))
        exact ⟨fun id => (live id).trans (live?_drop first r.kind id),
          fun kind => (order kind).trans (liveIds_drop first r.kind kind)⟩
  refine ⟨indexed, indexed.dropAll ?_, kept.1, kept.2, ?_⟩
  · intro r member r' held
    exact Option.some.inj ((gone r member).1.symm.trans held) ▸ rfl
  · intro id r live need member
    obtain ⟨held, alive⟩ := live?_eq_some_iff.mp live
    have there := (sound id r.frame (outline_of_find? held) alive need member).resolve_right
      List.not_mem_nil
    obtain ⟨needed, found, -⟩ := hasLive_iff_live?.mp there
    exact (live?_eq_some_iff.mp ((kept.1 need.1).trans found)).1.trans
      (live?_eq_some_iff.mp found).1.symm

/-! ## Lookups -/

theorem checkDevice (alike : Alike s t) (owner id : ObjectId) :
    t.checkDevice owner id = s.checkDevice owner id := by
  rw [checkDevice_eq, checkDevice_eq, alike.live]

theorem getLive_iff (alike : Alike s t) (r : Record) :
    t.getLive id kind = .ok r ↔ s.getLive id kind = .ok r := by
  rw [getLive_eq_ok_iff, getLive_eq_ok_iff, ← live?_of_kind_iff, ← live?_of_kind_iff, alike.live]

theorem checkMapEnds_iff (alike : Alike s t) (config : Config) (sources : List ObjectId)
    (destination : ObjectId) : t.checkMapEnds config sources destination = .ok () ↔
      s.checkMapEnds config sources destination = .ok () := by
  simp only [checkMapEnds_eq_ok_iff, alike.hasLive_iff]

theorem mapDevices (alike : Alike s t) {map : Record} (live : s.live? id = some map) :
    t.mapDevices map = s.mapDevices map := by
  refine List.filterMap_congr fun signal member => ?_
  obtain ⟨sources, destination, ties, among⟩ := (map.mem_mapSignals_iff signal).mp member
  have need : (signal, ObjectKind.signal) ∈ map.wiring.ties.needs :=
    ties ▸ List.mem_map_of_mem among
  rw [alike.needs id map live _ need]

/-- The same records depend on an object of which both stores hold the same. -/
theorem dependents (alike : Alike s t) (same : t.find? id = s.find? id) (kind : ObjectKind) :
    t.dependents id kind = s.dependents id kind := by
  cases kind with
  | device | signal | map => simp only [Store.dependents, alike.live_eq]
  | link =>
      simp only [Store.dependents, same, alike.live_eq]
      split
      · congr 1
        refine List.filter_congr fun map member => ?_
        obtain ⟨held, -, live⟩ := alike.left.mem_live_iff.mp member
        rw [alike.mapDevices (live?_eq_some_iff.mpr ⟨held, live⟩)]
      · rfl

end Alike

end Store

end SignalGraph
