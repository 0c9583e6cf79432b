import SignalGraph.Property.Table

/-! # Layers of property tables

What operations do to the confirmed layer of a table, key by key. Edits made here leave it alone
until they are pushed, and then put in their place what readers see.
-/

namespace SignalGraph

namespace Table

variable {t : Table} {key other : Key}

def Unique (t : Table) : Prop := (t.entries.map TableEntry.key).Nodup

def committed? (t : Table) (key : Key) : Option Value := (t.entry? key).bind TableEntry.committed

/-! ## Entries -/

theorem entry?_modify (t : Table) {f : TableEntry → TableEntry} (same : ∀ e, (f e).key = e.key)
    (key other : Key) : Table.entry? (t.modify key f) other =
      if key = other then (t.entry? other).map f else t.entry? other := by
  simp only [Table.entry?, modify]
  induction t.entries with
  | nil => simp
  | cons e rest ih => grind

theorem entry?_erase (t : Table) (key other : Key) :
    Table.entry? (t.erase key) other = if key = other then none else t.entry? other := by
  simp only [Table.entry?, erase]
  induction t.entries with
  | nil => simp
  | cons e rest ih => grind

theorem entry?_append (t : Table) (e : TableEntry) (key : Key) :
    Table.entry? (t.append e) key = (t.entry? key).or (if e.key = key then some e else none) := by
  simp only [Table.entry?, append, List.find?_append]
  by_cases same : e.key = key <;> simp [same]

/-- Where each key has one entry, entries can be worked on one by one. -/
theorem Unique.entry?_filterMap (unique : t.Unique) {f : TableEntry → Option TableEntry}
    (same : ∀ e e', f e = some e' → e'.key = e.key) (key : Key) :
    Table.entry? ⟨t.entries.filterMap f⟩ key = (t.entry? key).bind f := by
  obtain ⟨entries⟩ := t
  simp only [Table.entry?, Unique] at *
  induction entries with
  | nil => rfl
  | cons e rest ih =>
      obtain ⟨fresh, restUnique⟩ := List.nodup_cons.mp unique
      have absent (own : e.key = key) : rest.find? (fun e => e.key = key) = none := by
        refine List.find?_eq_none.mpr fun e' member => ?_
        have apart : e'.key ≠ e.key := fun same =>
          fresh (List.mem_map.mpr ⟨e', member, same⟩)
        simpa [own] using apart
      by_cases own : e.key = key
      · have later := ih restUnique
        rw [absent own, Option.bind_none] at later
        cases worked : f e with
        | none => simp [worked, own, later]
        | some e' => simp [worked, own, same e e' worked]
      · cases worked : f e with
        | none => simpa [worked, own] using ih restUnique
        | some e' => simpa [worked, own, same e e' worked] using ih restUnique

/-! ## Keys -/

theorem Unique.empty : Unique .empty := List.nodup_nil

/-! ## Properties that entries carry -/

/-- Whether a property of tables is kept where entries are worked on or left out, each under its own
    key, and where one is added whose key is new and of some sort. -/
structure Entrywise (K : Key → Prop) (T : Table → Prop) : Prop where
  filterMap {t : Table} {f : TableEntry → Option TableEntry} (own : T t)
    (same : ∀ e e', f e = some e' → e'.key = e.key) : T ⟨t.entries.filterMap f⟩
  append {t : Table} {e : TableEntry} (own : T t) (may : K e.key) (absent : t.entry? e.key = none) :
    T (t.append e)

theorem Unique.entrywise : Entrywise (fun _ => True) Unique where
  filterMap {t f} unique same := by
    have sublist : ((t.entries.filterMap f).map TableEntry.key).Sublist
        (t.entries.map TableEntry.key) := by
      induction t.entries with
      | nil => exact .slnil
      | cons e rest ih =>
          cases worked : f e with
          | none => simpa [worked] using ih.cons e.key
          | some e' => simpa [worked, same e e' worked] using ih.cons_cons e.key
    exact List.Nodup.sublist sublist unique
  append unique _ absent := by
    simp only [Unique, Table.append, List.map_append]
    refine List.nodup_append.mpr ⟨unique, by simp, ?_⟩
    rintro key member _ last rfl
    obtain ⟨e', among, own⟩ := List.mem_map.mp member
    have apart := List.find?_eq_none.mp absent e' among
    simp only [List.map_cons, List.map_nil, List.mem_singleton] at last
    exact apart (by simpa using own.trans last)

namespace Entrywise

variable {K : Key → Prop} {T : Table → Prop}

theorem modify (entrywise : Entrywise K T) (own : T t) {f : TableEntry → TableEntry}
    (same : ∀ e, (f e).key = e.key) (key : Key) : T (t.modify key f) := by
  have worked : t.modify key f =
      ⟨t.entries.filterMap fun e => some (if e.key = key then f e else e)⟩ :=
    congrArg Table.mk (congrFun List.filterMap_eq_map _).symm
  rw [worked]
  refine entrywise.filterMap own fun e e' made => ?_
  obtain rfl := Option.some.inj made
  split
  · exact same e
  · rfl

theorem erase (entrywise : Entrywise K T) (own : T t) (key : Key) : T (t.erase key) := by
  have worked : t.erase key = ⟨t.entries.filterMap (Option.guard fun e => e.key ≠ key)⟩ :=
    congrArg Table.mk (congrFun List.filterMap_eq_filter _).symm
  rw [worked]
  refine entrywise.filterMap own fun e e' kept => ?_
  rw [(Option.guard_eq_some_iff.mp kept).1]

end Entrywise

/-! ## The confirmed layer -/

theorem committed?_modify (t : Table) {f : TableEntry → TableEntry}
    (same : ∀ e, (f e).key = e.key) (key other : Key) : (t.modify key f).committed? other =
      if key = other then (t.entry? other).bind fun e => (f e).committed
      else t.committed? other := by
  simp only [committed?, entry?_modify t same]
  split
  · exact Option.bind_map
  · rfl

theorem committed?_modify_of_eq (t : Table) {f : TableEntry → TableEntry}
    (same : ∀ e, (f e).key = e.key) (stays : ∀ e, (f e).committed = e.committed) (key other : Key) :
    (t.modify key f).committed? other = t.committed? other := by
  simp only [committed?_modify t same, stays]
  split
  · rfl
  · rfl

theorem committed?_erase (unconfirmed : t.committed? key = none) (other : Key) :
    (t.erase key).committed? other = t.committed? other := by
  rw [committed?, entry?_erase]
  split
  · rename_i same
    exact (same ▸ unconfirmed).symm
  · rfl

theorem committed?_append {e : TableEntry} (absent : t.entry? e.key = none) (key : Key) :
    (t.append e).committed? key = if e.key = key then e.committed else t.committed? key := by
  rw [committed?, entry?_append]
  split
  · rename_i same
    rw [← same, absent]
    rfl
  · rw [Option.or_none, committed?]

theorem key_of_commit? (e e' : TableEntry) (done : e.commit? = some e') : e'.key = e.key := by
  simp only [TableEntry.commit?] at done
  split at done
  · exact Option.some.inj done ▸ rfl
  · cases done

theorem key_of_revert? (e e' : TableEntry) (done : e.revert? = some e') : e'.key = e.key := by
  simp only [TableEntry.revert?] at done
  split at done
  · exact Option.some.inj done ▸ rfl
  · cases done

/-- Once edits are pushed, what readers see is confirmed. -/
theorem Unique.committed?_commitStaged (unique : t.Unique) (key : Key) :
    t.commitStaged.committed? key = t.get? key := by
  rw [committed?, commitStaged, unique.entry?_filterMap key_of_commit?, get?, Option.bind_assoc]
  apply congrArg
  funext e
  simp only [TableEntry.commit?, TableEntry.visible?]
  cases e.removed <;> cases visible : (e.staged <|> e.committed) <;> simp

theorem Entrywise.commitStaged {K : Key → Prop} {T : Table → Prop} (entrywise : Entrywise K T)
    (own : T t) : T t.commitStaged :=
  entrywise.filterMap own key_of_commit?

/-! ## Writes -/

theorem applyChange_set (t : Table) (key : Key) (v : Value) :
    (t.applyChange (.set key v)).1 = (apply key v).after t := by
  simp only [applyChange, Attempt.after]
  cases apply key v t <;> rfl

theorem applyDiff_fst (t : Table) (d : Diff) :
    (t.applyDiff d).1 = d.changes.foldl (fun t c => (t.applyChange c).1) t := by
  have all (changes : List Change) (x : Table × Bool) :
      (changes.foldl (fun (x : Table × Bool) c =>
        ((x.1.applyChange c).1, x.2 || (x.1.applyChange c).2)) x).1 =
        changes.foldl (fun t c => (t.applyChange c).1) x.1 := by
    induction changes generalizing x with
    | nil => rfl
    | cons c rest ih => exact ih _
  exact all d.changes (t, false)

section Entrywise

variable {K : Key → Prop} {T : Table → Prop} (entrywise : Entrywise K T) (own : T t)

include entrywise own

theorem Entrywise.apply (may : K key) (v : Value) : T ((Table.apply key v).after t) := by
  simp only [Table.apply, Attempt.after_bind, Attempt.current_apply]
  cases key.validate v with
  | error e => exact own
  | ok _ =>
      simp only [Attempt.demand_ok]
      cases found : t.entry? key with
      | none => exact entrywise.append (e := ⟨key, some v, none, false⟩) own may found
      | some e =>
          have kept := entrywise.modify own (f := ({ · with removed := false })) (fun _ => rfl) key
          simp only [Attempt.after_bind, Attempt.change_apply]
          split
          · exact kept
          · exact entrywise.modify kept (f := ({ · with committed := some v })) (fun _ => rfl) key

theorem Entrywise.applyRemoval (key : Key) : T (t.applyRemoval key).1 := by
  simp only [Table.applyRemoval]
  split
  · exact own
  · split
    · exact entrywise.modify own (f := ({ · with committed := none, removed := false }))
        (fun _ => rfl) key
    · exact entrywise.erase own key

theorem Entrywise.applyChange {c : Change} (may : K c.key) : T (t.applyChange c).1 := by
  cases c with
  | set key v => exact applyChange_set t key v ▸ entrywise.apply own may v
  | remove key => exact entrywise.applyRemoval own key

theorem Entrywise.applyDiff {d : Diff} (may : ∀ c ∈ d.changes, K c.key) : T (t.applyDiff d).1 := by
  rw [applyDiff_fst]
  exact List.foldlRecOn d.changes _ (motive := T) own fun t own c member =>
    entrywise.applyChange own (may c member)

theorem Entrywise.set (may : K key) (v : Value) : T ((Table.set key v).after t) := by
  simp only [Table.set, Attempt.after_bind]
  cases key.validate v with
  | error e => exact own
  | ok _ =>
      simp only [Attempt.demand_ok, Attempt.after, Attempt.change_apply]
      split
      · exact entrywise.modify own (f := ({ · with staged := some v, removed := false }))
          (fun _ => rfl) key
      · rename_i absent
        exact entrywise.append own may absent

theorem Entrywise.remove (key : Key) : T ((Table.remove key).after t) := by
  simp only [Table.remove, Attempt.after_bind, Attempt.current_apply]
  cases t.get key with
  | error e => exact own
  | ok v =>
      simp only [Attempt.demand_ok, Attempt.change_apply, Attempt.after, Attempt.pure_apply]
      split
      · exact entrywise.modify own (f := ({ · with staged := none, removed := true }))
          (fun _ => rfl) key
      · exact entrywise.erase own key

end Entrywise

/-- A value that the catalogue allows is confirmed, if it is not equal to what was; the others
    stay. -/
theorem committed?_apply {v : Value} (allowed : key.validate v = .ok ()) (t : Table) :
    ∃ w, (w = v ∨ w.eqv v) ∧ ∀ other, ((apply key v).after t).committed? other =
      if key = other then some w else t.committed? other := by
  simp only [apply, Attempt.after_bind, Attempt.current_apply, allowed, Attempt.demand_ok]
  cases found : t.entry? key with
  | none => exact ⟨v, .inl rfl, committed?_append (e := ⟨key, some v, none, false⟩) found⟩
  | some e =>
      have kept := t.committed?_modify_of_eq (f := ({ · with removed := false })) (fun _ => rfl)
        (fun _ => rfl) key
      simp only [Attempt.after_bind, Attempt.change_apply]
      split
      · rename_i same
        obtain ⟨w, confirmed, eqv⟩ := (Option.any_eq_true ..).mp same
        refine ⟨w, .inr eqv, fun other => (kept other).trans ?_⟩
        split
        · rename_i here
          rw [← here, committed?, found, Option.bind_some, confirmed]
        · rfl
      · refine ⟨v, .inl rfl, ?_⟩
        intro other
        rw [Attempt.after_bind, Attempt.change_apply]
        refine (committed?_modify _ (f := ({ · with committed := some v }))
          (fun _ => rfl) ..).trans ?_
        split
        · rename_i here
          rw [entry?_modify t (f := ({ · with removed := false })) fun _ => rfl, if_pos here,
            ← here, found]
          rfl
        · exact kept other

theorem committed?_applyRemoval (t : Table) (key other : Key) :
    (t.applyRemoval key).1.committed? other =
      if key = other then none else t.committed? other := by
  simp only [applyRemoval]
  split
  · rename_i absent
    split
    · rename_i here
      rw [← here, committed?, absent, Option.bind_none]
    · rfl
  · split
    · refine (t.committed?_modify (f := ({ · with committed := none, removed := false }))
        (fun _ => rfl) ..).trans ?_
      rw [Option.bind_fun_none]
    · rw [committed?, entry?_erase]
      split
      · rfl
      · rfl

end Table

/-! ## Identities -/

theorem Value.eq_of_eqvScalars {β : Type} {f : β → Scalar}
    (exact : ∀ a b, (f a).eqv (f b) → a = b) {xs ys : List β}
    (eqv : Value.eqvScalars (xs.map f) (ys.map f)) : xs = ys := by
  induction xs generalizing ys with
  | nil =>
      cases ys with
      | nil => rfl
      | cons y ys => cases eqv
  | cons x xs ih =>
      cases ys with
      | nil => cases eqv
      | cons y ys =>
          obtain ⟨first, others⟩ := (Bool.and_eq_true _ _).mp eqv
          rw [exact x y first, ih others]

theorem Value.toIds?_of_eqv {v w : Value} (eqv : v.eqv w) : v.toIds? = w.toIds? := by
  obtain ⟨kind, same⟩ := (Bool.and_eq_true _ _).mp eqv
  suffices v.toInt64s? = w.toInt64s? from congrArg (Option.map _) this
  obtain ⟨v, validV⟩ := v
  obtain ⟨w, validW⟩ := w
  simp only [Value.scalars, Value.toInt64s?] at same ⊢
  cases v <;> cases w <;>
    simp only [Value.kind, Payload.kind, beq_iff_eq, reduceCtorEq] at kind <;>
    simp only [Payload.scalars] at same
  case int32 xs ys => rw [eq_of_eqvScalars (by simp [Scalar.eqv]) same]
  case int64 xs ys => rw [eq_of_eqvScalars (by simp [Scalar.eqv]) same]
  all_goals rfl

/-- The confirmed identities of a relation, once a change has come that may be about it. -/
def Change.settle (p : Property) (c : Change) (ids : Option (List ObjectId)) :
    Option (List ObjectId) :=
  match c with
  | .set key v => if key = .wellKnown p ∧ (p.validate v).isOk then v.toIds? else ids
  | .remove key => if key = .wellKnown p then none else ids

/-- The confirmed identities of a relation, once all changes of a diff have come in order. -/
def Diff.settle (p : Property) (d : Diff) (ids : Option (List ObjectId)) :
    Option (List ObjectId) :=
  d.changes.foldl (fun ids c => c.settle p ids) ids

namespace Table

variable {t : Table}

/-- The identities that the network has confirmed for a relation. -/
def ids? (t : Table) (p : Property) : Option (List ObjectId) :=
  (t.committed? (.wellKnown p)).bind Value.toIds?

def seenIds? (t : Table) (p : Property) : Option (List ObjectId) :=
  (t.get? (.wellKnown p)).bind Value.toIds?

theorem ids?_applyChange (t : Table) (p : Property) (c : Change) :
    (t.applyChange c).1.ids? p = c.settle p (t.ids? p) := by
  cases c with
  | set key v =>
      rw [applyChange_set, Change.settle]
      cases allowed : key.validate v with
      | error e =>
          have refused : (apply key v).after t = t := by
            simp only [apply, Attempt.after_bind, allowed, demand]
          rw [refused, if_neg]
          rintro ⟨rfl, valid⟩
          rw [Key.validate] at allowed
          simp [allowed, Except.isOk, Except.toBool] at valid
      | ok _ =>
          obtain ⟨w, same, committed⟩ := committed?_apply allowed t
          rw [ids?, committed]
          split
          · rename_i here
            subst here
            have valid : (p.validate v).isOk := by
              rw [Key.validate] at allowed
              simp [allowed, Except.isOk, Except.toBool]
            rw [if_pos ⟨rfl, valid⟩, Option.bind_some]
            rcases same with rfl | eqv
            · rfl
            · exact Value.toIds?_of_eqv eqv
          · rename_i different
            rw [if_neg fun here => different here.1, ids?]
  | remove key =>
      rw [applyChange, ids?, committed?_applyRemoval, Change.settle]
      split
      · rfl
      · rfl

theorem ids?_applyDiff (t : Table) (p : Property) (d : Diff) :
    (t.applyDiff d).1.ids? p = d.settle p (t.ids? p) := by
  rw [applyDiff_fst, Diff.settle]
  induction d.changes generalizing t with
  | nil => rfl
  | cons c rest ih =>
      rw [List.foldl_cons, List.foldl_cons, ih, ids?_applyChange]

theorem Unique.ids?_commitStaged (unique : t.Unique) (p : Property) :
    t.commitStaged.ids? p = t.seenIds? p := by
  rw [ids?, unique.committed?_commitStaged, seenIds?]

end Table

/-! ## Edits made here -/

/-- What can be done to a table here: edits that stay here, taking them back, and pushing them. -/
inductive TableEdit where
  | set (key : Key) (value : Value)
  | remove (key : Key)
  | discard
  | push (send : Diff → Except Error Unit)

namespace TableEdit

variable {t : Table}

def action : TableEdit → Attempt Table Unit
  | set key value => Table.set key value
  | remove key => do let _ ← Table.remove key
  | discard => Attempt.change Table.discardStaged
  | push send => do let _ ← Table.push send

/-- Whether an edit has what was staged confirmed: it pushes something, and that is taken. -/
def confirms (t : Table) : TableEdit → Bool
  | push send => !t.stagedDiff.isEmpty && (send t.stagedDiff).isOk
  | set _ _ | remove _ | discard => false

/-- Whether a table differs from another in edits only. -/
structure Keeps (t edited : Table) : Prop where
  unique : edited.Unique
  committed : ∀ key, edited.committed? key = t.committed? key

theorem Keeps.refl (unique : t.Unique) : Keeps t t := ⟨unique, fun _ => rfl⟩

theorem set_keeps (unique : t.Unique) (key : Key) (v : Value) :
    Keeps t ((Table.set key v).after t) := by
  refine ⟨Table.Unique.entrywise.set unique trivial v, ?_⟩
  simp only [Table.set, Attempt.after_bind]
  cases key.validate v with
  | error e => exact fun _ => rfl
  | ok _ =>
      simp only [Attempt.demand_ok, Attempt.after, Attempt.change_apply]
      split
      · refine t.committed?_modify_of_eq ?_ ?_ key <;> exact fun _ => rfl
      · rename_i absent
        intro other
        rw [Table.committed?_append absent]
        split
        · rename_i same
          rw [← same, Table.committed?, absent]
          rfl
        · rfl

theorem remove_keeps (unique : t.Unique) (key : Key) : Keeps t ((Table.remove key).after t) := by
  refine ⟨Table.Unique.entrywise.remove unique key, ?_⟩
  simp only [Table.remove, Attempt.after_bind, Attempt.current_apply]
  cases t.get key with
  | error e => exact fun _ => rfl
  | ok v =>
      simp only [Attempt.demand_ok, Attempt.change_apply, Attempt.after, Attempt.pure_apply]
      split
      · refine t.committed?_modify_of_eq ?_ ?_ key <;> exact fun _ => rfl
      · rename_i unconfirmed
        refine Table.committed?_erase ?_
        cases found : t.entry? key with
        | none => simp [Table.committed?, found]
        | some e =>
            obtain ⟨k, committed, staged, removed⟩ := e
            cases committed with
            | none => simp [Table.committed?, found]
            | some w => exact absurd found (unconfirmed k w staged removed)

theorem discard_keeps (unique : t.Unique) : Keeps t t.discardStaged := by
  refine ⟨Table.Unique.entrywise.filterMap unique Table.key_of_revert?, ?_⟩
  intro key
  rw [Table.committed?, Table.discardStaged, unique.entry?_filterMap Table.key_of_revert?,
    Option.bind_assoc]
  apply congrArg
  funext e
  simp only [TableEntry.revert?]
  cases e.committed <;> simp

theorem after_push (t : Table) (send : Diff → Except Error Unit) :
    (Table.push send).after t = if (push send).confirms t then t.commitStaged else t := by
  have confirmed : (push send).confirms t =
      (!t.stagedDiff.isEmpty && (send t.stagedDiff).isOk) := rfl
  rw [confirmed]
  simp only [Table.push, Attempt.after_bind, Attempt.current_apply]
  cases t.stagedDiff.isEmpty with
  | true => rfl
  | false =>
      simp only [Bool.false_eq_true, ↓reduceIte, Attempt.after_bind]
      cases send t.stagedDiff with
      | error e => rfl
      | ok _ => rfl

/-- An edit that confirms nothing keeps the confirmed layer. -/
theorem keeps (unique : t.Unique) (edit : TableEdit) (here : edit.confirms t = false) :
    Keeps t (edit.action.after t) := by
  cases edit with
  | set key v => exact set_keeps unique key v
  | remove key =>
      rw [action, Attempt.after_bind_pure]
      exact remove_keeps unique key
  | discard => exact discard_keeps unique
  | push send =>
      rw [action, Attempt.after_bind_pure, after_push, here]
      exact .refl unique

theorem after_of_confirms (edit : TableEdit) (confirms : edit.confirms t) :
    edit.action.after t = t.commitStaged := by
  cases edit with
  | set | remove | discard => cases confirms
  | push send => rw [action, Attempt.after_bind_pure, after_push, if_pos confirms]

theorem unique (unique : t.Unique) (edit : TableEdit) : (edit.action.after t).Unique := by
  cases confirms : edit.confirms t with
  | false => exact (keeps unique edit confirms).unique
  | true => exact after_of_confirms edit confirms ▸ Table.Unique.entrywise.commitStaged unique

theorem ids?_after (unique : t.Unique) (edit : TableEdit) (p : Property) :
    (edit.action.after t).ids? p = if edit.confirms t then t.seenIds? p else t.ids? p := by
  split
  · rename_i confirms
    rw [after_of_confirms edit confirms, unique.ids?_commitStaged]
  · rename_i here
    rw [Table.ids?, (keeps unique edit (Bool.eq_false_iff.mpr here)).committed, Table.ids?]

end TableEdit

end SignalGraph
