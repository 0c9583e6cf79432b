import SignalGraph.Proofs.Restatement

/-! # Entries under diffs that come again

What a table holds of a key once changes have come, and that it holds the same once they have come
again, whether or not it finds that something changed on the way.
-/

namespace SignalGraph

namespace Change

/-- Whether there are two values and they are equal. -/
def Meets (x y : Option Value) : Prop := ∃ u v, x = some u ∧ y = some v ∧ u.eqv v

theorem Meets.symm {x y : Option Value} (meets : Meets x y) : Meets y x := by
  obtain ⟨u, v, rfl, rfl, same⟩ := meets
  exact ⟨v, u, rfl, rfl, Value.eqv_symm same⟩

theorem Meets.trans {x y z : Option Value} (meets : Meets x y) (next : Meets y z) : Meets x z := by
  obtain ⟨u, v, rfl, rfl, same⟩ := meets
  obtain ⟨v', w, same', rfl, same''⟩ := next
  obtain rfl := Option.some.inj same'
  exact ⟨u, w, rfl, rfl, Value.eqv_trans same same''⟩

/-- What is confirmed for a key once a change has come that may be about it. -/
def confirm (key : Key) (x : Option Value) (c : Change) : Option Value :=
  if c.key = key then
    match c with
    | .set k v => if (k.validate v).isOk then some (Layers.renew v x) else x
    | .remove _ => none
  else x

theorem renew_of_meets {x : Option Value} {v : Value} (meets : Meets x (some v)) :
    some (Layers.renew v x) = x := by
  obtain ⟨u, v', rfl, same', same⟩ := meets
  obtain rfl := Option.some.inj same'
  exact congrArg some (if_pos same)

theorem renew_of_not_meets {x : Option Value} {v : Value} (apart : ¬ Meets x (some v)) :
    Layers.renew v x = v := by
  cases x with
  | none => rfl
  | some u => exact if_neg fun same => apart ⟨u, v, rfl, rfl, same⟩

/-- A change does to what is confirmed for a key one of three things, whatever that is. -/
theorem confirm_cases (key : Key) (c : Change) :
    (∀ x, c.confirm key x = x) ∨ (∀ x, c.confirm key x = none) ∨
      ∃ v, ∀ x, c.confirm key x = some (Layers.renew v x) := by
  cases c with
  | set k v =>
      by_cases own : k = key
      · cases allowed : (k.validate v).isOk with
        | false => exact .inl fun x => by simp [confirm, allowed]
        | true => exact .inr (.inr ⟨v, fun x => by
            rw [confirm, if_pos (show (Change.set k v).key = key from own)]
            exact if_pos allowed⟩)
      · exact .inl fun x => if_neg own
  | remove k =>
      by_cases own : k = key
      · exact .inr (.inl fun x => if_pos own)
      · exact .inl fun x => if_neg own

/-- What comes of changes from one state also comes of them from a second, if the second is the
    first, or what is to come, or equal to the first where that is not to come. -/
theorem foldl_confirm_of_related (key : Key) (cs : List Change) {x y w : Option Value}
    (comes : cs.foldl (confirm key) x = w)
    (related : y = x ∨ y = w ∨ (Meets x y ∧ ¬ Meets w x)) : cs.foldl (confirm key) y = w := by
  induction cs generalizing x y with
  | nil =>
      obtain rfl : x = w := comes
      rcases related with rfl | rfl | ⟨meets, apart⟩
      · rfl
      · rfl
      · exact absurd (meets.trans meets.symm) apart
  | cons c cs ih =>
      rw [List.foldl_cons] at comes ⊢
      refine ih comes ?_
      rcases confirm_cases key c with same | gone | ⟨v, renews⟩
      · rwa [same, same]
      · exact .inl (by rw [gone, gone])
      · rw [renews, renews]
        -- The value is kept where it is equal to what is there, which need not be so of both states.
        by_cases keepsX : Meets x (some v) <;> by_cases keepsY : Meets y (some v)
        · rwa [renew_of_meets keepsX, renew_of_meets keepsY]
        · rcases related with rfl | rfl | ⟨meets, -⟩
          · exact absurd keepsX keepsY
          · rw [renew_of_meets keepsX, renew_of_not_meets keepsY]
            exact .inr (.inr ⟨keepsX, fun meets => keepsY (meets.trans keepsX)⟩)
          · exact absurd (meets.symm.trans keepsX) keepsY
        · rcases related with rfl | rfl | ⟨meets, -⟩
          · exact absurd keepsY keepsX
          · rw [renew_of_meets keepsY]
            exact .inr (.inl rfl)
          · exact absurd (meets.trans keepsY) keepsX
        · rw [renew_of_not_meets keepsX, renew_of_not_meets keepsY]
          exact .inl rfl

theorem foldl_confirm_twice (key : Key) (cs : List Change) (x : Option Value) :
    cs.foldl (confirm key) (cs.foldl (confirm key) x) = cs.foldl (confirm key) x :=
  foldl_confirm_of_related key cs rfl (.inr (.inl rfl))

end Change

/-- The entry of a key that is not to be removed, if it holds something. -/
def TableEntry.plain? (key : Key) (committed staged : Option Value) : Option TableEntry :=
  if committed.isSome || staged.isSome then some ⟨key, committed, staged, false⟩ else none

theorem TableEntry.committed_plain? (key : Key) (committed staged : Option Value) :
    (plain? key committed staged).bind TableEntry.committed = committed := by
  cases committed <;> cases staged <;> rfl

theorem TableEntry.staged_plain? (key : Key) (committed staged : Option Value) :
    (plain? key committed staged).bind TableEntry.staged = staged := by
  cases committed <;> cases staged <;> rfl

namespace Table

variable {t : Table} {c : Change}

def staged? (t : Table) (key : Key) : Option Value := (t.entry? key).bind TableEntry.staged

theorem key_of_entry {key : Key} {e : TableEntry} (found : t.entry? key = some e) :
    e.key = key := by
  simpa using List.find?_some found

/-- An allowed change leaves no removal to wait, and what is staged it leaves alone. -/
theorem entry?_applyChange (allowed : c.Allowed) (t : Table) :
    Table.entry? (t.applyChange c).1 c.key =
      TableEntry.plain? c.key (c.confirm c.key (t.committed? c.key)) (t.staged? c.key) := by
  cases c with
  | set k v =>
      have allowed : k.validate v = .ok () := allowed
      have ok : (k.validate v).isOk := by rw [allowed]; rfl
      simp only [Change.confirm, Change.key, ↓reduceIte, ok, committed?, staged?]
      cases found : t.entry? k with
      | none =>
          rw [applyChange_set_of_absent allowed found, entry?_append, found]
          simp [TableEntry.plain?, Layers.renew]
      | some e =>
          have own := key_of_entry found
          rw [applyChange_set_of_found allowed found]
          split
          · rename_i held
            obtain ⟨u, confirmed, same⟩ := (Option.any_eq_true ..).mp held
            rw [t.entry?_modify (f := ({ · with removed := false })) fun _ => rfl, if_pos rfl, found]
            simp [TableEntry.plain?, confirmed, Layers.renew, same, own]
          · rename_i different
            have renewed : Layers.renew v e.committed = v := by
              cases confirmed : e.committed with
              | none => rfl
              | some u => exact if_neg (by simpa [confirmed] using different)
            rw [t.entry?_modify (f := ({ · with committed := some v, removed := false }))
              fun _ => rfl, if_pos rfl, found]
            simp [TableEntry.plain?, renewed, own]
  | remove k =>
      simp only [Change.confirm, Change.key, ↓reduceIte, staged?]
      cases found : t.entry? k with
      | none =>
          rw [applyChange_remove_of_absent found, found]
          rfl
      | some e =>
          have own := key_of_entry found
          rw [applyChange_remove_of_found found]
          split
          · rename_i staged
            rw [t.entry?_modify (f := ({ · with committed := none, removed := false }))
              fun _ => rfl, if_pos rfl, found]
            simp [TableEntry.plain?, staged, own]
          · rename_i unstaged
            simp [entry?_erase, TableEntry.plain?, unstaged]

/-- Whether the entry of a key is not to be removed. -/
def IsPlain (t : Table) (key : Key) : Prop :=
  t.entry? key = TableEntry.plain? key (t.committed? key) (t.staged? key)

/-- A change either is not felt under a key, or leaves there an entry not to be removed. -/
theorem entry?_applyChange_cases (t : Table) (c : Change) (key : Key) :
    (¬ (c.Allowed ∧ c.key = key) ∧ Table.entry? (t.applyChange c).1 key = t.entry? key ∧
      c.confirm key (t.committed? key) = t.committed? key) ∨
    Table.entry? (t.applyChange c).1 key =
      TableEntry.plain? key (c.confirm key (t.committed? key)) (t.staged? key) := by
  by_cases own : c.key = key
  · subst own
    by_cases allowed : c.Allowed
    · exact .inr (entry?_applyChange allowed t)
    · refine .inl ⟨fun both => allowed both.1, ?_, ?_⟩
      · rw [applyChange_of_not_allowed allowed]
      · cases c with
        | set k v =>
            cases same : k.validate v with
            | ok _ => exact absurd same allowed
            | error e => simp [Change.confirm, same, Except.isOk, Except.toBool]
        | remove k => exact absurd trivial allowed
  · exact .inl ⟨fun both => own both.2, entry?_applyChange_of_ne own t, if_neg own⟩

theorem committed?_applyChange (t : Table) (c : Change) (key : Key) :
    (t.applyChange c).1.committed? key = c.confirm key (t.committed? key) := by
  rcases entry?_applyChange_cases t c key with ⟨-, same, unfelt⟩ | plain
  · rw [unfelt, committed?, same, committed?]
  · rw [committed?, plain, TableEntry.committed_plain?]

theorem staged?_applyChange (t : Table) (c : Change) (key : Key) :
    (t.applyChange c).1.staged? key = t.staged? key := by
  rcases entry?_applyChange_cases t c key with ⟨-, same, -⟩ | plain
  · rw [staged?, same, staged?]
  · rw [staged?, plain, TableEntry.staged_plain?]

theorem isPlain_applyChange {key : Key}
    (felt : t.IsPlain key ∨ (c.Allowed ∧ c.key = key)) : (t.applyChange c).1.IsPlain key := by
  rw [IsPlain, committed?_applyChange, staged?_applyChange]
  rcases entry?_applyChange_cases t c key with ⟨unfelt, same, kept⟩ | plain
  · rw [same, kept]
    exact felt.resolve_right unfelt
  · exact plain

theorem committed?_afterChanges (t : Table) (cs : List Change) (key : Key) :
    (t.afterChanges cs).committed? key = cs.foldl (Change.confirm key) (t.committed? key) := by
  induction cs generalizing t with
  | nil => rfl
  | cons c cs ih => exact (ih _).trans (by rw [committed?_applyChange, List.foldl_cons])

theorem staged?_afterChanges (t : Table) (cs : List Change) (key : Key) :
    (t.afterChanges cs).staged? key = t.staged? key := by
  induction cs generalizing t with
  | nil => rfl
  | cons c cs ih => exact (ih _).trans (staged?_applyChange t c key)

theorem isPlain_afterChanges {cs : List Change} {key : Key}
    (felt : t.IsPlain key ∨ ∃ c ∈ cs, c.Allowed ∧ c.key = key) :
    (t.afterChanges cs).IsPlain key := by
  induction cs generalizing t with
  | nil => exact felt.resolve_right (by simp)
  | cons c cs ih =>
      refine ih ?_
      rcases felt with plain | ⟨c', member, felt⟩
      · exact .inl (isPlain_applyChange (.inl plain))
      · rcases List.mem_cons.mp member with rfl | later
        · exact .inl (isPlain_applyChange (.inr felt))
        · exact .inr ⟨c', later, felt⟩

theorem entry?_afterChanges_of_unfelt {cs : List Change} {key : Key}
    (unfelt : ∀ c ∈ cs, ¬ (c.Allowed ∧ c.key = key)) (t : Table) :
    Table.entry? (t.afterChanges cs) key = t.entry? key := by
  induction cs generalizing t with
  | nil => rfl
  | cons c cs ih =>
      refine (ih (fun c' member => unfelt c' (List.mem_cons_of_mem c member)) _).trans ?_
      have first := unfelt c List.mem_cons_self
      by_cases own : c.key = key
      · have refused : ¬ c.Allowed := fun allowed => first ⟨allowed, own⟩
        exact congrArg (Table.entry? · key) (applyChange_of_not_allowed refused t)
      · exact entry?_applyChange_of_ne own t

/-- Changes that come a second time in the same order leave every entry as they left it first. -/
theorem entry?_afterChanges_twice (t : Table) (cs : List Change) (key : Key) :
    Table.entry? ((t.afterChanges cs).afterChanges cs) key = Table.entry? (t.afterChanges cs) key := by
  by_cases felt : ∃ c ∈ cs, c.Allowed ∧ c.key = key
  · have first : (t.afterChanges cs).IsPlain key := isPlain_afterChanges (.inr felt)
    have second : ((t.afterChanges cs).afterChanges cs).IsPlain key := isPlain_afterChanges (.inl first)
    rw [IsPlain] at first second
    rw [second, first, committed?_afterChanges, committed?_afterChanges, staged?_afterChanges,
      Change.foldl_confirm_twice]
  · exact entry?_afterChanges_of_unfelt (fun c member both => felt ⟨c, member, both⟩) _

end Table

end SignalGraph
