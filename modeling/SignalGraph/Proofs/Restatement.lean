import SignalGraph.Proofs.Simulation

/-! # Diffs that come again

Whether a table finds that a diff changes something that it has already taken: it does not just
where the diff speaks of each key with one voice.
-/

namespace SignalGraph

/-! ## Equality of values -/

namespace Binary

variable {f : BinaryFormat} {x y z : Binary f}

theorem eqv_iff : x.eqv y ↔ x.isNaN = false ∧ y.isNaN = false ∧ x.rank = y.rank := by
  simp [eqv, and_assoc]

theorem eqv_symm (same : x.eqv y) : y.eqv x := by
  obtain ⟨first, second, rank⟩ := eqv_iff.mp same
  exact eqv_iff.mpr ⟨second, first, rank.symm⟩

theorem eqv_trans (same : x.eqv y) (next : y.eqv z) : x.eqv z := by
  obtain ⟨first, -, rank⟩ := eqv_iff.mp same
  obtain ⟨-, last, rank'⟩ := eqv_iff.mp next
  exact eqv_iff.mpr ⟨first, last, rank.trans rank'⟩

end Binary

namespace Scalar

variable {a b c : Scalar}

theorem eqv_symm (same : a.eqv b) : b.eqv a := by
  cases a <;> cases b <;> simp only [eqv, beq_iff_eq, reduceCtorEq] at same ⊢
  case float32 | float64 => exact Binary.eqv_symm same
  all_goals exact same.symm

theorem eqv_trans (same : a.eqv b) (next : b.eqv c) : a.eqv c := by
  cases a <;> cases b <;> simp only [eqv, beq_iff_eq, reduceCtorEq] at same <;>
    cases c <;> simp only [eqv, beq_iff_eq, reduceCtorEq] at next ⊢
  case float32 | float64 => exact Binary.eqv_trans same next
  all_goals exact same.trans next

end Scalar

namespace Value

theorem eqvScalars_symm {as bs : List Scalar} (same : eqvScalars as bs) : eqvScalars bs as := by
  induction as generalizing bs with
  | nil => cases bs with
    | nil => rfl
    | cons b bs => cases same
  | cons a as ih => cases bs with
    | nil => cases same
    | cons b bs =>
        obtain ⟨first, others⟩ := (Bool.and_eq_true _ _).mp same
        exact (Bool.and_eq_true _ _).mpr ⟨Scalar.eqv_symm first, ih others⟩

theorem eqvScalars_trans {as bs cs : List Scalar} (same : eqvScalars as bs)
    (next : eqvScalars bs cs) : eqvScalars as cs := by
  induction as generalizing bs cs with
  | nil => cases bs with
    | nil => exact next
    | cons b bs => cases same
  | cons a as ih => cases bs with
    | nil => cases same
    | cons b bs => cases cs with
      | nil => cases next
      | cons c cs =>
          obtain ⟨first, others⟩ := (Bool.and_eq_true _ _).mp same
          obtain ⟨first', others'⟩ := (Bool.and_eq_true _ _).mp next
          exact (Bool.and_eq_true _ _).mpr ⟨Scalar.eqv_trans first first', ih others others'⟩

variable {u v w : Value}

theorem eqv_iff : v.eqv w ↔ v.kind = w.kind ∧ eqvScalars v.scalars w.scalars := by
  rw [eqv, Bool.and_eq_true, beq_iff_eq]

theorem eqv_symm (same : v.eqv w) : w.eqv v := by
  obtain ⟨kind, scalars⟩ := eqv_iff.mp same
  exact eqv_iff.mpr ⟨kind.symm, eqvScalars_symm scalars⟩

theorem eqv_trans (same : u.eqv v) (next : v.eqv w) : u.eqv w := by
  obtain ⟨kind, scalars⟩ := eqv_iff.mp same
  obtain ⟨kind', scalars'⟩ := eqv_iff.mp next
  exact eqv_iff.mpr ⟨kind.trans kind', eqvScalars_trans scalars scalars'⟩

end Value

/-! ## Flags -/

/-- What was done before items are gone through, and whether that changed something, goes on beside
    what they do. -/
theorem foldl_flagged {β γ : Type} (f : β → γ → β × Bool) (items : List γ) (b : β)
    (changed : Bool) :
    items.foldl (fun (x : β × Bool) c => ((f x.1 c).1, x.2 || (f x.1 c).2)) (b, changed) =
      ((items.foldl (fun (x : β × Bool) c => ((f x.1 c).1, x.2 || (f x.1 c).2)) (b, false)).1,
        changed ||
          (items.foldl (fun (x : β × Bool) c => ((f x.1 c).1, x.2 || (f x.1 c).2)) (b, false)).2) := by
  induction items generalizing b changed with
  | nil => simp
  | cons c items ih =>
      rw [List.foldl_cons, List.foldl_cons, ih, ih _ (false || (f b c).2)]
      simp [Bool.or_assoc]

/-! ## Diffs with one voice -/

namespace Change

/-- Whether the catalogue allows a change. -/
def Allowed : Change → Prop
  | set key v => key.validate v = .ok ()
  | remove _ => True

/-- Whether two changes say the same of one key. A value that is not a number does not agree even
    with itself. -/
inductive Agrees : Change → Change → Prop
  | sets {key : Key} {v w : Value} (same : v.eqv w) : Agrees (.set key v) (.set key w)
  | removals {key : Key} : Agrees (.remove key) (.remove key)

/-- Whether changes that the catalogue allows agree wherever they are about one key. -/
def Coherent (cs : List Change) : Prop :=
  ∀ c ∈ cs, ∀ c' ∈ cs, c.Allowed → c'.Allowed → c.key = c'.key → c.Agrees c'

end Change

namespace Table

variable {t : Table} {c c' : Change}

theorem applyChange_eq_of_error {key : Key} {v : Value} {e : Error}
    (refused : key.validate v = .error e) (t : Table) :
    t.applyChange (.set key v) = (t, false) := by
  simp only [applyChange, apply, Attempt.bind_apply, refused, Attempt.demand_error]

theorem applyChange_set_of_absent {key : Key} {v : Value} (allowed : key.validate v = .ok ())
    (absent : t.entry? key = none) :
    t.applyChange (.set key v) = (t.append ⟨key, some v, none, false⟩, true) := by
  simp only [applyChange, apply, Attempt.bind_apply, allowed, Attempt.demand_ok,
    Attempt.current_apply, absent, Attempt.change_apply, Attempt.pure_apply]

theorem applyChange_set_of_found {key : Key} {v : Value} {e : TableEntry}
    (allowed : key.validate v = .ok ()) (found : t.entry? key = some e) :
    t.applyChange (.set key v) =
      if e.committed.any (·.eqv v) then (t.modify key ({ · with removed := false }), false)
      else (t.modify key ({ · with committed := some v, removed := false }), true) := by
  have twice : (t.modify key ({ · with removed := false })).modify key
      ({ · with committed := some v }) =
      t.modify key ({ · with committed := some v, removed := false }) := by
    simp only [modify, List.map_map, mk.injEq]
    apply List.map_congr_left
    intro e _
    by_cases own : e.key = key <;> simp [own]
  simp only [applyChange, apply, Attempt.bind_apply, allowed, Attempt.demand_ok,
    Attempt.current_apply, found, Attempt.change_apply, ← twice]
  cases e.committed.any (·.eqv v) <;> rfl

theorem applyChange_remove_of_absent {key : Key} (absent : t.entry? key = none) :
    t.applyChange (.remove key) = (t, false) := by
  simp only [applyChange, applyRemoval, absent]

theorem applyChange_remove_of_found {key : Key} {e : TableEntry} (found : t.entry? key = some e) :
    t.applyChange (.remove key) =
      if e.staged.isSome then
        (t.modify key ({ · with committed := none, removed := false }), e.committed.isSome)
      else (t.erase key, e.committed.isSome) := by
  simp only [applyChange, applyRemoval, found]

/-! ## Changes that a table has taken -/

theorem modify_eq_self {key : Key} {f : TableEntry → TableEntry}
    (same : ∀ e ∈ t.entries, e.key = key → f e = e) : t.modify key f = t := by
  refine congrArg mk ((List.map_congr_left ?_).trans (List.map_id _))
  intro e member
  split
  · rename_i own
    exact same e member own
  · rfl

theorem modify_modify (t : Table) (key : Key) {f g : TableEntry → TableEntry}
    (same : ∀ e, (f e).key = e.key) :
    (t.modify key f).modify key g = t.modify key (fun e => g (f e)) := by
  simp only [modify, List.map_map, mk.injEq]
  apply List.map_congr_left
  intro e _
  by_cases own : e.key = key <;> simp [own, same]

/-- Whether a change that comes to a table leaves it as it is. -/
def Settled (t : Table) (c : Change) : Prop := t.applyChange c = (t, false)

theorem settled_of_not_allowed (refused : ¬ c.Allowed) (t : Table) : t.Settled c := by
  cases c with
  | set key v =>
      cases allowed : key.validate v with
      | error e => exact applyChange_eq_of_error allowed t
      | ok _ => exact absurd allowed refused
  | remove key => exact absurd trivial refused

theorem applyChange_of_not_allowed (refused : ¬ c.Allowed) (t : Table) : (t.applyChange c).1 = t :=
  congrArg Prod.fst (settled_of_not_allowed refused t)

theorem settled_set {key : Key} {v : Value} {e : TableEntry} (found : t.entry? key = some e)
    (same : e.committed.any (·.eqv v))
    (kept : t.modify key ({ · with removed := false }) = t) : t.Settled (.set key v) := by
  cases allowed : key.validate v with
  | error e => exact applyChange_eq_of_error allowed t
  | ok _ => rw [Settled, applyChange_set_of_found allowed found, if_pos same, kept]

/-- A change leaves a table as it is once one that agrees with it has come. -/
theorem settled_of_agrees (allowed : c.Allowed) (agrees : c.Agrees c') (t : Table) :
    (t.applyChange c).1.Settled c' := by
  cases agrees with
  | @sets key v w same =>
      cases found : t.entry? key with
      | none =>
          rw [applyChange_set_of_absent allowed found]
          refine settled_set (e := ⟨key, some v, none, false⟩) ?_ same ?_
          · simp [entry?_append, found]
          · apply modify_eq_self
            intro e member own
            rcases List.mem_append.mp member with before | last
            · exact absurd own (by simpa using List.find?_eq_none.mp found e before)
            · rw [List.mem_singleton.mp last]
      | some e =>
          rw [applyChange_set_of_found allowed found]
          split
          · rename_i held
            obtain ⟨u, confirmed, eqv⟩ := (Option.any_eq_true ..).mp held
            refine settled_set (e := { e with removed := false }) ?_ ?_ ?_
            · simp [t.entry?_modify (f := ({ · with removed := false })) fun _ => rfl, found]
            · exact (Option.any_eq_true ..).mpr ⟨u, confirmed, Value.eqv_trans eqv same⟩
            · exact t.modify_modify key fun _ => rfl
          · refine settled_set (e := { e with committed := some v, removed := false }) ?_ same ?_
            · simp [t.entry?_modify (f := ({ · with committed := some v, removed := false }))
                fun _ => rfl, found]
            · exact t.modify_modify key fun _ => rfl
  | @removals key =>
      cases found : t.entry? key with
      | none =>
          rw [applyChange_remove_of_absent found]
          exact applyChange_remove_of_absent found
      | some e =>
          rw [applyChange_remove_of_found found]
          split
          · rename_i staged
            let dropped (e : TableEntry) : TableEntry := { e with committed := none, removed := false }
            have kept : Table.entry? (t.modify key dropped) key = some (dropped e) := by
              rw [t.entry?_modify (f := dropped) fun _ => rfl, if_pos rfl, found, Option.map_some]
            refine (applyChange_remove_of_found kept).trans ?_
            rw [if_pos staged]
            exact congrArg (·, false) (t.modify_modify key (f := dropped) fun _ => rfl)
          · apply applyChange_remove_of_absent
            rw [entry?_erase, if_pos rfl]

/-- A change and work on the entries of another key do not get in each other's way. -/
theorem applyChange_modify {key : Key} (apart : c.key ≠ key) {f : TableEntry → TableEntry}
    (same : ∀ e, (f e).key = e.key) (t : Table) :
    ((t.modify key f).applyChange c).1 = (t.applyChange c).1.modify key f := by
  have unfelt : Table.entry? (t.modify key f) c.key = t.entry? c.key := by
    rw [t.entry?_modify same, if_neg apart.symm]
  have commute {k : Key} (different : k ≠ key) {g : TableEntry → TableEntry}
      (same' : ∀ e, (g e).key = e.key) :
      (t.modify key f).modify k g = (t.modify k g).modify key f := by
    simp only [modify, List.map_map, mk.injEq]
    apply List.map_congr_left
    intro e _
    by_cases own : e.key = k
    · simp [own, different, same']
    · by_cases other : e.key = key <;> simp [own, other, same, different.symm]
  cases c with
  | set k v =>
      cases allowed : k.validate v with
      | error e => simp only [applyChange_eq_of_error allowed]
      | ok _ =>
          cases found : t.entry? k with
          | none =>
              rw [applyChange_set_of_absent allowed (unfelt.trans found),
                applyChange_set_of_absent allowed found]
              have apart' : k ≠ key := apart
              simp [modify, append, apart']
          | some e =>
              rw [applyChange_set_of_found allowed (unfelt.trans found),
                applyChange_set_of_found allowed found]
              split
              · exact commute apart (g := ({ · with removed := false })) fun _ => rfl
              · exact commute apart (g := ({ · with committed := some v, removed := false }))
                  fun _ => rfl
  | remove k =>
      cases found : t.entry? k with
      | none =>
          rw [applyChange_remove_of_absent found,
            applyChange_remove_of_absent (show Table.entry? _ k = none from unfelt.trans found)]
      | some e =>
          rw [applyChange_remove_of_found found,
            applyChange_remove_of_found (show Table.entry? _ k = some e from unfelt.trans found)]
          split
          · exact commute apart (g := ({ · with committed := none, removed := false })) fun _ => rfl
          · simp only [erase, modify, List.filter_map, mk.injEq]
            congr 1
            apply List.filter_congr
            intro e _
            simp only [Function.comp_apply]
            split
            · rw [same]
            · rfl

theorem entry?_applyChange_of_ne {key : Key} (apart : c.key ≠ key) (t : Table) :
    Table.entry? (t.applyChange c).1 key = t.entry? key := by
  cases c with
  | set k v =>
      have apart' : k ≠ key := apart
      cases allowed : k.validate v with
      | error e => rw [applyChange_eq_of_error allowed]
      | ok _ =>
          cases found : t.entry? k with
          | none =>
              rw [applyChange_set_of_absent allowed found, entry?_append, if_neg apart',
                Option.or_none]
          | some e =>
              rw [applyChange_set_of_found allowed found]
              split
              · exact (t.entry?_modify (f := ({ · with removed := false })) (fun _ => rfl) ..).trans
                  (if_neg apart')
              · exact (t.entry?_modify (f := ({ · with committed := some v, removed := false }))
                  (fun _ => rfl) ..).trans (if_neg apart')
  | remove k =>
      have apart' : k ≠ key := apart
      cases found : t.entry? k with
      | none => rw [applyChange_remove_of_absent found]
      | some e =>
          rw [applyChange_remove_of_found found]
          split
          · exact (t.entry?_modify (f := ({ · with committed := none, removed := false }))
              (fun _ => rfl) ..).trans (if_neg apart')
          · exact (t.entry?_erase ..).trans (if_neg apart')

/-- What a table has taken stays so while changes of other keys come. -/
theorem Settled.applyChange_of_ne (settled : t.Settled c') (apart : c.key ≠ c'.key) :
    (t.applyChange c).1.Settled c' := by
  have unfelt := entry?_applyChange_of_ne apart t
  have kept {f : TableEntry → TableEntry} (same : ∀ e, (f e).key = e.key)
      (kept : t.modify c'.key f = t) : (t.applyChange c).1.modify c'.key f = (t.applyChange c).1 := by
    rw [← applyChange_modify apart same, kept]
  cases c' with
  | set k v =>
      cases allowed : k.validate v with
      | error e => exact applyChange_eq_of_error allowed _
      | ok _ =>
          cases found : t.entry? k with
          | none =>
              rw [Settled, applyChange_set_of_absent allowed found] at settled
              exact absurd (congrArg Prod.snd settled) (by simp)
          | some e =>
              rw [Settled, applyChange_set_of_found allowed found] at settled
              cases same : e.committed.any (·.eqv v) with
              | true =>
                  rw [same, if_pos rfl] at settled
                  exact settled_set (unfelt.trans found) same
                    (kept (fun _ => rfl) (congrArg Prod.fst settled))
              | false =>
                  rw [same] at settled
                  exact absurd (congrArg Prod.snd settled) (by simp)
  | remove k =>
      cases found : t.entry? k with
      | none => exact applyChange_remove_of_absent (unfelt.trans found)
      | some e =>
          rw [Settled, applyChange_remove_of_found found] at settled
          refine (applyChange_remove_of_found (unfelt.trans found)).trans ?_
          split
          · rename_i staged
            rw [if_pos staged] at settled
            obtain ⟨same, none⟩ := Prod.mk.inj settled
            rw [none]
            exact congrArg (·, false) (kept (f := ({ · with committed := Option.none, removed := false }))
              (fun _ => rfl) same)
          · rename_i unstaged
            rw [if_neg unstaged] at settled
            have gone := t.entry?_erase k k
            rw [(Prod.mk.inj settled).1, if_pos rfl, found] at gone
            cases gone

/-! ## Diffs that a table has taken -/

/-- The table after changes, one after another. -/
def afterChanges (t : Table) (cs : List Change) : Table :=
  cs.foldl (fun t c => (t.applyChange c).1) t

theorem applyDiff_eq_afterChanges (t : Table) (d : Diff) :
    (t.applyDiff d).1 = t.afterChanges d.changes := t.applyDiff_fst d

theorem applyDiff_nil (t : Table) : t.applyDiff ⟨[]⟩ = (t, false) := rfl

theorem applyDiff_cons (t : Table) (c : Change) (cs : List Change) :
    t.applyDiff ⟨c :: cs⟩ =
      (((t.applyChange c).1.applyDiff ⟨cs⟩).1,
        (t.applyChange c).2 || ((t.applyChange c).1.applyDiff ⟨cs⟩).2) :=
  (foldl_flagged applyChange cs (t.applyChange c).1 _).trans (by rw [Bool.false_or]; rfl)

/-- What a table has taken stays so while changes that agree with it come. -/
theorem Settled.applyChange (settled : t.Settled c')
    (agrees : c.Allowed → c'.Allowed → c.key = c'.key → c.Agrees c') :
    (t.applyChange c).1.Settled c' := by
  by_cases allowed' : c'.Allowed
  · by_cases allowed : c.Allowed
    · by_cases own : c.key = c'.key
      · exact settled_of_agrees allowed (agrees allowed allowed' own) t
      · exact settled.applyChange_of_ne own
    · rwa [applyChange_of_not_allowed allowed]
  · exact settled_of_not_allowed allowed' _

theorem settled_of_coherent {cs : List Change} (coherent : Change.Coherent cs) (t : Table) :
    ∀ c ∈ cs, (t.afterChanges cs).Settled c := by
  -- The induction carries along the changes that came before, which the table has taken.
  have all (said cs : List Change) (t : Table) (taken : ∀ c ∈ said, t.Settled c)
      (coherent : Change.Coherent (said ++ cs)) : ∀ c ∈ said ++ cs, (t.afterChanges cs).Settled c := by
    induction cs generalizing said t with
    | nil => rwa [List.append_nil]
    | cons c cs ih =>
        have here : c ∈ said ++ c :: cs := List.mem_append_right said List.mem_cons_self
        rw [List.append_cons] at coherent here ⊢
        refine ih (said ++ [c]) (t.applyChange c).1 ?_ coherent
        intro c' member
        have there : c' ∈ said ++ [c] ++ cs := List.mem_append_left cs member
        rcases List.mem_append.mp member with earlier | same
        · exact (taken c' earlier).applyChange (coherent c here c' there)
        · obtain rfl := List.mem_singleton.mp same
          by_cases allowed : c'.Allowed
          · exact settled_of_agrees allowed (coherent c' here c' here allowed allowed rfl) t
          · exact settled_of_not_allowed allowed _
  exact all [] cs t (fun c member => absurd member List.not_mem_nil) coherent

theorem applyDiff_of_settled {cs : List Change} (settled : ∀ c ∈ cs, t.Settled c) :
    t.applyDiff ⟨cs⟩ = (t, false) := by
  induction cs with
  | nil => rfl
  | cons c cs ih =>
      have first : t.applyChange c = (t, false) := settled c List.mem_cons_self
      rw [applyDiff_cons, first, ih fun c' member => settled c' (List.mem_cons_of_mem c member)]
      rfl

theorem afterChanges_of_settled {cs : List Change} (settled : ∀ c ∈ cs, t.Settled c) :
    t.afterChanges cs = t :=
  (applyDiff_eq_afterChanges t ⟨cs⟩).symm.trans (congrArg Prod.fst (applyDiff_of_settled settled))

/-! ## Diffs that say what is confirmed -/

/-- Whether what is confirmed is already what a change says, so that nothing changes with it. -/
def States (t : Table) : Change → Prop
  | .set key v => key.validate v = .ok () → ∃ w, t.committed? key = some w ∧ w.eqv v
  | .remove key => t.committed? key = none

theorem applyChange_snd_eq_false_iff (t : Table) (c : Change) :
    (t.applyChange c).2 = false ↔ t.States c := by
  cases c with
  | set key v =>
      cases allowed : key.validate v with
      | error e => simp [applyChange_eq_of_error allowed, States, allowed]
      | ok _ =>
          simp only [States, committed?, allowed, true_imp_iff]
          cases found : t.entry? key with
          | none => simp [applyChange_set_of_absent allowed found]
          | some e =>
              rw [applyChange_set_of_found allowed found, Option.bind_some]
              cases same : e.committed.any (·.eqv v) with
              | true => simpa [Option.any_eq_true] using same
              | false => simpa [Option.any_eq_false] using same
  | remove key =>
      simp only [applyChange, applyRemoval, States, committed?]
      cases found : t.entry? key with
      | none => simp
      | some e =>
          dsimp only [Option.bind_some]
          split <;> simp

theorem States.committed?_applyChange (states : t.States c) (key : Key) :
    (t.applyChange c).1.committed? key = t.committed? key := by
  by_cases own : c.key = key
  · subst own
    cases c with
    | set k v =>
        cases allowed : k.validate v with
        | error e => rw [applyChange_eq_of_error allowed]
        | ok _ =>
            obtain ⟨w, confirmed, same⟩ := states allowed
            obtain ⟨e, found, own⟩ := Option.bind_eq_some_iff.mp confirmed
            rw [applyChange_set_of_found allowed found, if_pos (by simp [own, same])]
            exact t.committed?_modify_of_eq (f := ({ · with removed := false })) (fun _ => rfl)
              (fun _ => rfl) ..
    | remove k =>
        exact (committed?_applyRemoval t k k).trans ((if_pos rfl).trans states.symm)
  · rw [committed?, entry?_applyChange_of_ne own, committed?]

theorem states_congr {u : Table} (same : ∀ key, u.committed? key = t.committed? key) (c : Change) :
    u.States c ↔ t.States c := by
  cases c with
  | set key v => simp only [States, same]
  | remove key => simp only [States, same]

/-- A diff changes nothing just if what is confirmed is already what each of its changes says. -/
theorem applyDiff_snd_eq_false_iff (t : Table) (cs : List Change) :
    (t.applyDiff ⟨cs⟩).2 = false ↔ ∀ c ∈ cs, t.States c := by
  induction cs generalizing t with
  | nil => simp [applyDiff_nil]
  | cons c cs ih =>
      rw [applyDiff_cons, Bool.or_eq_false_iff, applyChange_snd_eq_false_iff, ih,
        List.forall_mem_cons]
      refine and_congr_right fun states => ?_
      exact forall₂_congr fun c' _ => states_congr states.committed?_applyChange c'

theorem coherent_of_states {cs : List Change} (states : ∀ c ∈ cs, t.States c) : Change.Coherent cs := by
  intro c member c' member' allowed allowed' own
  have first := states c member
  have second := states c' member'
  cases c with
  | set key v =>
      obtain ⟨w, confirmed, same⟩ := first allowed
      cases c' with
      | set key' v' =>
          obtain rfl : key = key' := own
          obtain ⟨w', confirmed', same'⟩ := second allowed'
          obtain rfl := Option.some.inj (confirmed.symm.trans confirmed')
          exact .sets (Value.eqv_trans (Value.eqv_symm same) same')
      | remove key' =>
          obtain rfl : key = key' := own
          cases confirmed.symm.trans second
  | remove key =>
      cases c' with
      | set key' v' =>
          obtain rfl : key = key' := own
          obtain ⟨w', confirmed', -⟩ := second allowed'
          cases confirmed'.symm.trans first
      | remove key' =>
          obtain rfl : key = key' := own
          exact .removals

end Table

end SignalGraph
