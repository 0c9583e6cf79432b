import SignalGraph.Proofs.Confirmation

/-! # Edits and the network

Edits made here never reach what the network has confirmed before they are pushed. Calls of the
network answer as if there were no edits, and what is left once edits are dropped is what the network
has said. So two courses of a table that hear the same from the network agree, whatever edits stand
in between.
-/

namespace SignalGraph

namespace TableCall

/-- Whether a call is one of the network. -/
def isWrite : TableCall → Bool
  | edit _ => false
  | apply _ _ | applyRemoval _ | applyDiff _ => true

/-- What a call of the network answers. -/
def answer? (t : Table) : TableCall → Option (Except Error Bool)
  | edit _ => none
  | apply key v =>
    match Table.apply key v t with
    | .ok changed _ => some (.ok changed)
    | .error e _ => some (.error e)
  | applyRemoval key => some (.ok (t.applyRemoval key).2)
  | applyDiff d => some (.ok (t.applyDiff d).2)

/-- Whether a call has what was staged confirmed. -/
def confirms (t : Table) : TableCall → Bool
  | edit e => e.confirms t
  | apply _ _ | applyRemoval _ | applyDiff _ => false

end TableCall

namespace Table

variable {t u : Table} {call : TableCall} {calls others : List TableCall}

/-- What the calls of the network among some calls answer, in order. -/
def answers (t : Table) : List TableCall → List (Except Error Bool)
  | [] => []
  | call :: calls => (call.answer? t).toList ++ (call.action.after t).answers calls

/-- Whether nothing that is staged gets confirmed in the course of some calls: each push among them
    fails, or has nothing to send. -/
def NeverConfirms (t : Table) : List TableCall → Prop
  | [] => True
  | call :: calls => call.confirms t = false ∧ (call.action.after t).NeverConfirms calls

/-- Whether two tables have the same confirmed. -/
def Concurs (t u : Table) : Prop := ∀ key, u.committed? key = t.committed? key

/-! ## Calls of the network -/

theorem Concurs.changed_applyChange (concurs : t.Concurs u) (c : Change) :
    (u.applyChange c).2 = (t.applyChange c).2 := by
  rw [Bool.eq_iff_iff, ← Bool.not_eq_false, ← Bool.not_eq_false, applyChange_snd_eq_false_iff,
    applyChange_snd_eq_false_iff]
  exact not_congr (states_congr concurs c)

theorem Concurs.changed_applyDiff (concurs : t.Concurs u) (d : Diff) :
    (u.applyDiff d).2 = (t.applyDiff d).2 := by
  obtain ⟨cs⟩ := d
  rw [Bool.eq_iff_iff, ← Bool.not_eq_false, ← Bool.not_eq_false, applyDiff_snd_eq_false_iff,
    applyDiff_snd_eq_false_iff]
  exact not_congr (forall₂_congr fun c _ => states_congr concurs c)

theorem Concurs.applyChange (concurs : t.Concurs u) (c : Change) :
    (t.applyChange c).1.Concurs (u.applyChange c).1 := fun key => by
  rw [committed?_applyChange, committed?_applyChange, concurs key]

theorem Concurs.applyDiff (concurs : t.Concurs u) (d : Diff) :
    (t.applyDiff d).1.Concurs (u.applyDiff d).1 := fun key => by
  rw [applyDiff_eq_afterChanges, applyDiff_eq_afterChanges, committed?_afterChanges,
    committed?_afterChanges, concurs key]

/-- A value that comes is a diff of one change, but that its refusal is told. -/
theorem answer?_apply (key : Key) (v : Value) (t : Table) :
    TableCall.answer? t (.apply key v) =
      some ((key.validate v).map fun _ => (t.applyChange (.set key v)).2) := by
  cases allowed : key.validate v with
  | error e =>
      simp only [TableCall.answer?, apply_eq_of_error allowed]
      rfl
  | ok _ =>
      have accepted : ∃ changed t', Table.apply key v t = .ok changed t' := by
        simp only [Table.apply, Attempt.bind_apply, allowed, Attempt.demand_ok,
          Attempt.current_apply]
        cases t.entry? key with
        | none => exact ⟨_, _, rfl⟩
        | some e =>
            simp only [Attempt.bind_apply, Attempt.change_apply]
            split <;> exact ⟨_, _, rfl⟩
      obtain ⟨changed, t', applied⟩ := accepted
      simp only [TableCall.answer?, Table.applyChange, applied]
      rfl

/-- What a call of the network answers, and what is confirmed after it, rests on what is confirmed
    before it alone. -/
theorem Concurs.write (concurs : t.Concurs u) (write : call.isWrite) :
    call.answer? u = call.answer? t ∧ (call.action.after t).Concurs (call.action.after u) := by
  cases call with
  | edit e => cases write
  | apply key v =>
      refine ⟨?_, ?_⟩
      · rw [answer?_apply, answer?_apply, concurs.changed_applyChange]
      · have applied := concurs.applyChange (.set key v)
        rw [applyChange_set, applyChange_set] at applied
        simpa only [TableCall.action, Attempt.after_bind_pure] using applied
  | applyRemoval key =>
      have changed : (u.applyRemoval key).2 = (t.applyRemoval key).2 :=
        concurs.changed_applyChange (.remove key)
      refine ⟨?_, concurs.applyChange (.remove key)⟩
      simp only [TableCall.answer?, changed]
  | applyDiff d =>
      refine ⟨?_, concurs.applyDiff d⟩
      simp only [TableCall.answer?, concurs.changed_applyDiff]

/-! ## Sequences of calls -/

theorem Unique.action (unique : t.Unique) (call : TableCall) : (call.action.after t).Unique :=
  Unique.entrywise.action unique fun _ _ => trivial

theorem Unique.perform (unique : t.Unique) (calls : List TableCall) : (t.perform calls).Unique :=
  Unique.entrywise.perform unique fun _ _ _ _ => trivial

/-- The network hears and confirms the same from a table to which nothing is done but what it does
    itself. -/
theorem NeverConfirms.writes (never : t.NeverConfirms calls) (unique : t.Unique)
    (concurs : t.Concurs u) :
    t.answers calls = u.answers (calls.filter TableCall.isWrite) ∧
      (t.perform calls).Concurs (u.perform (calls.filter TableCall.isWrite)) := by
  induction calls generalizing t u with
  | nil => exact ⟨rfl, concurs⟩
  | cons call calls ih =>
      obtain ⟨unconfirmed, rest⟩ := never
      cases write : call.isWrite with
      | true =>
          obtain ⟨answer, concursNow⟩ := concurs.write write
          obtain ⟨answers, confirmed⟩ := ih rest (unique.action call) concursNow
          rw [List.filter_cons_of_pos write]
          refine ⟨?_, confirmed⟩
          rw [Table.answers, Table.answers, answer, answers]
      | false =>
          cases call with
          | apply | applyRemoval | applyDiff => cases write
          | edit e =>
              have kept := TableEdit.keeps unique e unconfirmed
              have concursNow : (e.action.after t).Concurs u := fun key =>
                (concurs key).trans (kept.committed key).symm
              rw [List.filter_cons_of_neg (by simp [TableCall.isWrite])]
              exact ih rest kept.unique concursNow

/-- Once edits are dropped, readers see what is confirmed. -/
theorem Unique.get?_discardStaged (unique : t.Unique) (key : Key) :
    t.discardStaged.get? key = t.committed? key := by
  rw [get?, discardStaged, unique.entry?_filterMap key_of_revert?, committed?, Option.bind_assoc]
  refine congrArg _ (funext fun e => ?_)
  cases confirmed : e.committed <;> simp [TableEntry.revert?, confirmed, TableEntry.visible?]

/-- Two courses from one table, whatever its past, that hear the same from the network and push
    nothing with success: whatever is edited in each of them, and when, the network is answered the
    same at every write, and once edits are dropped the same is to be read. -/
theorem network_blind_to_edits {past : List TableCall} (now : t = empty.perform past)
    (same : calls.filter TableCall.isWrite = others.filter TableCall.isWrite)
    (never : t.NeverConfirms calls) (neverOther : t.NeverConfirms others) :
    t.answers calls = t.answers others ∧
      ∀ key, (t.perform calls).discardStaged.get? key =
        (t.perform others).discardStaged.get? key := by
  have unique : t.Unique := now ▸ Unique.empty.perform past
  obtain ⟨answers, confirmed⟩ := never.writes unique fun _ => rfl
  obtain ⟨answersOther, confirmedOther⟩ := neverOther.writes unique fun _ => rfl
  refine ⟨answers.trans (same ▸ answersOther.symm), fun key => ?_⟩
  rw [(unique.perform calls).get?_discardStaged, (unique.perform others).get?_discardStaged,
    ← confirmed key, ← confirmedOther key, same]

/-- A course in which what the network says of "x" comes between edits of it. -/
def editedCourse : List TableCall :=
  [.edit (.set (.named "x") (.ofId ⟨5⟩)), .apply (.named "x") (.ofId ⟨2⟩),
    .edit (.remove (.named "x")), .edit (.push fun _ => .error (.wire "down")),
    .applyDiff ⟨[.set (.named "y") (.ofId ⟨3⟩)]⟩]

def uneditedCourse : List TableCall :=
  [.apply (.named "x") (.ofId ⟨2⟩), .applyDiff ⟨[.set (.named "y") (.ofId ⟨3⟩)]⟩]

/-- Readers see the two courses differ, and the network does not. -/
theorem editedCourse_hidden :
    (Table.empty.perform editedCourse).get? (.named "x") = none ∧
      (Table.empty.perform uneditedCourse).get? (.named "x") = some (.ofId ⟨2⟩) ∧
      Table.empty.answers editedCourse = Table.empty.answers uneditedCourse ∧
      (Table.empty.perform editedCourse).discardStaged.get? (.named "x") =
        (Table.empty.perform uneditedCourse).discardStaged.get? (.named "x") := by
  have never : Table.empty.NeverConfirms editedCourse := ⟨rfl, rfl, rfl, rfl, rfl, trivial⟩
  have neverOther : Table.empty.NeverConfirms uneditedCourse := ⟨rfl, rfl, trivial⟩
  have same : editedCourse.filter TableCall.isWrite = uneditedCourse.filter TableCall.isWrite := rfl
  have now : Table.empty = Table.empty.perform [] := rfl
  obtain ⟨answers, reading⟩ := network_blind_to_edits now same never neverOther
  exact ⟨by decide +kernel, by decide +kernel, answers, reading (.named "x")⟩

end Table

end SignalGraph
