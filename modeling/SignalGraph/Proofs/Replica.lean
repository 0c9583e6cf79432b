import SignalGraph.Proofs.Confirmation
import SignalGraph.Proofs.Simulation

/-! # What a replica makes of a push

A replica that holds what a table has confirmed, and to which the pushed diff comes, reads as the
table did before the push and does after it. The catalogue refuses none of the diff, since edits had
to pass it. What a replica may hold on to is a value of its own that equals the pushed one.
-/

namespace SignalGraph

namespace Change

variable {key : Key} {c : Change} {cs : List Change} {x : Option Value}

theorem foldl_confirm_of_absent (absent : key ∉ cs.map Change.key) :
    cs.foldl (confirm key) x = x := by
  induction cs with
  | nil => rfl
  | cons c cs ih =>
      rw [List.map_cons, List.mem_cons, not_or] at absent
      obtain ⟨apart, later⟩ := absent
      have unfelt : c.confirm key x = x := if_neg (Ne.symm apart)
      rw [List.foldl_cons, unfelt, ih later]

/-- Where each key is spoken of once, what comes of a key is what that one change makes of it. -/
theorem foldl_confirm_of_once (once : (cs.map Change.key).Nodup) (member : c ∈ cs) :
    cs.foldl (confirm c.key) x = c.confirm c.key x := by
  induction cs generalizing x with
  | nil => cases member
  | cons first cs ih =>
      obtain ⟨fresh, later⟩ := List.nodup_cons.mp once
      rw [List.foldl_cons]
      rcases List.mem_cons.mp member with rfl | among
      · exact foldl_confirm_of_absent fresh
      · have apart : first.key ≠ c.key := fun same => fresh (same ▸ List.mem_map_of_mem among)
        have unfelt : first.confirm c.key x = x := if_neg apart
        rw [unfelt, ih later among]

end Change

namespace Layers

variable {l m : Layers} {calls : List TableCall}

/-! ## Staged values are allowed -/

/-- Whether the catalogue allows each value that waits. -/
def Allowed (l : Layers) : Prop := ∀ key v, l.pending key = some (.set v) → key.validate v = .ok ()

theorem Allowed.put (allowed : l.Allowed) (key : Key) (v : Option Value) {p : Option Pending}
    (own : ∀ w, p = some (.set w) → key.validate w = .ok ()) : (l.put key v p).Allowed := by
  intro other w waits
  simp only [Layers.put] at waits
  split at waits
  · rename_i same
    exact same ▸ own w waits
  · exact allowed other w waits

theorem Allowed.confirm (allowed : l.Allowed) (key : Key) (v : Option Value) :
    (l.confirm key v).Allowed := by
  refine allowed.put key v fun w stays => allowed key w ?_
  cases waits : l.pending key with
  | none => simp [waits, Pending.yield] at stays
  | some p =>
      cases p with
      | set u => simpa [waits, Pending.yield] using stays
      | remove => simp [waits, Pending.yield] at stays

theorem Allowed.change (allowed : l.Allowed) (c : Change) : (l.change c).Allowed := by
  cases c with
  | set key v =>
      simp only [Layers.change]
      split
      · exact allowed.confirm _ _
      · exact allowed
  | remove key => exact allowed.confirm _ _

theorem Allowed.step (allowed : l.Allowed) {call : TableCall} (step : l.Step call (.ok () m)) :
    m.Allowed := by
  cases step with
  | set valid =>
      exact allowed.put _ _ fun w same => by
        obtain rfl := Pending.set.inj (Option.some.inj same)
        exact valid
  | remove seen =>
      exact allowed.put _ _ fun w same => by
        split at same <;> simp at same
  | discard | push => exact fun _ _ waits => absurd waits (by simp [Layers.revert, Layers.settle])
  | pushNothing => exact allowed
  | apply => exact allowed.confirm _ _
  | applyRemoval => exact allowed.confirm _ _
  | applyDiff =>
      exact List.foldlRecOn _ _ (motive := Allowed) allowed fun _ allowed c _ => allowed.change c

theorem Allowed.run (allowed : l.Allowed) (run : l.Run calls m) : m.Allowed := by
  induction run with
  | nil => exact allowed
  | done step _ ih => exact ih (allowed.step step)
  | refused _ _ ih => exact ih allowed

/-! ## Nothing staged -/

/-- Whether nothing waits to be sent. -/
def Settled (l : Layers) : Prop := ∀ key, l.pending key = none

theorem Settled.get? (settled : l.Settled) (key : Key) : l.get? key = l.confirmed key := by
  simp only [Layers.get?, settled key]

theorem Settled.change (settled : l.Settled) (c : Change) : (l.change c).Settled := by
  have confirm (key : Key) (v : Option Value) : (l.confirm key v).Settled := fun other => by
    simp [Layers.confirm, Layers.put, settled key, settled other, Pending.yield]
  cases c with
  | set key v =>
      simp only [Layers.change]
      split
      · exact confirm _ _
      · exact settled
  | remove key => exact confirm _ _

/-- What waits for a key is what a diff that lists it confirms there. -/
theorem Lists.foldl_confirm {d : Diff} (lists : l.Lists d) (allowed : l.Allowed) (key : Key) :
    d.changes.foldl (Change.confirm key) (l.confirmed key) =
      (l.get? key).map fun v => renew v (l.confirmed key) := by
  have listed (c : Change) (own : c.key = key) (waits : l.pending key = some c.pending) :
      d.changes.foldl (Change.confirm key) (l.confirmed key) = c.confirm key (l.confirmed key) := by
    subst own
    exact Change.foldl_confirm_of_once lists.once ((lists.exact c).mpr waits)
  simp only [Layers.get?]
  cases waits : l.pending key with
  | none =>
      have absent : key ∉ d.changes.map Change.key := fun among => by
        obtain ⟨c, member, rfl⟩ := List.mem_map.mp among
        simp [(lists.exact c).mp member] at waits
      rw [Change.foldl_confirm_of_absent absent]
      cases l.confirmed key <;> simp [renew]
  | some p =>
      cases p with
      | set v =>
          have valid : (key.validate v).isOk := by
            rw [allowed key v waits]
            rfl
          rw [listed (.set key v) rfl waits]
          simp [Change.confirm, Change.key, valid]
      | remove =>
          rw [listed (.remove key) rfl waits]
          simp [Change.confirm, Change.key]

end Layers

namespace Table

variable {t t' : Table} {calls : List TableCall} {send : Diff → Except Error Unit} {n : Nat}

/-- A push that is taken leaves confirmed what was to be read, also when there is nothing to push. -/
theorem Sound.layers_push (sound : t.Sound) (pushed : Table.push send t = .ok n t') :
    t'.layers = t.layers.settle ∧ t'.Sound := by
  simp only [Table.push, Attempt.bind_apply, Attempt.current_apply] at pushed
  cases nothing : t.stagedDiff.isEmpty with
  | true =>
      have settled : t.layers.Settled :=
        (stagedDiff_isEmpty_iff sound.stagedDiff_lists).mp nothing
      rw [nothing] at pushed
      cases pushed
      refine ⟨?_, sound⟩
      ext1 <;> funext key
      · exact (settled.get? key).symm
      · exact settled key
  | false =>
      cases sent : send t.stagedDiff with
      | error e => simp [nothing, sent, Attempt.bind_apply] at pushed
      | ok _ =>
          simp only [nothing, sent, Bool.false_eq_true, ↓reduceIte, Attempt.bind_apply,
            Attempt.demand_ok, Attempt.change_apply, Attempt.pure_apply] at pushed
          cases pushed
          exact sound.layers_commitStaged

theorem Sound.hasStaged_eq_false (sound : t.Sound) (settled : t.layers.Settled) :
    t.hasStaged = false :=
  Bool.eq_false_iff.mpr fun staged => by
    obtain ⟨key, waits⟩ := sound.hasStaged_iff.mp staged
    exact waits (settled key)

/-- A push of a table, whatever its past, is read the same by the table and by a replica to which
    what the table has confirmed is known and to which the pushed diff comes: both then read as the
    table did before, but that the replica keeps a value that equals the pushed one, and neither has
    anything left to push. Nothing of the diff is refused by the replica. -/
theorem replica_agrees (now : t = empty.perform calls) (pushed : Table.push send t = .ok n t') :
    (∀ key, t'.get? key = t.get? key) ∧
      (∀ key, (t.discardStaged.applyDiff t.stagedDiff).1.get? key =
        (t.get? key).map fun v => Layers.renew v (t.discardStaged.get? key)) ∧
      t'.hasStaged = false ∧ (t.discardStaged.applyDiff t.stagedDiff).1.hasStaged = false ∧
      ∀ c ∈ t.stagedDiff.changes, c.Allowed := by
  obtain ⟨sound, run⟩ := now ▸ Sound.empty.perform calls
  have allowed : t.layers.Allowed := Layers.Allowed.run (fun _ _ waits => by cases waits) run
  have lists := sound.stagedDiff_lists
  obtain ⟨settledPushed, soundPushed⟩ := sound.layers_push pushed
  obtain ⟨reverted, soundReverted⟩ := sound.layers_discardStaged
  obtain ⟨layers, soundReplica⟩ := soundReverted.applyDiff t.stagedDiff
  have settled : t'.layers.Settled := settledPushed ▸ fun _ => rfl
  have settledReverted : t.discardStaged.layers.Settled := reverted ▸ fun _ => rfl
  have settledReplica : (t.discardStaged.applyDiff t.stagedDiff).1.layers.Settled := by
    rw [layers]
    exact List.foldlRecOn _ _ (motive := Layers.Settled) settledReverted
      fun _ settled c _ => settled.change c
  have known (key : Key) : t.discardStaged.committed? key = t.committed? key :=
    congrFun (congrArg Layers.confirmed reverted) key
  refine ⟨fun key => ?_, fun key => ?_, soundPushed.hasStaged_eq_false settled,
    soundReplica.hasStaged_eq_false settledReplica, fun c member => ?_⟩
  · rw [← soundPushed.get?_layers, settled.get?, settledPushed, ← sound.get?_layers]
    rfl
  · have knownReads : t.discardStaged.get? key = t.layers.confirmed key := by
      rw [← soundReverted.get?_layers, settledReverted.get?]
      exact known key
    rw [← soundReplica.get?_layers, settledReplica.get?, knownReads, ← sound.get?_layers,
      ← lists.foldl_confirm allowed, confirmed_layers, confirmed_layers, ← known]
    rw [applyDiff_eq_afterChanges, committed?_afterChanges]
  · have waits := (lists.exact c).mp member
    cases c with
    | set key v => exact allowed key v waits
    | remove key => trivial

/-- A course after which a value waits under "x" and the removal of another under "y". -/
def draft : List TableCall :=
  [.apply (.named "x") (.ofId ⟨1⟩), .apply (.named "y") (.ofId ⟨2⟩),
    .edit (.set (.named "x") (.ofId ⟨3⟩)), .edit (.remove (.named "y"))]

/-- Once the draft is pushed, the replica has the value and has dropped the other. -/
theorem draft_reaches_replica :
    (∃ t', Table.push (fun _ => .ok ()) (Table.empty.perform draft) = .ok 2 t' ∧
      t'.get? (.named "x") = (Table.empty.perform draft).get? (.named "x")) ∧
    ((Table.empty.perform draft).discardStaged.applyDiff
      (Table.empty.perform draft).stagedDiff).1.get? (.named "x") = some (.ofId ⟨3⟩) ∧
    ((Table.empty.perform draft).discardStaged.applyDiff
      (Table.empty.perform draft).stagedDiff).1.get? (.named "y") = none := by
  have pushed : Table.push (fun _ => .ok ()) (Table.empty.perform draft) =
      .ok 2 (Table.empty.perform draft).commitStaged := rfl
  obtain ⟨sender, replica, -⟩ := replica_agrees rfl pushed
  refine ⟨⟨_, pushed, sender (.named "x")⟩, ?_, ?_⟩
  · rw [replica]
    decide +kernel
  · rw [replica]
    decide +kernel

/-- A table in which a zero waits to take the place of that of the other sign. -/
def rezeroed : Table :=
  Table.empty.perform
    [.apply (.named "x") (zeroOf false), .edit (.set (.named "x") (zeroOf true))]

/-- The pushed zero is read by the sender, and does not replace that of the replica. -/
theorem replica_keeps_zero :
    (∃ t', Table.push (fun _ => .ok ()) rezeroed = .ok 1 t' ∧
      t'.get? (.named "x") = some (zeroOf true)) ∧
    (rezeroed.discardStaged.applyDiff rezeroed.stagedDiff).1.get? (.named "x") =
      some (zeroOf false) ∧
    zeroOf true ≠ zeroOf false :=
  ⟨⟨rezeroed.commitStaged, rfl, by decide +kernel⟩, by decide +kernel, by decide +kernel⟩

end Table

end SignalGraph
