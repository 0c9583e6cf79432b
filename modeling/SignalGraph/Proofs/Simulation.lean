import SignalGraph.Proofs.Overlay

/-! # What calls do to tables

All that can be done to a table does to the two maps for which it stands what its name says.
-/

namespace SignalGraph

namespace Table

variable {t : Table} {key other : Key}

theorem layers_modify {f : TableEntry → TableEntry} (same : ∀ e, (f e).key = e.key)
    {e : TableEntry} (found : t.entry? key = some e) :
    (t.modify key f).layers = t.layers.put key (f e).committed (f e).pending? := by
  ext1 <;> funext other <;>
    simp only [layers, committed?, pending?, Layers.put, t.entry?_modify same] <;> split
  all_goals first
    | rfl
    | simp_all

theorem layers_append {e : TableEntry} (absent : t.entry? e.key = none) :
    (t.append e).layers = t.layers.put e.key e.committed e.pending? := by
  ext1 <;> funext other <;> simp only [layers, committed?, pending?, Layers.put, t.entry?_append] <;>
    split
  all_goals simp_all

theorem layers_erase (t : Table) (key : Key) : (t.erase key).layers = t.layers.put key none none := by
  ext1 <;> funext other <;> simp only [layers, committed?, pending?, Layers.put, t.entry?_erase] <;>
    split
  all_goals rfl

theorem erase_of_absent (absent : t.entry? key = none) : t.erase key = t := by
  have all : ∀ e ∈ t.entries, e.key ≠ key := by simpa using List.find?_eq_none.mp absent
  exact congrArg Table.mk (List.filter_eq_self.mpr (by simpa using all))

/-- What is to be read off the table that a call leaves. -/
def reading : EStateM.Result Error Table Unit → EStateM.Result Error Layers Unit
  | .ok () t => .ok () t.layers
  | .error e t => .error e t.layers

/-- Whether a call does to a table what it does to the two maps, keeps the table sound, and leaves
    it as it was if it is refused. -/
structure Simulates (t : Table) (call : TableCall) : Prop where
  step : t.layers.Step call (reading (call.action t))
  sound : (call.action.after t).Sound
  refusal : ∀ e t', call.action t = .error e t' → t' = t

theorem Simulates.ofOk {call : TableCall} {u : Table} (done : call.action t = .ok () u)
    (step : t.layers.Step call (.ok () u.layers)) (sound : u.Sound) : t.Simulates call := by
  constructor
  case step => exact done ▸ step
  case sound =>
    rw [Attempt.after, done]
    exact sound
  case refusal =>
    intro e t' refused
    cases done.symm.trans refused

theorem Simulates.ofError {call : TableCall} {e : Error} (refused : call.action t = .error e t)
    (step : t.layers.Step call (.error e t.layers)) (sound : t.Sound) : t.Simulates call := by
  constructor
  case step => exact refused ▸ step
  case sound =>
    rw [Attempt.after, refused]
    exact sound
  case refusal =>
    intro e' t' refused'
    cases refused.symm.trans refused'
    rfl

theorem Sound.set (sound : t.Sound) (key : Key) (v : Value) :
    t.Simulates (.edit (.set key v)) := by
  cases allowed : key.validate v with
  | error e =>
      refine .ofError ?_ (.setRefused allowed) sound
      simp [TableCall.action, TableEdit.action, Table.set, Attempt.bind_apply, allowed]
  | ok _ =>
      have step := Layers.Step.set (l := t.layers) allowed
      cases found : t.entry? key with
      | none =>
          refine .ofOk (u := t.append ⟨key, none, some v, false⟩) ?_ ?_
            (sound.append found (.of_kept (.inr (Option.some_ne_none v)) rfl))
          · simp [TableCall.action, TableEdit.action, Table.set, Attempt.bind_apply, allowed, found]
          · rw [layers_append found]
            simpa [Layers.stage, layers, committed?, found, TableEntry.pending?] using step
      | some e =>
          let f (e : TableEntry) : TableEntry := { e with staged := some v, removed := false }
          refine .ofOk (u := t.modify key f) ?_ ?_
            (sound.modify (fun _ => rfl) fun e' _ => .of_kept (.inr (Option.some_ne_none v)) rfl)
          · simp [TableCall.action, TableEdit.action, Table.set, Attempt.bind_apply, allowed, found,
              f]
          · rw [layers_modify (f := f) (fun _ => rfl) found]
            simpa [Layers.stage, layers, committed?, found, TableEntry.pending?, f] using step

theorem Sound.remove (sound : t.Sound) (key : Key) : t.Simulates (.edit (.remove key)) := by
  have visible := sound.get?_layers key
  cases seen : t.get? key with
  | none =>
      refine .ofError ?_ (.removeRefused (visible.trans seen)) sound
      simp [TableCall.action, TableEdit.action, Table.remove, Table.get, Attempt.bind_apply, seen]
  | some v =>
      have step := Layers.Step.remove (show t.layers.get? key ≠ none by simp [visible, seen])
      cases found : t.entry? key with
      | none => simp [get?, found] at seen
      | some e =>
          obtain ⟨k, committed, staged, removed⟩ := e
          cases committed with
          | none =>
              refine .ofOk (u := t.erase key) ?_ ?_ (sound.erase key)
              · simp only [TableCall.action, TableEdit.action, Table.remove, Table.get, seen, found,
                  Attempt.bind_apply, Attempt.current_apply, Attempt.demand_ok,
                  Attempt.change_apply, Attempt.pure_apply]
              · rw [layers_erase]
                simpa [Layers.stage, layers, committed?, found] using step
          | some w =>
              let f (e : TableEntry) : TableEntry := { e with staged := none, removed := true }
              refine .ofOk (u := t.modify key f) ?_ ?_ (sound.modify (fun _ => rfl) ?_)
              · simp only [TableCall.action, TableEdit.action, Table.remove, Table.get, seen, found,
                  Attempt.bind_apply, Attempt.current_apply, Attempt.demand_ok,
                  Attempt.change_apply, Attempt.pure_apply, f]
              · rw [layers_modify (f := f) (fun _ => rfl) found]
                simpa [Layers.stage, layers, committed?, found, TableEntry.pending?, f] using step
              · intro e' found'
                obtain rfl := Option.some.inj (found.symm.trans found')
                exact ⟨.inl (Option.some_ne_none w), fun _ => ⟨Option.some_ne_none w, rfl⟩⟩

theorem Sound.layers_discardStaged (sound : t.Sound) :
    t.discardStaged.layers = t.layers.revert ∧ t.discardStaged.Sound := by
  have kept := sound.filterMap key_of_revert? fun e e' worked => by
    simp only [TableEntry.revert?] at worked
    split at worked
    · rename_i confirmed
      obtain rfl := Option.some.inj worked
      exact .of_kept (.inl (by simpa [Option.isSome_iff_ne_none] using confirmed)) rfl
    · cases worked
  refine ⟨?_, kept⟩
  ext1 <;> funext key
  · exact (TableEdit.discard_keeps sound.unique).committed key
  · simp only [layers, pending?, discardStaged, Layers.revert,
      sound.unique.entry?_filterMap key_of_revert?]
    cases t.entry? key with
    | none => rfl
    | some e => cases confirmed : e.committed <;> simp [TableEntry.revert?, confirmed,
        TableEntry.pending?]

theorem Sound.layers_commitStaged (sound : t.Sound) :
    t.commitStaged.layers = t.layers.settle ∧ t.commitStaged.Sound := by
  have kept := sound.filterMap key_of_commit? fun e e' worked => by
    simp only [TableEntry.commit?] at worked
    split at worked
    · obtain rfl := Option.some.inj worked
      exact .of_kept (.inl (Option.some_ne_none _)) rfl
    · cases worked
  refine ⟨?_, kept⟩
  ext1 <;> funext key
  · exact (sound.unique.committed?_commitStaged key).trans (sound.get?_layers key).symm
  · simp only [layers, pending?, commitStaged, Layers.settle,
      sound.unique.entry?_filterMap key_of_commit?]
    cases t.entry? key with
    | none => rfl
    | some e =>
        simp only [Option.bind_some, TableEntry.commit?]
        split <;> rfl

theorem Sound.push (sound : t.Sound) (send : Diff → Except Error Unit) :
    t.Simulates (.edit (.push send)) := by
  have lists := sound.stagedDiff_lists
  cases nothing : t.stagedDiff.isEmpty with
  | true =>
      refine .ofOk (u := t) ?_ (.pushNothing ((stagedDiff_isEmpty_iff lists).mp nothing)) sound
      simp [TableCall.action, TableEdit.action, Table.push, Attempt.bind_apply, nothing]
  | false =>
      cases sent : send t.stagedDiff with
      | error e =>
          refine .ofError ?_ (.pushRefused lists nothing sent) sound
          simp [TableCall.action, TableEdit.action, Table.push, Attempt.bind_apply, nothing, sent]
      | ok _ =>
          obtain ⟨settled, kept⟩ := sound.layers_commitStaged
          refine .ofOk (u := t.commitStaged) ?_ (settled ▸ .push lists nothing sent) kept
          simp only [TableCall.action, TableEdit.action, Table.push, nothing, sent,
            Bool.false_eq_true, ↓reduceIte, Attempt.bind_apply, Attempt.current_apply,
            Attempt.demand_ok, Attempt.change_apply, Attempt.pure_apply]

/-! ## Calls of the network -/

theorem apply_eq_of_error {key : Key} {v : Value} {e : Error} (refused : key.validate v = .error e)
    (t : Table) : apply key v t = .error e t := by
  simp only [apply, Attempt.bind_apply, refused, Attempt.demand_error]

theorem Sound.apply_ok (sound : t.Sound) {v : Value} (allowed : key.validate v = .ok ()) :
    ∃ changed t', apply key v t = .ok changed t' ∧ t'.Sound ∧
      t'.layers = t.layers.confirm key (some (Layers.renew v (t.layers.confirmed key))) := by
  simp only [apply, Attempt.bind_apply, allowed, Attempt.demand_ok, Attempt.current_apply,
    Layers.confirm, confirmed_layers, pending_layers]
  cases found : t.entry? key with
  | none =>
      refine ⟨true, _, rfl, sound.append found (.of_kept (.inl (Option.some_ne_none v)) rfl), ?_⟩
      rw [layers_append found, committed?, pending?, found]
      rfl
  | some e =>
      have own := sound.entry found
      let kept (e : TableEntry) : TableEntry := { e with removed := false }
      let renewed (e : TableEntry) : TableEntry := { e with committed := some v }
      have waits : (kept e).pending? = Pending.yield e.pending? := own.pending?_keep
      have soundKept : (t.modify key kept).Sound := sound.modify (fun _ => rfl) fun e' found' => by
        obtain rfl := Option.some.inj (found.symm.trans found')
        exact .of_kept own.holds rfl
      have layersKept := layers_modify (f := kept) (fun _ => rfl) found
      simp only [Attempt.change_apply, Attempt.bind_apply]
      rw [committed?_of_entry found, pending?_of_entry found, ← waits]
      cases same : e.committed.any (·.eqv v) with
      | true =>
          refine ⟨false, t.modify key kept, rfl, soundKept, layersKept.trans ?_⟩
          obtain ⟨w, confirmed, eqv⟩ := (Option.any_eq_true ..).mp same
          rw [confirmed, Layers.renew, if_pos eqv, ← confirmed]
      | false =>
          have foundKept : Table.entry? (t.modify key kept) key = some (kept e) := by
            rw [t.entry?_modify (f := kept) fun _ => rfl, if_pos rfl, found, Option.map_some]
          refine ⟨true, (t.modify key kept).modify key renewed, rfl,
            soundKept.modify (fun _ => rfl) ?_, ?_⟩
          · intro e' found'
            obtain rfl := Option.some.inj (foundKept.symm.trans found')
            exact .of_kept (.inl (Option.some_ne_none v)) rfl
          · have other : Layers.renew v e.committed = v := by
              cases confirmed : e.committed with
              | none => rfl
              | some w => exact if_neg (by simpa [confirmed] using same)
            rw [layers_modify (f := renewed) (fun _ => rfl) foundKept, layersKept,
              Layers.put_put, other]
            rfl

theorem Sound.applyRemoval (sound : t.Sound) (key : Key) :
    (t.applyRemoval key).1.layers = t.layers.confirm key none ∧ (t.applyRemoval key).1.Sound := by
  simp only [Table.applyRemoval, Layers.confirm, pending_layers]
  cases found : t.entry? key with
  | none =>
      refine ⟨?_, sound⟩
      rw [pending?, found]
      have gone := t.layers_erase key
      rwa [erase_of_absent found] at gone
  | some e =>
      have own := sound.entry found
      rw [pending?_of_entry found, ← own.pending?_keep]
      dsimp only
      cases staged : e.staged with
      | none =>
          refine ⟨?_, sound.erase key⟩
          simpa [TableEntry.pending?, staged] using t.layers_erase key
      | some v =>
          let f (e : TableEntry) : TableEntry := { e with committed := none, removed := false }
          refine ⟨?_, sound.modify (f := f) (fun _ => rfl) ?_⟩
          · refine (layers_modify (f := f) (fun _ => rfl) found).trans ?_
            simp [f, TableEntry.pending?, staged]
          · intro e' found'
            obtain rfl := Option.some.inj (found.symm.trans found')
            exact .of_kept (.inr (by simp [f, staged])) rfl

theorem Sound.applyChange (sound : t.Sound) (c : Change) :
    (t.applyChange c).1.layers = t.layers.change c ∧ (t.applyChange c).1.Sound := by
  cases c with
  | remove key => exact sound.applyRemoval key
  | set key v =>
      cases allowed : key.validate v with
      | error e =>
          simp only [Table.applyChange, apply_eq_of_error allowed, Layers.change, allowed]
          exact ⟨rfl, sound⟩
      | ok _ =>
          obtain ⟨changed, t', applied, kept, layers⟩ := sound.apply_ok allowed
          simp only [Table.applyChange, applied, Layers.change, allowed]
          exact ⟨layers, kept⟩

theorem Sound.applyDiff (sound : t.Sound) (d : Diff) :
    (t.applyDiff d).1.layers = d.changes.foldl Layers.change t.layers ∧ (t.applyDiff d).1.Sound := by
  rw [applyDiff_fst]
  induction d.changes generalizing t with
  | nil => exact ⟨rfl, sound⟩
  | cons c rest ih =>
      obtain ⟨changed, kept⟩ := sound.applyChange c
      rw [List.foldl_cons, List.foldl_cons, ← changed]
      exact ih kept

/-- Every call does to a sound table what it does to the two maps that the table stands for. -/
theorem Sound.simulates (sound : t.Sound) (call : TableCall) : t.Simulates call := by
  cases call with
  | edit edit =>
      cases edit with
      | set key v => exact sound.set key v
      | remove key => exact sound.remove key
      | discard =>
          obtain ⟨reverted, kept⟩ := sound.layers_discardStaged
          exact .ofOk rfl (reverted ▸ .discard) kept
      | push send => exact sound.push send
  | apply key v =>
      cases allowed : key.validate v with
      | error e =>
          refine .ofError ?_ (.applyRefused allowed) sound
          simp only [TableCall.action, Attempt.bind_apply, apply_eq_of_error allowed]
      | ok _ =>
          obtain ⟨changed, t', applied, kept, layers⟩ := sound.apply_ok allowed
          refine .ofOk ?_ (layers ▸ .apply allowed) kept
          simp only [TableCall.action, Attempt.bind_apply, applied, Attempt.pure_apply]
  | applyRemoval key =>
      obtain ⟨layers, kept⟩ := sound.applyRemoval key
      exact .ofOk rfl (layers ▸ .applyRemoval) kept
  | applyDiff d =>
      obtain ⟨layers, kept⟩ := sound.applyDiff d
      exact .ofOk rfl (layers ▸ .applyDiff) kept

/-! ## Runs -/

/-- The table once calls have been made, one after another. -/
def perform (t : Table) (calls : List TableCall) : Table :=
  calls.foldl (fun t call => call.action.after t) t

theorem Entrywise.perform {K : Key → Prop} {T : Table → Prop} (entrywise : Entrywise K T)
    (own : T t) {calls : List TableCall} (may : ∀ call ∈ calls, ∀ key ∈ call.keys, K key) :
    T (t.perform calls) :=
  List.foldlRecOn calls _ (motive := T) own fun _ own call member =>
    entrywise.action own (may call member)

/-- Whether a table is a way to hold two maps: what is to be read from it is to be read from them,
    and what waits is sent in table order, values first. -/
structure Refines (t : Table) (l : Layers) : Prop where
  confirmed : ∀ key, t.committed? key = l.confirmed key
  pending : ∀ key, t.pending? key = l.pending key
  unique : t.Unique
  removal : ∀ key, l.pending key = some .remove → l.confirmed key ≠ none
  visible : ∀ key, t.get? key = l.get? key
  hasStaged : t.hasStaged ↔ ∃ key, l.pending key ≠ none
  stagedDiff : l.Lists t.stagedDiff
  order : ∃ sets removals, t.stagedDiff.changes = sets ++ removals ∧
    (∀ c ∈ sets, c.pending ≠ .remove) ∧ (sets.map Change.key).Sublist t.keys ∧
    (∀ c ∈ removals, c.pending = .remove) ∧
    (removals.map Change.key).Sublist (t.entries.map TableEntry.key)

theorem Sound.refines (sound : t.Sound) : t.Refines t.layers where
  confirmed _ := rfl
  pending _ := rfl
  unique := sound.unique
  removal _ := sound.confirmed_of_remove
  visible key := (sound.get?_layers key).symm
  hasStaged := sound.hasStaged_iff
  stagedDiff := sound.stagedDiff_lists
  order := ⟨t.stagedSets, t.stagedRemovals, t.changes_stagedDiff,
    fun c member => ((sound.mem_stagedSets_iff c).mp member).1, sound.keys_stagedSets,
    fun c member => ((sound.mem_stagedRemovals_iff c).mp member).1, t.keys_stagedRemovals⟩

theorem Sound.perform (sound : t.Sound) (calls : List TableCall) :
    (t.perform calls).Sound ∧ t.layers.Run calls (t.perform calls).layers := by
  induction calls generalizing t with
  | nil => exact ⟨sound, .nil⟩
  | cons call calls ih =>
      obtain ⟨step, kept, refusal⟩ := sound.simulates call
      obtain ⟨soundAfter, rest⟩ := ih kept
      refine ⟨soundAfter, ?_⟩
      cases outcome : call.action t with
      | ok _ t' =>
          have came : call.action.after t = t' := by rw [Attempt.after, outcome]
          rw [came] at rest
          rw [outcome] at step
          rw [Table.perform, List.foldl_cons, came]
          exact .done step rest
      | error e t' =>
          obtain rfl := refusal e t' outcome
          have came : call.action.after t' = t' := by rw [Attempt.after, outcome]
          rw [came] at rest
          rw [outcome] at step
          rw [Table.perform, List.foldl_cons, came]
          exact .refused step rest

/-- Whatever is done to a table that was empty, it holds what the same calls make of two empty
    maps; any further call comes out on it as on them, and leaves it as it was if it is refused. -/
theorem perform_refines_layers (calls : List TableCall) :
    ∃ l, Layers.Run .empty calls l ∧ (Table.empty.perform calls).Refines l ∧
      ∀ call : TableCall,
        l.Step call (reading (call.action (Table.empty.perform calls))) ∧
        ∀ e t, call.action (Table.empty.perform calls) = .error e t →
          t = Table.empty.perform calls := by
  obtain ⟨sound, run⟩ := Sound.empty.perform calls
  refine ⟨_, run, sound.refines, ?_⟩
  intro call
  obtain ⟨step, -, refusal⟩ := sound.simulates call
  exact ⟨step, refusal⟩

def zeroOf (negative : Bool) : Value :=
  ⟨.float64 [.ofMagnitude negative 0], .inr Nat.one_ne_zero⟩

/-- A zero does not replace the zero of the other sign, to which it is equal. -/
theorem zero_stays_over_zero :
    Key.validate (.named "x") (zeroOf true) = .ok () ∧ zeroOf true ≠ zeroOf false ∧
      (Table.empty.perform
        [.apply (.named "x") (zeroOf false), .apply (.named "x") (zeroOf true)]).committed?
          (.named "x") = some (zeroOf false) :=
  ⟨rfl, by decide +kernel, by decide +kernel⟩

end Table

end SignalGraph
