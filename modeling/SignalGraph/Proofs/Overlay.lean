import SignalGraph.Proofs.Layers

/-! # Tables as two maps

A table stands for two maps: what the network has confirmed under each key, and what waits to be
sent for it. All that is read from a table is read from the second map laid over the first.
-/

namespace SignalGraph

/-- What waits to be sent for a key. -/
inductive Pending where
  | set (value : Value)
  | remove
  deriving Repr, DecidableEq

/-- What still waits for a key once the network has spoken of it: a removal gives way, a value
    stays. -/
def Pending.yield : Option Pending → Option Pending
  | some (.set v) => some (.set v)
  | some .remove | none => none

def Change.pending : Change → Pending
  | .set _ v => .set v
  | .remove _ => .remove

/-- What can be done to a table, by hand or by the network. -/
inductive TableCall where
  | edit (edit : TableEdit)
  | apply (key : Key) (value : Value)
  | applyRemoval (key : Key)
  | applyDiff (diff : Diff)

def TableCall.action : TableCall → Attempt Table Unit
  | edit e => e.action
  | apply key v => do let _ ← Table.apply key v
  | applyRemoval key => Attempt.change fun t => (t.applyRemoval key).1
  | applyDiff d => Attempt.change fun t => (t.applyDiff d).1

/-- The keys that a call names. -/
def TableCall.keys : TableCall → List Key
  | edit (.set key _) | edit (.remove key) | apply key _ | applyRemoval key => [key]
  | edit .discard | edit (.push _) => []
  | applyDiff d => d.changes.map Change.key

/-- What is kept of single entries, calls keep whose keys are of some sort. -/
theorem Table.Entrywise.action {K : Key → Prop} {T : Table → Prop} (entrywise : Entrywise K T)
    {t : Table} (own : T t) {call : TableCall} (may : ∀ key ∈ call.keys, K key) :
    T (call.action.after t) := by
  cases call with
  | edit e =>
      cases e with
      | set key v => exact entrywise.set own (may key (List.mem_singleton_self key)) v
      | remove key =>
          rw [TableCall.action, TableEdit.action, Attempt.after_bind_pure]
          exact entrywise.remove own key
      | discard => exact entrywise.filterMap own key_of_revert?
      | push send =>
          rw [TableCall.action, TableEdit.action, Attempt.after_bind_pure, TableEdit.after_push]
          split
          · exact entrywise.commitStaged own
          · exact own
  | apply key v =>
      rw [TableCall.action, Attempt.after_bind_pure]
      exact entrywise.apply own (may key (List.mem_singleton_self key)) v
  | applyRemoval key => exact entrywise.applyRemoval own key
  | applyDiff d =>
      exact entrywise.applyDiff own fun c member => may c.key (List.mem_map_of_mem member)

@[ext] structure Layers where
  confirmed : Key → Option Value
  pending : Key → Option Pending

/-! ## What calls do to layers -/

namespace Layers

variable {l : Layers}

def empty : Layers := ⟨fun _ => none, fun _ => none⟩

/-- The value that readers see: what waits, else what is confirmed. -/
def get? (l : Layers) (key : Key) : Option Value :=
  match l.pending key with
  | some (.set v) => some v
  | some .remove => none
  | none => l.confirmed key

/-- The layers with what is confirmed and what waits for one key put in place. -/
def put (l : Layers) (key : Key) (v : Option Value) (p : Option Pending) : Layers where
  confirmed := fun other => if key = other then v else l.confirmed other
  pending := fun other => if key = other then p else l.pending other

def stage (l : Layers) (key : Key) (p : Option Pending) : Layers := l.put key (l.confirmed key) p

@[simp] theorem put_put (l : Layers) (key : Key) (v w : Option Value) (p q : Option Pending) :
    (l.put key v p).put key w q = l.put key w q := by
  ext1 <;> funext other <;> simp only [put] <;> split <;> rfl

/-- The layers once all that waits is taken. -/
def settle (l : Layers) : Layers := ⟨l.get?, fun _ => none⟩

def revert (l : Layers) : Layers := { l with pending := fun _ => none }

def confirm (l : Layers) (key : Key) (v : Option Value) : Layers :=
  l.put key v (Pending.yield (l.pending key))

/-- A confirmed value once another has come for it: an equal one does not replace it. -/
def renew (v : Value) : Option Value → Value
  | some w => if w.eqv v then w else v
  | none => v

/-- The layers once the network has said one change; one that the catalogue does not allow is
    skipped. -/
def change (l : Layers) : Change → Layers
  | .set key v =>
    if (key.validate v).isOk then l.confirm key (some (renew v (l.confirmed key))) else l
  | .remove key => l.confirm key none

/-- Whether a diff says just what waits, each key once. -/
structure Lists (l : Layers) (d : Diff) : Prop where
  once : (d.changes.map Change.key).Nodup
  exact : ∀ c, c ∈ d.changes ↔ l.pending c.key = some c.pending

/-- What comes of a call. A sender is handed what waits, in some order, unless nothing does. -/
inductive Step (l : Layers) : TableCall → EStateM.Result Error Layers Unit → Prop
  | set {key : Key} {v : Value} (allowed : key.validate v = .ok ()) :
      Step l (.edit (.set key v)) (.ok () (l.stage key (some (.set v))))
  | setRefused {key : Key} {v : Value} {e : Error} (refused : key.validate v = .error e) :
      Step l (.edit (.set key v)) (.error e l)
  | remove {key : Key} (seen : l.get? key ≠ none) :
      Step l (.edit (.remove key))
        (.ok () (l.stage key (if l.confirmed key = none then none else some .remove)))
  | removeRefused {key : Key} (unseen : l.get? key = none) :
      Step l (.edit (.remove key)) (.error (.missing (.property key)) l)
  | discard : Step l (.edit .discard) (.ok () l.revert)
  | push {send : Diff → Except Error Unit} {d : Diff} (lists : l.Lists d)
      (some : d.isEmpty = false) (taken : send d = .ok ()) :
      Step l (.edit (.push send)) (.ok () l.settle)
  | pushRefused {send : Diff → Except Error Unit} {d : Diff} {e : Error} (lists : l.Lists d)
      (some : d.isEmpty = false) (refused : send d = .error e) :
      Step l (.edit (.push send)) (.error e l)
  | pushNothing {send : Diff → Except Error Unit} (nothing : ∀ key, l.pending key = none) :
      Step l (.edit (.push send)) (.ok () l)
  | apply {key : Key} {v : Value} (allowed : key.validate v = .ok ()) :
      Step l (.apply key v) (.ok () (l.confirm key (some (renew v (l.confirmed key)))))
  | applyRefused {key : Key} {v : Value} {e : Error} (refused : key.validate v = .error e) :
      Step l (.apply key v) (.error e l)
  | applyRemoval {key : Key} : Step l (.applyRemoval key) (.ok () (l.confirm key none))
  | applyDiff {d : Diff} : Step l (.applyDiff d) (.ok () (d.changes.foldl change l))

/-- What calls make of layers, one after another; those that are refused make nothing of them. -/
inductive Run : Layers → List TableCall → Layers → Prop
  | nil {l : Layers} : Run l [] l
  | done {l m n : Layers} {call : TableCall} {calls : List TableCall}
      (step : l.Step call (.ok () m)) (rest : Run m calls n) : Run l (call :: calls) n
  | refused {l n : Layers} {call : TableCall} {calls : List TableCall} {e : Error}
      (step : l.Step call (.error e l)) (rest : Run l calls n) : Run l (call :: calls) n

end Layers

/-! ## Sound tables -/

namespace TableEntry

def pending? (e : TableEntry) : Option Pending :=
  if e.removed then some .remove else e.staged.map .set

/-- Whether an entry holds something, and waits to be removed only where that is confirmed and
    nothing else waits. -/
structure Sound (e : TableEntry) : Prop where
  holds : e.committed ≠ none ∨ e.staged ≠ none
  removed : e.removed → e.committed ≠ none ∧ e.staged = none

theorem Sound.of_kept {e : TableEntry} (holds : e.committed ≠ none ∨ e.staged ≠ none)
    (kept : e.removed = false) : e.Sound :=
  ⟨holds, fun removed => absurd (removed.symm.trans kept) (by simp)⟩

/-- Taking back a removal leaves what does not give way. -/
theorem Sound.pending?_keep {e : TableEntry} (own : e.Sound) :
    pending? { e with removed := false } = Pending.yield e.pending? := by
  cases removed : e.removed with
  | true => simp [pending?, removed, (own.removed removed).2, Pending.yield]
  | false => cases staged : e.staged <;> simp [pending?, removed, staged, Pending.yield]

end TableEntry

namespace Table

variable {t : Table} {key other : Key}

def pending? (t : Table) (key : Key) : Option Pending := (t.entry? key).bind TableEntry.pending?

/-- The two maps that a table stands for. -/
def layers (t : Table) : Layers := ⟨t.committed?, t.pending?⟩

@[simp] theorem confirmed_layers (t : Table) : t.layers.confirmed = t.committed? := rfl

@[simp] theorem pending_layers (t : Table) : t.layers.pending = t.pending? := rfl

theorem committed?_of_entry {e : TableEntry} (found : t.entry? key = some e) :
    t.committed? key = e.committed := by
  rw [committed?, found, Option.bind_some]

theorem pending?_of_entry {e : TableEntry} (found : t.entry? key = some e) :
    t.pending? key = e.pending? := by
  rw [pending?, found, Option.bind_some]

structure Sound (t : Table) : Prop where
  unique : t.Unique
  entries : ∀ e ∈ t.entries, e.Sound

theorem Unique.entry?_eq_some_iff (unique : t.Unique) {e : TableEntry} :
    t.entry? key = some e ↔ e ∈ t.entries ∧ e.key = key := by
  obtain ⟨entries⟩ := t
  simp only [Unique, Table.entry?] at *
  induction entries with
  | nil => simp
  | cons first rest ih =>
      obtain ⟨fresh, restUnique⟩ := List.nodup_cons.mp unique
      have later := ih restUnique
      by_cases own : first.key = key
      · have apart : ∀ e' ∈ rest, e'.key ≠ key := fun e' member same =>
          fresh (List.mem_map.mpr ⟨e', member, same.trans own.symm⟩)
        grind
      · grind

theorem Sound.entry (sound : t.Sound) {e : TableEntry} (found : t.entry? key = some e) :
    e.Sound :=
  sound.entries e (sound.unique.entry?_eq_some_iff.mp found).1

theorem Sound.empty : Sound .empty :=
  ⟨.empty, fun _ member => absurd member List.not_mem_nil⟩

theorem Sound.modify (sound : t.Sound) {f : TableEntry → TableEntry}
    (same : ∀ e, (f e).key = e.key) (each : ∀ e, t.entry? key = some e → (f e).Sound) :
    (t.modify key f).Sound := by
  refine ⟨Unique.entrywise.modify sound.unique same key, ?_⟩
  intro e member
  obtain ⟨e', among, rfl⟩ := List.mem_map.mp member
  split
  · rename_i here
    exact each e' (sound.unique.entry?_eq_some_iff.mpr ⟨among, here⟩)
  · exact sound.entries e' among

theorem Sound.erase (sound : t.Sound) (key : Key) : (t.erase key).Sound :=
  ⟨Unique.entrywise.erase sound.unique key, fun e member => sound.entries e (List.mem_filter.mp member).1⟩

theorem Sound.append (sound : t.Sound) {e : TableEntry} (absent : t.entry? e.key = none)
    (own : e.Sound) : (t.append e).Sound := by
  refine ⟨Unique.entrywise.append sound.unique trivial absent, ?_⟩
  intro e' member
  rcases List.mem_append.mp member with before | last
  · exact sound.entries e' before
  · exact List.mem_singleton.mp last ▸ own

theorem Sound.filterMap (sound : t.Sound) {f : TableEntry → Option TableEntry}
    (same : ∀ e e', f e = some e' → e'.key = e.key) (each : ∀ e e', f e = some e' → e'.Sound) :
    (Table.mk (t.entries.filterMap f)).Sound := by
  refine ⟨Unique.entrywise.filterMap sound.unique same, ?_⟩
  intro e' member
  obtain ⟨e, -, worked⟩ := List.mem_filterMap.mp member
  exact each e e' worked

/-! ## Reading -/

/-- Readers see what waits over what is confirmed. -/
theorem Sound.get?_layers (sound : t.Sound) (key : Key) : t.layers.get? key = t.get? key := by
  simp only [layers, Layers.get?, pending?, committed?, get?]
  cases found : t.entry? key with
  | none => rfl
  | some e =>
      have own := sound.entry found
      obtain ⟨k, committed, staged, removed⟩ := e
      cases removed <;> cases staged <;> simp [TableEntry.pending?, TableEntry.visible?]

theorem exists_removed (waits : t.pending? key = some .remove) :
    ∃ e, t.entry? key = some e ∧ e.removed := by
  obtain ⟨e, found, own⟩ := Option.bind_eq_some_iff.mp waits
  refine ⟨e, found, ?_⟩
  cases flag : e.removed with
  | true => rfl
  | false => simp [TableEntry.pending?, flag] at own

/-- A removal waits only for what is confirmed. -/
theorem Sound.confirmed_of_remove (sound : t.Sound) (waits : t.pending? key = some .remove) :
    t.committed? key ≠ none := by
  obtain ⟨e, found, removed⟩ := exists_removed waits
  simpa [committed?, found] using ((sound.entry found).removed removed).1

theorem Sound.hasStaged_iff (sound : t.Sound) :
    t.hasStaged ↔ ∃ key, t.layers.pending key ≠ none := by
  have each (e : TableEntry) : e.isStaged ↔ e.pending? ≠ none := by
    simp only [TableEntry.isStaged, TableEntry.pending?]
    cases e.removed <;> cases e.staged <;> simp
  simp only [hasStaged, List.any_eq_true, each, layers, pending?]
  constructor
  · rintro ⟨e, member, waits⟩
    refine ⟨e.key, ?_⟩
    rwa [sound.unique.entry?_eq_some_iff.mpr ⟨member, rfl⟩, Option.bind_some]
  · rintro ⟨key, waits⟩
    cases found : t.entry? key with
    | none => simp [found] at waits
    | some e =>
        rw [found, Option.bind_some] at waits
        exact ⟨e, (sound.unique.entry?_eq_some_iff.mp found).1, waits⟩

/-! ## What waits to be sent -/

/-- The values that wait to be sent, in table order. -/
def stagedSets (t : Table) : List Change :=
  t.entries.filterMap fun e => e.staged.map fun v => .set e.key v

/-- The removals that wait to be sent, in table order. -/
def stagedRemovals (t : Table) : List Change :=
  (t.entries.filter TableEntry.removed).map fun e => .remove e.key

theorem changes_stagedDiff (t : Table) :
    t.stagedDiff.changes = t.stagedSets ++ t.stagedRemovals := rfl

theorem Sound.mem_stagedSets_iff (sound : t.Sound) (c : Change) :
    c ∈ t.stagedSets ↔ c.pending ≠ .remove ∧ t.pending? c.key = some c.pending := by
  simp only [stagedSets, List.mem_filterMap, Option.map_eq_some_iff, pending?,
    Option.bind_eq_some_iff]
  constructor
  · rintro ⟨e, member, v, staged, rfl⟩
    have kept : e.removed = false := Bool.eq_false_iff.mpr fun removed => by
      simp [((sound.entries e member).removed removed).2] at staged
    exact ⟨Pending.noConfusion, e, sound.unique.entry?_eq_some_iff.mpr ⟨member, rfl⟩,
      by simp [TableEntry.pending?, kept, staged, Change.pending]⟩
  · rintro ⟨isSet, e, found, waits⟩
    obtain ⟨member, same⟩ := sound.unique.entry?_eq_some_iff.mp found
    cases c with
    | remove key => exact absurd rfl isSet
    | set key v =>
        refine ⟨e, member, v, ?_, congrArg (Change.set · v) same⟩
        cases removed : e.removed with
        | true => simp [TableEntry.pending?, removed, Change.pending] at waits
        | false => simpa [TableEntry.pending?, removed, Change.pending] using waits

theorem Sound.mem_stagedRemovals_iff (sound : t.Sound) (c : Change) :
    c ∈ t.stagedRemovals ↔ c.pending = .remove ∧ t.pending? c.key = some c.pending := by
  simp only [stagedRemovals, List.mem_map, List.mem_filter, pending?, Option.bind_eq_some_iff]
  constructor
  · rintro ⟨e, ⟨member, removed⟩, rfl⟩
    exact ⟨rfl, e, sound.unique.entry?_eq_some_iff.mpr ⟨member, rfl⟩,
      by simp [TableEntry.pending?, removed, Change.pending]⟩
  · rintro ⟨isRemoval, e, found, waits⟩
    obtain ⟨member, same⟩ := sound.unique.entry?_eq_some_iff.mp found
    cases c with
    | set key v => cases isRemoval
    | remove key =>
        refine ⟨e, ⟨member, ?_⟩, congrArg Change.remove same⟩
        cases removed : e.removed with
        | true => rfl
        | false => simp [TableEntry.pending?, removed, Change.pending] at waits

theorem Sound.keys_stagedSets (sound : t.Sound) :
    (t.stagedSets.map Change.key).Sublist t.keys := by
  obtain ⟨entries⟩ := t
  have own := sound.entries
  simp only [stagedSets, keys, toList] at *
  clear sound
  induction entries with
  | nil => exact .slnil
  | cons e rest ih =>
      have later := ih fun e' member => own e' (List.mem_cons_of_mem e member)
      have first := own e List.mem_cons_self
      obtain ⟨key, committed, staged, removed⟩ := e
      cases staged with
      | none =>
          cases visible : TableEntry.visible? ⟨key, committed, none, removed⟩ with
          | none => simpa [visible] using later
          | some v => simpa [visible] using later.cons key
      | some v =>
          have kept : removed = false := Bool.eq_false_iff.mpr fun removed =>
            absurd (first.removed removed).2 (by simp)
          simpa [kept, TableEntry.visible?, Change.key] using later.cons_cons key

theorem keys_stagedRemovals (t : Table) :
    (t.stagedRemovals.map Change.key).Sublist (t.entries.map TableEntry.key) := by
  rw [stagedRemovals, List.map_map]
  exact List.filter_sublist.map TableEntry.key

/-- Keys that readers see come in table order. -/
theorem keys_sublist (t : Table) : t.keys.Sublist (t.entries.map TableEntry.key) := by
  simp only [keys, toList, List.map_filterMap]
  induction t.entries with
  | nil => exact .slnil
  | cons e rest ih =>
      cases visible : e.visible? with
      | none => simpa [visible] using ih.cons e.key
      | some v => simpa [visible] using ih.cons_cons e.key

theorem Sound.stagedDiff_lists (sound : t.Sound) : t.layers.Lists t.stagedDiff := by
  constructor
  case once =>
    rw [changes_stagedDiff, List.map_append]
    refine List.nodup_append.mpr ⟨sound.unique.sublist (sound.keys_stagedSets.trans t.keys_sublist),
      sound.unique.sublist t.keys_stagedRemovals, ?_⟩
    rintro key setKey _ removalKey rfl
    obtain ⟨c, isSet, rfl⟩ := List.mem_map.mp setKey
    obtain ⟨c', isRemoval, same⟩ := List.mem_map.mp removalKey
    obtain ⟨set, waits⟩ := (sound.mem_stagedSets_iff c).mp isSet
    obtain ⟨removal, waits'⟩ := (sound.mem_stagedRemovals_iff c').mp isRemoval
    rw [same, waits] at waits'
    exact set ((Option.some.inj waits').trans removal)
  case exact =>
    intro c
    rw [changes_stagedDiff, List.mem_append, sound.mem_stagedSets_iff,
      sound.mem_stagedRemovals_iff]
    by_cases removal : c.pending = .remove <;> simp [removal, layers]

theorem stagedDiff_isEmpty_iff (lists : t.layers.Lists t.stagedDiff) :
    t.stagedDiff.isEmpty ↔ ∀ key, t.pending? key = none := by
  rw [Diff.isEmpty, List.isEmpty_iff]
  constructor
  · intro nothing key
    cases waits : t.pending? key with
    | none => rfl
    | some p =>
        have absent (c : Change) (same : c.key = key) : c.pending ≠ p := fun own => by
          have member := (lists.exact c).mpr (same ▸ own ▸ waits)
          simp [nothing] at member
        cases p with
        | set v => exact absurd rfl (absent (.set key v) rfl)
        | remove => exact absurd rfl (absent (.remove key) rfl)
  · intro nothing
    refine List.eq_nil_iff_forall_not_mem.mpr fun c member => ?_
    have waits := (lists.exact c).mp member
    simp only [layers, nothing c.key, reduceCtorEq] at waits

end Table

end SignalGraph
