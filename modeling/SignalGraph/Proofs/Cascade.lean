import SignalGraph.Proofs.Mismatch
import SignalGraph.Proofs.Selection

/-! # What goes with an object

An object that goes drags others along, and these yet others. The removal works them off one by one,
while it changes the records by which it finds them. What goes in the end is what was dragged along
from the start, each object once, and nothing else.
-/

namespace SignalGraph

open Relation (ReflTransGen)

/-! ## Dragging along -/

namespace Store

variable {s : Store} {id upper lower device signal : ObjectId}

/-- Whether an object is known to be a signal of a device. -/
def Owns (s : Store) (device signal : ObjectId) : Prop :=
  (s.find? signal).bind Record.device? = some device

/-- Whether a record cannot outlast another: a signal not its device, a link none of its two
    devices, a map no signal that it is attached to, on whatever slot, and no link either that has
    both its ends among the devices of the signals of the map. -/
def HangsOn (s : Store) (r upper : Record) : Prop :=
  match upper.kind with
  | .device => r.device? = some upper.id ∨ upper.id ∈ r.linkEnds
  | .signal => upper.id ∈ r.mapSignals
  | .link => r.kind = .map ∧
      ∀ device ∈ upper.linkEnds, ∃ signal ∈ r.mapSignals, s.Owns device signal
  | .map => False

/-- Whether an object that goes takes another with it, one that is still there. -/
def Drags (s : Store) (upper lower : ObjectId) : Prop :=
  ∃ u r, s.find? upper = some u ∧ s.find? lower = some r ∧ r.isLive ∧ s.HangsOn r u

theorem Drags.there (drags : s.Drags upper lower) : ¬ s.IsVacant lower := by
  obtain ⟨u, r, -, held, live, -⟩ := drags
  exact not_isVacant held live

theorem mem_mapDevices_iff {r : Record} :
    device ∈ s.mapDevices r ↔ ∃ signal ∈ r.mapSignals, s.Owns device signal := List.mem_filterMap

/-- The dependents of an object are those that it drags along. -/
theorem Indexed.mem_dependents_iff (indexed : s.Indexed) {u : Record}
    (held : s.find? upper = some u) (lower : ObjectId) :
    lower ∈ s.dependents upper u.kind ↔ s.Drags upper lower := by
  have drags : s.Drags upper lower ↔
      ∃ r, s.find? lower = some r ∧ r.isLive ∧ s.HangsOn r u := by
    simp only [Drags, held, Option.some.injEq, exists_and_left, exists_eq_left']
  obtain rfl := indexed.keyed upper u held
  rw [drags]
  cases kind : u.kind with
  | device =>
      simp only [dependents, List.mem_append]
      rw [indexed.mem_filter_live_iff fun r owned =>
          Record.kind_of_device? (of_decide_eq_true owned),
        indexed.mem_filter_live_iff fun r joined =>
          Record.kind_of_mem_linkEnds (of_decide_eq_true joined)]
      simp only [decide_eq_true_eq, HangsOn, kind, and_or_left, exists_or]
  | signal =>
      rw [dependents, indexed.mem_filter_live_iff fun r attached =>
        Record.kind_of_mem_mapSignals (of_decide_eq_true attached)]
      simp only [decide_eq_true_eq, HangsOn, kind]
  | link =>
      obtain ⟨first, second, ends⟩ : ∃ first second, u.linkEnds = [first, second] := by
        cases wiring : u.wiring <;> simp_all [Record.kind, Wiring.kind, Record.linkEnds]
      have hangs (r : Record) :
          first ∈ s.mapDevices r ∧ second ∈ s.mapDevices r ↔ s.HangsOn r u := by
        simp only [HangsOn, kind, ends, List.forall_mem_cons, List.not_mem_nil, false_implies,
          implies_true, and_true, mem_mapDevices_iff]
        refine ⟨fun both => ⟨?_, both⟩, And.right⟩
        obtain ⟨signal, attached, -⟩ := both.1
        exact Record.kind_of_mem_mapSignals attached
      simp only [dependents, held, Option.map_some, ends]
      rw [indexed.mem_filter_live_iff fun r passes => ?_]
      · simp only [decide_eq_true_eq, hangs]
      · have runs := (hangs r).mp (of_decide_eq_true passes)
        simp only [HangsOn, kind] at runs
        exact runs.1
  | map => simp [dependents, HangsOn, kind]

/-! ## Avalanches -/

/-- Whether a list names, each once, the objects that go if some do: those of them that are there,
    and all that is dragged along. -/
structure Avalanche (s : Store) (tops ids : List ObjectId) : Prop where
  nodup : ids.Nodup
  mem_iff : ∀ id, id ∈ ids ↔ ∃ top ∈ tops, ¬ s.IsVacant top ∧ ReflTransGen s.Drags top id

variable {tops ids : List ObjectId}

theorem not_isVacant_of_drags {top : ObjectId} (there : ¬ s.IsVacant top)
    (path : ReflTransGen s.Drags top id) : ¬ s.IsVacant id := by
  cases path with
  | refl => exact there
  | tail _ drags => exact drags.there

namespace Avalanche

theorem there (avalanche : s.Avalanche tops ids) (member : id ∈ ids) : ¬ s.IsVacant id := by
  obtain ⟨top, -, there, path⟩ := (avalanche.mem_iff id).mp member
  exact not_isVacant_of_drags there path

theorem mem_of_top (avalanche : s.Avalanche tops ids) (among : id ∈ tops)
    (there : ¬ s.IsVacant id) : id ∈ ids :=
  (avalanche.mem_iff id).mpr ⟨id, among, there, .refl⟩

/-- An avalanche takes along all that is dragged along by any part of it. -/
theorem closed (avalanche : s.Avalanche tops ids) (member : upper ∈ ids)
    (drags : s.Drags upper lower) : lower ∈ ids := by
  obtain ⟨top, among, there, path⟩ := (avalanche.mem_iff upper).mp member
  exact (avalanche.mem_iff lower).mpr ⟨top, among, there, path.tail drags⟩

theorem mem_iff_path (avalanche : s.Avalanche [id] ids) (there : ¬ s.IsVacant id)
    (other : ObjectId) : other ∈ ids ↔ ReflTransGen s.Drags id other := by
  rw [avalanche.mem_iff]
  simp only [List.mem_singleton, exists_eq_left, there, not_false_eq_true, true_and]

theorem nil (s : Store) : s.Avalanche [] [] := ⟨List.nodup_nil, by simp⟩

theorem ofIsVacant (vacant : s.IsVacant id) : s.Avalanche [id] [] :=
  ⟨List.nodup_nil, by simp [vacant]⟩

end Avalanche

/-- Whether a store is another in which just some objects have gone. -/
structure Without (s : Store) (gone : List ObjectId) (t : Store) : Prop where
  isVacant_iff : ∀ id, t.IsVacant id ↔ s.IsVacant id ∨ id ∈ gone
  drags_iff : ∀ upper lower, t.Drags upper lower ↔ s.Drags upper lower ∧ lower ∉ gone

namespace Without

variable {t : Store} {first rest : List ObjectId}

theorem path (without : s.Without first t) (path : ReflTransGen t.Drags upper lower) :
    ReflTransGen s.Drags upper lower :=
  ReflTransGen.mono (fun upper lower drags => ((without.drags_iff upper lower).mp drags).1) _ _ path

theorem nodup_append (without : s.Without first t) (firstNodup : first.Nodup)
    (avalanche : t.Avalanche tops rest) : (first ++ rest).Nodup := by
  refine List.nodup_append.mpr ⟨firstNodup, avalanche.nodup, ?_⟩
  rintro id gone _ later rfl
  exact avalanche.there later ((without.isVacant_iff id).mpr (.inr gone))

/-- What an object drags along goes with it, whether before or after what else goes. -/
theorem mem_of_drags (without : s.Without first t) (avalanche : t.Avalanche tops rest)
    (member : upper ∈ rest) (drags : s.Drags upper lower) : lower ∈ first ++ rest := by
  by_cases gone : lower ∈ first
  · exact List.mem_append_left _ gone
  · refine List.mem_append_right _ (avalanche.closed member ?_)
    exact (without.drags_iff upper lower).mpr ⟨drags, gone⟩

/-- After the avalanche of one object come those of others. -/
theorem cons (without : s.Without first t) (avalanche : s.Avalanche [id] first)
    (others : t.Avalanche tops rest) : s.Avalanche (id :: tops) (first ++ rest) := by
  refine ⟨without.nodup_append avalanche.nodup others, fun other => ⟨fun member => ?_, ?_⟩⟩
  · rcases List.mem_append.mp member with early | late
    · obtain ⟨top, among, there, path⟩ := (avalanche.mem_iff other).mp early
      exact ⟨top, List.mem_cons.mpr (.inl (List.mem_singleton.mp among)), there, path⟩
    · obtain ⟨top, among, there, path⟩ := (others.mem_iff other).mp late
      refine ⟨top, List.mem_cons_of_mem id among, fun vacant => there ?_, without.path path⟩
      exact (without.isVacant_iff top).mpr (.inl vacant)
  · rintro ⟨top, among, there, path⟩
    induction path with
    | refl =>
        by_cases gone : top ∈ first
        · exact List.mem_append_left _ gone
        · rcases List.mem_cons.mp among with rfl | later
          · exact absurd (avalanche.mem_of_top (List.mem_singleton_self top) there) gone
          · refine List.mem_append_right _ (others.mem_of_top later ?_)
            rw [without.isVacant_iff]
            exact not_or.mpr ⟨there, gone⟩
    | tail _ drags ih =>
        rcases List.mem_append.mp ih with early | late
        · exact List.mem_append_left _ (avalanche.closed early drags)
        · exact without.mem_of_drags others late drags

/-- An object goes before what it drags along. -/
theorem down (without : s.Without [id] t) (there : ¬ s.IsVacant id)
    (dragged : ∀ lower, lower ∈ tops ↔ t.Drags id lower) (avalanche : t.Avalanche tops rest) :
    s.Avalanche [id] (id :: rest) := by
  refine ⟨without.nodup_append (List.nodup_singleton id) avalanche, fun other => ?_⟩
  simp only [List.mem_singleton, exists_eq_left, there, not_false_eq_true, true_and]
  constructor
  · intro member
    rcases List.mem_cons.mp member with rfl | later
    · exact .refl
    · obtain ⟨top, among, -, path⟩ := (avalanche.mem_iff other).mp later
      have drags := (without.drags_iff id top).mp ((dragged top).mp among)
      exact .head drags.1 (without.path path)
  · intro path
    induction path with
    | refl => exact List.mem_cons_self
    | @tail upper lower _ drags ih =>
        rcases List.mem_cons.mp ih with rfl | later
        · by_cases same : lower = upper
          · exact same ▸ List.mem_cons_self
          · have dragsNow := (without.drags_iff upper lower).mpr ⟨drags, by simpa using same⟩
            have goes := avalanche.mem_of_top ((dragged lower).mpr dragsNow) dragsNow.there
            exact List.mem_cons_of_mem upper goes
        · exact without.mem_of_drags avalanche later drags

end Without

end Store

/-! ## Several at once -/

namespace Graph

variable {α : Type} {config : Config} {g : Graph α} {id upper lower : ObjectId}
  {ids : List ObjectId} {how : Lifecycle} {r : Record} {depth : Nat}

/-- The graph in which some objects are gone, told of in order. -/
def retireAll (g : Graph α) (ids : List ObjectId) (how : Lifecycle) : Graph α :=
  ids.foldl (fun g id => g.retire id how) g

theorem retireAll_append (g : Graph α) (ids more : List ObjectId) (how : Lifecycle) :
    g.retireAll (ids ++ more) how = (g.retireAll ids how).retireAll more how := List.foldl_append

theorem retireAll_eq (g : Graph α) (ids : List ObjectId) (how : Lifecycle) :
    g.retireAll ids how = { g with
      store := (g.retireAll ids how).store
      notifications := g.notifications ++ ids.map (.record · how) } := by
  induction ids generalizing g with
  | nil => simp [retireAll]
  | cons id ids ih =>
      rw [show g.retireAll (id :: ids) how = (g.retire id how).retireAll ids how from rfl, ih]
      simp [retire, modify, notify]

theorem order_retireAll (g : Graph α) (ids : List ObjectId) (how : Lifecycle) :
    (g.retireAll ids how).store.order = g.store.order :=
  List.foldlRecOn ids _ (motive := fun h : Graph α => h.store.order = g.store.order) rfl
    fun _ same _ _ => same

/-- What is held of each object, however often it is named. -/
theorem find?_retireAll (g : Graph α) (ids : List ObjectId) (how : Lifecycle) (id : ObjectId) :
    (g.retireAll ids how).store.find? id =
      (g.store.find? id).map fun r => if id ∈ ids then g.retired r how else r := by
  induction ids generalizing g with
  | nil => simp [retireAll]
  | cons next ids ih =>
      rw [show g.retireAll (next :: ids) how = (g.retire next how).retireAll ids how from rfl, ih]
      have found : (g.retire next how).store.find? id =
          if next = id then (g.store.find? next).map (g.retired · how) else g.store.find? id :=
        g.store.find?_modify next id _
      rw [found]
      by_cases same : next = id
      · subst same
        simp [Function.comp_def, retired, now, retire, modify, notify]
      · simp [same, Ne.symm same, retired, now, retire, modify, notify]

/-- Objects hang on each other after some have gone as they did before. -/
theorem hangsOn_retireAll (g : Graph α) (ids : List ObjectId) (how : Lifecycle) (r u : Record)
    (p q : Prop) [Decidable p] [Decidable q] :
    (g.retireAll ids how).store.HangsOn (if p then g.retired r how else r)
      (if q then g.retired u how else u) ↔ g.store.HangsOn r u := by
  have owns (device signal : ObjectId) :
      (g.retireAll ids how).store.Owns device signal ↔ g.store.Owns device signal := by
    rw [Store.Owns, find?_retireAll, Store.Owns]
    cases g.store.find? signal with
    | none => rfl
    | some owned => split <;> rfl
  have hangs (r u : Record) :
      (g.retireAll ids how).store.HangsOn r u ↔ g.store.HangsOn r u := by
    simp only [Store.HangsOn, owns]
  rw [hangs]
  split <;> split <;> rfl

theorem retireAll_without (terminal : how.status.isTerminal) (g : Graph α) (ids : List ObjectId) :
    g.store.Without ids (g.retireAll ids how).store := by
  have live (r : Record) (id : ObjectId) :
      (if id ∈ ids then g.retired r how else r).isLive ↔ r.isLive ∧ id ∉ ids := by
    split <;> simp_all [Record.isLive, retired]
  constructor
  case isVacant_iff =>
    intro id
    simp only [Store.IsVacant, find?_retireAll, Option.map_eq_some_iff, forall_exists_index,
      and_imp, forall_apply_eq_imp_iff₂, ← Bool.not_eq_true, live]
    cases g.store.find? id with
    | none => simp
    | some r => simp only [Option.some.injEq, forall_eq', not_and_or, not_not]
  case drags_iff =>
    intro upper lower
    simp only [Store.Drags, find?_retireAll, Option.map_eq_some_iff]
    constructor
    · rintro ⟨_, _, ⟨u, heldUpper, rfl⟩, ⟨r, held, rfl⟩, there, hangs⟩
      obtain ⟨before, stays⟩ := (live r lower).mp there
      exact ⟨⟨u, r, heldUpper, held, before, (hangsOn_retireAll ..).mp hangs⟩, stays⟩
    · rintro ⟨⟨u, r, heldUpper, held, before, hangs⟩, stays⟩
      exact ⟨_, _, ⟨u, heldUpper, rfl⟩, ⟨r, held, rfl⟩, (live r lower).mpr ⟨before, stays⟩,
        (hangsOn_retireAll ..).mpr hangs⟩

/-! ## Removals -/

/-- Whether a removal within a depth, of what is not further up, makes just an avalanche. -/
def Sweeps (α : Type) (how : Lifecycle) (depth : Nat) : Prop :=
  ∀ (g : Graph α) (id : ObjectId), g.store.Indexed →
    (∀ r, g.store.find? id = some r → r.kind.rank ≤ depth) →
    ∃ ids, (removeWithin depth g id how).1 = g.retireAll ids how ∧ g.store.Avalanche [id] ids

theorem retireAll_fades (terminal : how.status.isTerminal) (g : Graph α) (ids : List ObjectId) :
    g.store.Fades (g.retireAll ids how).store :=
  List.foldlRecOn ids _ (motive := fun h : Graph α => g.store.Fades h.store) (.refl _)
    fun h fades id _ => fades.trans (retire_fades terminal h id)

theorem Sweeps.all (sweeps : Sweeps α how depth) (terminal : how.status.isTerminal)
    (tops : List ObjectId) (g : Graph α) (indexed : g.store.Indexed)
    (low : ∀ top ∈ tops, ∀ r, g.store.find? top = some r → r.kind.rank ≤ depth) :
    ∃ ids, tops.foldl (fun g id => (removeWithin depth g id how).1) g = g.retireAll ids how ∧
      g.store.Avalanche tops ids := by
  induction tops generalizing g with
  | nil => exact ⟨[], rfl, .nil _⟩
  | cons top tops ih =>
      obtain ⟨first, swept, avalanche⟩ := sweeps g top indexed (low top List.mem_cons_self)
      have fades := retireAll_fades terminal g first
      obtain ⟨rest, sweptRest, others⟩ := ih (g.retireAll first how) (indexed.fades fades)
        fun next member => fades.rank_le (low next (List.mem_cons_of_mem top member))
      refine ⟨first ++ rest, ?_, (retireAll_without terminal g first).cons avalanche others⟩
      rw [List.foldl_cons, swept, sweptRest, retireAll_append]

theorem cascade_sweeps (sweeps : Sweeps α how depth) (terminal : how.status.isTerminal)
    (indexed : g.store.Indexed) (held : g.store.find? id = some r) (live : r.isLive)
    (rank : r.kind.rank ≤ depth + 1) :
    ∃ rest, cascade depth g id r.kind how = g.retireAll (id :: rest) how ∧
      g.store.Avalanche [id] (id :: rest) := by
  have without := retireAll_without terminal g [id]
  have indexedNow := indexed.fades (retireAll_fades terminal g [id])
  have heldNow : (g.retireAll [id] how).store.find? id = some (g.retired r how) := by
    simp [find?_retireAll, held]
  obtain ⟨rest, swept, avalanche⟩ := sweeps.all terminal
    ((g.retireAll [id] how).store.dependents id r.kind) (g.retireAll [id] how) indexedNow
    fun dependent member r' held' => by
      have below := indexedNow.dependents_rank member held'
      omega
  have dragged := indexedNow.mem_dependents_iff heldNow
  exact ⟨rest, swept, without.down (Store.not_isVacant held live) dragged avalanche⟩

theorem fst_removeWithin (held : g.store.find? id = some r) (live : r.isLive) (depth : Nat) :
    (removeWithin (depth + 1) g id how).1 = if r.kind = .device then
      (cascade depth g id r.kind how).dropSubscription id else cascade depth g id r.kind how := by
  simp only [removeWithin, held, live, Bool.not_true, Bool.false_eq_true, ↓reduceIte, cascade]

/-- What is below devices drops no subscription when it goes. -/
theorem sweeps (terminal : how.status.isTerminal) (depth : Nat) (below : depth < 3) :
    Sweeps α how depth := by
  induction depth with
  | zero =>
      intro g id indexed low
      exact ⟨[], rfl, .ofIsVacant (Store.isVacant_of_rank_le_zero low)⟩
  | succ depth ih =>
      intro g id indexed low
      rcases g.store.isVacant_or_isLive id with vacant | ⟨r, held, live⟩
      · exact ⟨[], by rw [removeWithin_of_isVacant vacant]; rfl, .ofIsVacant vacant⟩
      · obtain ⟨rest, swept, avalanche⟩ :=
          cascade_sweeps (ih (by omega)) terminal indexed held live (low r held)
        have lower : r.kind ≠ .device := by
          intro device
          have rank := low r held
          rw [device, ObjectKind.rank] at rank
          omega
        exact ⟨id :: rest, by rw [fst_removeWithin held live, if_neg lower, swept], avalanche⟩

/-- Removals that do the same in two depths do so one after the other. -/
theorem foldl_removeWithin_congr {other : Nat} (terminal : how.status.isTerminal)
    (same : ∀ (g : Graph α) (id : ObjectId), g.store.Indexed →
      (∀ r, g.store.find? id = some r → r.kind.rank ≤ depth) →
      removeWithin other g id how = removeWithin depth g id how)
    (tops : List ObjectId) (g : Graph α) (indexed : g.store.Indexed)
    (low : ∀ top ∈ tops, ∀ r, g.store.find? top = some r → r.kind.rank ≤ depth) :
    tops.foldl (fun g id => (removeWithin other g id how).1) g =
      tops.foldl (fun g id => (removeWithin depth g id how).1) g := by
  induction tops generalizing g with
  | nil => rfl
  | cons top tops ih =>
      have fades := removeWithin_fades terminal depth g top
      rw [List.foldl_cons, List.foldl_cons, same g top indexed (low top List.mem_cons_self)]
      exact ih _ (indexed.fades fades) fun next member =>
        fades.rank_le (low next (List.mem_cons_of_mem top member))

/-- No removal is cut short: a depth that is enough for an object is enough for all that goes. -/
theorem removeWithin_add (terminal : how.status.isTerminal) (depth more : Nat) (g : Graph α)
    (id : ObjectId) (indexed : g.store.Indexed)
    (low : ∀ r, g.store.find? id = some r → r.kind.rank ≤ depth) :
    removeWithin (depth + more) g id how = removeWithin depth g id how := by
  induction depth generalizing g id with
  | zero =>
      have vacant := Store.isVacant_of_rank_le_zero low
      rw [removeWithin_of_isVacant vacant, removeWithin_of_isVacant vacant]
  | succ depth ih =>
      have indexedNow := indexed.fades (retire_fades terminal g id)
      rw [show depth + 1 + more = depth + more + 1 by omega]
      simp only [removeWithin]
      cases held : g.store.find? id with
      | none => rfl
      | some r =>
          have below := foldl_removeWithin_congr terminal ih
            ((g.retire id how).store.dependents id r.kind) (g.retire id how) indexedNow
            fun dependent member r' held' => by
              have rank := low r held
              have lower := indexedNow.dependents_rank member held'
              omega
          simp only [below]

/-- A removal makes just the avalanche of its object; of subscriptions it drops that to a device. -/
theorem remove_sweeps (terminal : how.status.isTerminal) (indexed : g.store.Indexed)
    (held : g.store.find? id = some r) (live : r.isLive) :
    ∃ rest, g.store.Avalanche [id] (id :: rest) ∧
      (g.remove id how).1 = { g.retireAll (id :: rest) how with
        subscriptions :=
          if r.kind = .device then g.subscriptions.erase id else g.subscriptions } := by
  obtain ⟨rest, swept, avalanche⟩ := cascade_sweeps (sweeps terminal 2 (by decide)) terminal
    indexed held live r.kind.rank_le
  refine ⟨rest, avalanche, ?_⟩
  have subscriptions := congrArg Graph.subscriptions (retireAll_eq g (id :: rest) how)
  rw [remove, fst_removeWithin held live, swept]
  split
  · rw [dropSubscription, subscriptions]
  · rw [← subscriptions]

/-- The removal of an object that is there ends, however many are dragged along, and what goes with
    it is all that is dragged along, by the object or by others that are. Each is told of once, the
    object first, and is left as one that has gone now; the rest is untouched, but that a device is
    no longer subscribed to. Where no such object is there nothing happens. -/
theorem removal_drags_along (reachable : Reachable config g) (terminal : how.status.isTerminal)
    (id : ObjectId) :
    (∀ more, removeWithin (3 + more) g id how = g.remove id how) ∧
    (g.store.IsVacant id → g.remove id how = (g, none)) ∧
    ∀ r, g.store.find? id = some r → r.isLive → ∃ h rest,
      g.remove id how = (h, some how) ∧
      (id :: rest).Nodup ∧
      (∀ other, other ∈ id :: rest ↔ ReflTransGen g.store.Drags id other) ∧
      (∀ other ∈ id :: rest, ∃ r, g.store.find? other = some r ∧ r.isLive ∧
        h.store.find? other = some (g.retired r how)) ∧
      (∀ other ∉ id :: rest, h.store.find? other = g.store.find? other) ∧
      h.store.order = g.store.order ∧
      h.notifications = g.notifications ++ (id :: rest).map (.record · how) ∧
      (∀ device, h.subscription? device =
        if r.kind = .device ∧ device = id then none else g.subscription? device) ∧
      h = { g with
        store := h.store
        notifications := h.notifications
        subscriptions := h.subscriptions } := by
  have indexed := reachable.indexed
  refine ⟨fun more => ?_, fun vacant => removeWithin_of_isVacant vacant 3, fun r held live => ?_⟩
  · exact removeWithin_add terminal 3 more g id indexed fun r _ => r.kind.rank_le
  · obtain ⟨rest, avalanche, removed⟩ := remove_sweeps terminal indexed held live
    have all := retireAll_eq g (id :: rest) how
    have found (other : ObjectId) : (g.remove id how).1.store.find? other =
        (g.store.find? other).map fun r => if other ∈ id :: rest then g.retired r how else r := by
      rw [removed]
      exact find?_retireAll g (id :: rest) how other
    refine ⟨(g.remove id how).1, rest, ?_, avalanche.nodup, avalanche.mem_iff_path ?_,
      fun other member => ?_, fun other outside => ?_, ?_, ?_, fun device => ?_, ?_⟩
    · rw [← snd_remove held live]
    · exact avalanche.there List.mem_cons_self
    · obtain ⟨r', held', live'⟩ :=
        (g.store.isVacant_or_isLive other).resolve_left (avalanche.there member)
      exact ⟨r', held', live', by rw [found, held', Option.map_some, if_pos member]⟩
    · simp only [found, if_neg outside, Option.map_id']
    · rw [removed]
      exact order_retireAll g (id :: rest) how
    · rw [removed]
      exact congrArg Graph.notifications all
    · rw [removed, subscription?, subscription?]
      by_cases isDevice : r.kind = .device
      · simp only [isDevice, ↓reduceIte, Directory.get?_erase, true_and, eq_comm]
      · simp only [isDevice, ↓reduceIte, false_and]
    · rw [removed, all]

/-- Devices 1 and 2 with the signals 3 and 4, a link 5 between the devices, and maps 6 and 7 to the
    second signal from the first and from itself. -/
def crossed : Graph Unit :=
  ((((make (.quiet ⟨0, 0⟩) .standard).call
    (.apply .announce ⟨.signal, ⟨3⟩, ⟨[.set (.wellKnown .device) (.ofId ⟨1⟩)]⟩, []⟩)).call
    (.apply .announce ⟨.signal, ⟨4⟩, ⟨[.set (.wellKnown .device) (.ofId ⟨2⟩)]⟩, []⟩)).call
    (.apply .announce
      ⟨.link, ⟨5⟩, ⟨[.set (.wellKnown .devices) ⟨.int64 [1, 2], .inr (by decide)⟩]⟩, []⟩)).call
    (.apply .announce ⟨.map, ⟨6⟩, ⟨[.set (.wellKnown .sources) (.ofId ⟨3⟩),
      .set (.wellKnown .destination) (.ofId ⟨4⟩)]⟩, []⟩) |>.call
    (.apply .announce ⟨.map, ⟨7⟩, ⟨[.set (.wellKnown .sources) (.ofId ⟨4⟩),
      .set (.wellKnown .destination) (.ofId ⟨4⟩)]⟩, []⟩) |>.call
    (.subscribe (.device ⟨1⟩) .signal .renewing)

theorem crossed_reachable : Reachable .standard crossed := by
  iterate 6 refine .call ?_ _
  exact .make _ _

/-- With device 1 go its signal, the map from that, and the link; the map is found twice and told of
    once. -/
theorem crossed_removal :
    ∃ h : Graph Unit, crossed.remove ⟨1⟩ .removed = (h, some .removed) ∧
      h.notifications = crossed.notifications ++
        [⟨1⟩, ⟨3⟩, ⟨6⟩, ⟨5⟩].map (Notification.record · .removed) ∧
      (∀ id, ReflTransGen crossed.store.Drags ⟨1⟩ id ↔ id ∈ [⟨1⟩, ⟨3⟩, ⟨6⟩, ⟨5⟩]) ∧
      h.subscription? ⟨1⟩ = none ∧ crossed.subscription? ⟨1⟩ ≠ none := by
  have there : (crossed.store.find? ⟨1⟩).any fun r => r.isLive ∧ r.kind = .device := by
    decide +kernel
  obtain ⟨r, held, facts⟩ := (Option.any_eq_true ..).mp there
  obtain ⟨live, kind⟩ := of_decide_eq_true facts
  obtain ⟨-, -, removal⟩ :=
    removal_drags_along crossed_reachable (show Lifecycle.removed.status.isTerminal from rfl) ⟨1⟩
  obtain ⟨h, rest, removed, -, dragged, -, -, -, told, subscriptions, -⟩ := removal r held live
  have ran : (crossed.remove ⟨1⟩ .removed).1.notifications = crossed.notifications ++
      [⟨1⟩, ⟨3⟩, ⟨6⟩, ⟨5⟩].map (Notification.record · .removed) := by decide +kernel
  rw [removed] at ran
  have injective : Function.Injective (Notification.record · .removed) := fun _ _ same =>
    (Notification.record.inj same).1
  have gone := injective.list_map (List.append_cancel_left (told.symm.trans ran))
  refine ⟨h, removed, ran, fun id => gone ▸ (dragged id).symm, ?_, by decide +kernel⟩
  rw [subscriptions, if_pos ⟨kind, rfl⟩]

end Graph

end SignalGraph
