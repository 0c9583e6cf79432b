import Mathlib.Data.List.TakeWhile
import SignalGraph.Proofs.RelationQueries

/-! # Paths of signals

The path of a signal joins two names by a slash, and is taken apart again at the first slash there
is. So it leads back to its signal where the name of the device has no slash itself; names have no
other way to be told from each other.
-/

namespace SignalGraph

namespace Store

variable {s : Store} {path first rest name : String} {id : ObjectId} {r : Record}

/-! ## Taking paths apart -/

/-- Slashes in front are dropped, and the first of the others is where the path is taken apart. -/
theorem splitPath?_join (n : Nat) (some : first ≠ "") (plain : '/' ∉ first.toList) :
    splitPath? (String.ofList (List.replicate n '/') ++ (first ++ "/" ++ rest)) =
      Option.some (first, rest) := by
  have letters : (String.ofList (List.replicate n '/') ++ (first ++ "/" ++ rest)).toList =
      List.replicate n '/' ++ (first.toList ++ '/' :: rest.toList) := by
    simp
  have leading :
      (List.replicate n '/' ++ (first.toList ++ '/' :: rest.toList)).dropWhile (· = '/') =
        first.toList ++ '/' :: rest.toList := by
    rw [List.dropWhile_append_of_pos fun c member =>
      decide_eq_true (List.eq_of_mem_replicate member)]
    cases spelled : first.toList with
    | nil => exact absurd (String.toList_eq_nil_iff.mp spelled) some
    | cons c cs =>
        have other : c ≠ '/' := by
          rintro rfl
          exact plain (spelled ▸ List.mem_cons_self)
        simp [other]
  have apart : ∀ c ∈ first.toList, decide (c ≠ '/') = true := by
    intro c member
    exact decide_eq_true (ne_of_mem_of_not_mem member plain)
  simp only [splitPath?, letters, leading, List.dropWhile_append_of_pos apart,
    List.takeWhile_append_of_pos apart]
  simp

/-- A path is never taken apart behind a slash. -/
theorem not_mem_of_splitPath? (split : splitPath? path = some (first, rest)) :
    '/' ∉ first.toList := by
  simp only [splitPath?] at split
  split at split
  · cases split
    rw [String.toList_ofList]
    intro member
    simpa using List.mem_takeWhile_imp member
  · cases split

/-! ## Looking names up -/

theorem find?_of_only {β : Type} {items : List β} {test : β → Bool} {item : β}
    (member : item ∈ items) (passes : test item)
    (only : ∀ other ∈ items, test other → other = item) : items.find? test = some item := by
  cases found : items.find? test with
  | none => exact absurd passes (List.find?_eq_none.mp found item member)
  | some other => rw [only other (List.mem_of_find?_eq_some found) (List.find?_some found)]

theorem signalByPath?_eq_some (resolves : s.signalByPath? path = some r) :
    ∃ first rest d, splitPath? path = some (first, rest) ∧ s.deviceByName? first = some d ∧
      r.device? = some d.id := by
  simp only [signalByPath?, Option.bind_eq_bind, Option.bind_eq_some_iff] at resolves
  obtain ⟨⟨first, rest⟩, split, d, found, resolves⟩ := resolves
  have passes := List.find?_some resolves
  rw [decide_eq_true_eq] at passes
  exact ⟨first, rest, d, split, found, passes.1⟩

end Store

namespace Graph

variable {α : Type} {config : Config} {g : Graph α} {device : ObjectId} {r d : Record}
  {first name : String}

/-- The path of a live signal joins the name of its device and its own. If no other live device has
    that name, and no other live signal of the device the signal's, the path leads back to the
    signal just if there is no slash in the name of the device, whether or not slashes are put in
    front. -/
theorem signal_paths_resolve (reachable : Reachable config g) (there : r ∈ g.store.live .signal)
    (named : r.name? = some name) (owned : r.device? = some device)
    (owner : g.store.find? device = some d) (ownerNamed : d.name? = some first)
    (spelled : first ≠ "")
    (onlyDevice : ∀ o ∈ g.store.live .device, o.name? = some first → o = d)
    (onlySignal : ∀ o ∈ g.store.live .signal,
      o.device? = some device → o.name? = some name → o = r) :
    ∃ path, g.store.fullName? r = some path ∧ path = first ++ "/" ++ name ∧
      ∀ n, g.store.signalByPath? (String.ofList (List.replicate n '/') ++ path) = some r ↔
        '/' ∉ first.toList := by
  have indexed := reachable.indexed
  obtain ⟨held, -, live⟩ := indexed.mem_live_iff.mp there
  have own := indexed.keyed device d owner
  have full : g.store.fullName? r = some (first ++ "/" ++ name) := by
    simp [Store.fullName?, named, owned, owner, ownerNamed]
  refine ⟨_, full, rfl, ?_⟩
  intro n
  constructor
  · intro resolves
    obtain ⟨start, rest, d', split, found, owned'⟩ := Store.signalByPath?_eq_some resolves
    obtain ⟨held', -, -⟩ := indexed.mem_live_iff.mp (List.mem_of_find?_eq_some found)
    obtain rfl : device = d'.id := Option.some.inj (owned.symm.trans owned')
    obtain rfl := Option.some.inj (owner.symm.trans held')
    have same : start = first := by
      have passes := List.find?_some found
      rw [decide_eq_true_eq] at passes
      exact Option.some.inj (passes.symm.trans ownerNamed)
    exact same ▸ Store.not_mem_of_splitPath? split
  · intro plain
    have foundDevice : g.store.deviceByName? first = some d := by
      obtain ⟨d', owner', isDevice, alive⟩ :=
        reachable.complete.1.sound.hasLive_device held live owned
      obtain rfl := Option.some.inj (owner.symm.trans owner')
      have member := indexed.mem_live_iff.mpr ⟨own.symm ▸ owner, isDevice, alive⟩
      refine Store.find?_of_only member (decide_eq_true ownerNamed) ?_
      intro o among passes
      exact onlyDevice o among (of_decide_eq_true passes)
    have foundSignal : (g.store.live .signal).find?
        (fun r => r.device? = some d.id ∧ r.name? = some name) = some r := by
      refine Store.find?_of_only there (decide_eq_true ⟨own ▸ owned, named⟩) ?_
      intro o among passes
      obtain ⟨owned', named'⟩ := of_decide_eq_true passes
      exact onlySignal o among (own ▸ owned') named'
    simp only [Store.signalByPath?, Store.splitPath?_join n spelled plain, foundDevice,
      Option.bind_eq_bind, Option.bind_some, foundSignal]

/-- The announcement of a device with a name. -/
def namedDevice (id : ObjectId) (name : String) : Call Unit :=
  .apply .announce ((Delta.empty .device id).set (.wellKnown .name) (.ofString name))

/-- The announcement of a signal of a device with a name. -/
def namedSignal (id device : ObjectId) (name : String) : Call Unit :=
  .apply .announce (((Delta.empty .signal id).set (.wellKnown .device) (.ofId device)).set
    (.wellKnown .name) (.ofString name))

/-- Device 1 with a slash in its name and its signal 3, and device 2 with signal 4, which has the
    slash instead. -/
def slashed : Graph Unit :=
  ((((make (.quiet ⟨0, 0⟩) .standard).call (namedDevice ⟨1⟩ "a/b")).call
    (namedDevice ⟨2⟩ "a")).call (namedSignal ⟨3⟩ ⟨1⟩ "c")).call (namedSignal ⟨4⟩ ⟨2⟩ "b/c")

theorem slashed_reachable : Reachable .standard slashed := by
  iterate 4 refine .call ?_ _
  exact .make _ _

/-- The path of signal 4 leads back to it, with a slash in front or without. -/
theorem slashed_path_resolves :
    ∃ r path, r ∈ slashed.store.live .signal ∧ r.id = ⟨4⟩ ∧ slashed.store.fullName? r = some path ∧
      slashed.store.signalByPath? path = some r ∧
      slashed.store.signalByPath? ("/" ++ path) = some r := by
  have there : (slashed.store.live .signal).any fun r =>
      r.id = ⟨4⟩ ∧ r.name? = some "b/c" ∧ r.device? = some ⟨2⟩ ∧
        ∀ o ∈ slashed.store.live .signal, o.device? = some ⟨2⟩ → o.name? = some "b/c" → o = r := by
    decide +kernel
  have owner : (slashed.store.find? ⟨2⟩).any fun d => d.name? = some "a" ∧
      ∀ o ∈ slashed.store.live .device, o.name? = some "a" → o = d := by decide +kernel
  obtain ⟨r, member, facts⟩ := List.any_eq_true.mp there
  obtain ⟨d, held, ownerFacts⟩ := (Option.any_eq_true ..).mp owner
  obtain ⟨own, named, owned, onlySignal⟩ := of_decide_eq_true facts
  obtain ⟨ownerNamed, onlyDevice⟩ := of_decide_eq_true ownerFacts
  obtain ⟨path, full, -, resolves⟩ := signal_paths_resolve slashed_reachable member named owned held
    ownerNamed (by decide) onlyDevice onlySignal
  have plain : '/' ∉ "a".toList := by decide
  have bare := (resolves 0).mpr plain
  have rooted := (resolves 1).mpr plain
  exact ⟨r, path, member, own, full, by simpa using bare, rooted⟩

/-- Signal 3 and its device share their names with no others, but the path that these make is taken
    for that of signal 4. -/
theorem slashed_path_strays :
    Reachable .standard slashed ∧ ∃ r ∈ slashed.store.live .signal,
      ∃ d ∈ slashed.store.live .device,
        r.id = ⟨3⟩ ∧ r.device? = some d.id ∧ r.name? = some "c" ∧ d.name? = some "a/b" ∧
        (∀ o ∈ slashed.store.live .device, o.name? = some "a/b" → o = d) ∧
        (∀ o ∈ slashed.store.live .signal,
          o.device? = some d.id → o.name? = some "c" → o = r) ∧
        slashed.store.fullName? r = some "a/b/c" ∧
        (slashed.store.signalByPath? "a/b/c").map Record.id = some ⟨4⟩ :=
  ⟨slashed_reachable, by decide +kernel⟩

end Graph

end SignalGraph
