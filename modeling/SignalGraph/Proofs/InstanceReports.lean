import Mathlib.Computability.Language
import SignalGraph.Proofs.PoolChanges

/-! # What a pool tells of an instance

What a pool tells of one of its instances, apart from all others, is the voice of the instance. It
begins when the instance becomes active, goes on with each value from then on, and ends when it is
released, whatever takes its slot away. So what is told settles which instances are active.
-/

namespace SignalGraph

open scoped Computability

def PoolEventKind.isRelease : PoolEventKind → Bool
  | .releasedByNetwork | .releasedHere => true
  | .new | .update | .overflow => false

/-- From the first value of an instance to its release. -/
def activation : Language PoolEventKind :=
  {[.new]} * ({[.update]} : Language PoolEventKind)∗ * {[.releasedByNetwork], [.releasedHere]}

def activations : Language PoolEventKind := activation∗

/-- What is told of one instance, values that were dropped apart. -/
def voice (id : UInt64) (told : List PoolEvent) : List PoolEventKind :=
  (told.filter fun e => e.id = id ∧ e.kind ≠ .overflow).map PoolEvent.kind

/-- Whether it is told that an instance became active, and of no release since. -/
def IsOpenIn (told : List PoolEvent) (id : UInt64) : Prop :=
  ∃ before after, told = before ++ ⟨.new, id⟩ :: after ∧
    ∀ e ∈ after, e.id = id → e.kind.isRelease = false

/-! ## Words of one instance -/

/-- What may be told of an instance that is active or not, and whether it is afterwards. -/
inductive Follows : Bool → List PoolEventKind → Bool → Prop
  | rest (active : Bool) : Follows active [] active
  | begin {w : List PoolEventKind} {active : Bool} (rest : Follows true w active) :
      Follows false (.new :: w) active
  | go {w : List PoolEventKind} {active : Bool} (rest : Follows true w active) :
      Follows true (.update :: w) active
  | finish {kind : PoolEventKind} {w : List PoolEventKind} {active : Bool}
      (release : kind.isRelease) (rest : Follows false w active) : Follows true (kind :: w) active

/-- Whether a word begins an activation and does not end it. -/
def EndsOpen (w : List PoolEventKind) : Prop :=
  ∃ before after, w = before ++ .new :: after ∧ ∀ kind ∈ after, kind.isRelease = false

/-- Where a list is divided at an item, that is its first, or one of the rest. -/
theorem exists_divides_cons {β : Type} {P : List β → Prop} (x y : β) (rest : List β) :
    (∃ before after, x :: rest = before ++ y :: after ∧ P after) ↔
      (x = y ∧ P rest) ∨ ∃ before after, rest = before ++ y :: after ∧ P after := by
  constructor
  · rintro ⟨before, after, same, holds⟩
    cases before with
    | nil =>
        obtain ⟨rfl, rfl⟩ := List.cons.inj same
        exact .inl ⟨rfl, holds⟩
    | cons first before =>
        obtain ⟨rfl, rfl⟩ := List.cons.inj same
        exact .inr ⟨before, after, rfl, holds⟩
  · rintro (⟨rfl, holds⟩ | ⟨before, after, rfl, holds⟩)
    · exact ⟨[], rest, rfl, holds⟩
    · exact ⟨x :: before, after, rfl, holds⟩

theorem endsOpen_cons (kind : PoolEventKind) (w : List PoolEventKind) : EndsOpen (kind :: w) ↔
    (kind = .new ∧ ∀ kind ∈ w, kind.isRelease = false) ∨ EndsOpen w :=
  exists_divides_cons kind .new w

namespace Follows

variable {s t u : Bool} {w v : List PoolEventKind}

theorem append (first : Follows s w t) (second : Follows t v u) : Follows s (w ++ v) u := by
  induction first with
  | rest => exact second
  | begin _ ih => exact .begin (ih second)
  | go _ ih => exact .go (ih second)
  | finish release _ ih => exact .finish release (ih second)

theorem split (whole : Follows s (w ++ v) u) : ∃ t, Follows s w t ∧ Follows t v u := by
  induction w generalizing s with
  | nil => exact ⟨s, .rest s, whole⟩
  | cons kind w ih =>
      cases whole with
      | begin rest =>
          obtain ⟨t, first, second⟩ := ih rest
          exact ⟨t, .begin first, second⟩
      | go rest =>
          obtain ⟨t, first, second⟩ := ih rest
          exact ⟨t, .go first, second⟩
      | finish release rest =>
          obtain ⟨t, first, second⟩ := ih rest
          exact ⟨t, .finish release first, second⟩

/-- What comes first begins an instance just if it is not active. -/
theorem first_iff {kind : PoolEventKind} (follows : Follows s (kind :: w) t) :
    kind = .new ↔ s = false := by
  cases follows with
  | begin => simp
  | go => simp
  | finish release =>
      cases kind with
      | releasedByNetwork | releasedHere => simp
      | new | update | overflow => cases release

/-- An instance is active if it became so and was not released since, or was so from the start. -/
theorem active_iff (follows : Follows s w t) :
    t = true ↔ EndsOpen w ∨ (s = true ∧ ∀ kind ∈ w, kind.isRelease = false) := by
  induction follows with
  | rest => simp [EndsOpen]
  | begin _ ih => simp [ih, endsOpen_cons, or_comm]
  | go _ ih => simp [ih, endsOpen_cons, PoolEventKind.isRelease]
  | @finish kind w t release rest ih =>
      have other : kind ≠ .new := by
        rintro rfl
        cases release
      simp [ih, endsOpen_cons, other, release]

end Follows

/-! ## Successions of activations -/

/-- What is told of an activation that goes on, or nothing of an instance that is not active. -/
def Begun (before : List PoolEventKind) : Bool → Prop
  | false => before = []
  | true => ∃ n, before = .new :: List.replicate n .update

theorem mem_activations {before after : List PoolEventKind} {kind : PoolEventKind}
    (begun : Begun before true) (release : kind.isRelease) (rest : after ∈ activations) :
    before ++ kind :: after ∈ activations := by
  obtain ⟨n, rfl⟩ := begun
  have updates : List.replicate n .update ∈ ({[.update]} : Language PoolEventKind)∗ :=
    Language.mem_kstar.mpr ⟨List.replicate n [.update], by simp,
      fun w member => List.eq_of_mem_replicate member⟩
  have last : [kind] ∈ ({[.releasedByNetwork], [.releasedHere]} : Language PoolEventKind) := by
    cases kind with
    | releasedByNetwork => exact .inl rfl
    | releasedHere => exact .inr rfl
    | new | update | overflow => cases release
  have one : [.new] ++ List.replicate n .update ++ [kind] ∈ activation :=
    Language.append_mem_mul (Language.append_mem_mul rfl updates) last
  have all : _ ∈ activations := Set.mem_of_mem_of_subset (Language.append_mem_mul one rest)
    (mul_kstar_le_kstar (a := activation))
  simpa using all

/-- What may be told from the first on begins a succession of whole activations. -/
theorem Follows.isPrefix {s t : Bool} {w : List PoolEventKind} (follows : Follows s w t)
    (before : List PoolEventKind) (begun : Begun before s) :
    ∃ whole ∈ activations, before ++ w <+: whole := by
  induction follows generalizing before with
  | rest s =>
      cases s with
      | false =>
          obtain rfl := begun
          exact ⟨[], Language.nil_mem_kstar _, List.prefix_refl _⟩
      | true =>
          refine ⟨before ++ [.releasedHere], ?_, ?_⟩
          · exact mem_activations begun rfl (Language.nil_mem_kstar _)
          · exact (List.prefix_append_right_inj before).mpr (List.nil_prefix)
  | begin _ ih =>
      obtain rfl := begun
      exact ih [.new] ⟨0, rfl⟩
  | go _ ih =>
      obtain ⟨n, rfl⟩ := begun
      have longer : Begun (.new :: List.replicate n .update ++ [.update]) true :=
        ⟨n + 1, by rw [List.replicate_succ', List.cons_append]⟩
      simpa using ih _ longer
  | finish release _ ih =>
      obtain ⟨whole, member, begins⟩ := ih [] rfl
      refine ⟨before ++ _ :: whole, mem_activations begun release member, ?_⟩
      exact (List.prefix_append_right_inj before).mpr (List.cons_prefix_cons.mpr ⟨rfl, begins⟩)

/-! ## Events of one instance -/

theorem voice_append (id : UInt64) (told later : List PoolEvent) :
    voice id (told ++ later) = voice id told ++ voice id later := by
  simp [voice]

theorem voice_cons {e : PoolEvent} (counts : e.kind ≠ .overflow) (told : List PoolEvent) :
    voice e.id (e :: told) = e.kind :: voice e.id told := by
  simp [voice, counts]

theorem voice_singleton_of_ne {e : PoolEvent} {id : UInt64} (apart : e.id ≠ id) :
    voice id [e] = [] := by
  simp [voice, apart]

theorem mem_voice_iff {id : UInt64} {told : List PoolEvent} {kind : PoolEventKind} :
    kind ∈ voice id told ↔ kind ≠ .overflow ∧ ⟨kind, id⟩ ∈ told := by
  simp only [voice, List.mem_map, List.mem_filter, decide_eq_true_eq]
  constructor
  · rintro ⟨e, ⟨member, rfl, counts⟩, rfl⟩
    exact ⟨counts, member⟩
  · rintro ⟨counts, member⟩
    exact ⟨⟨kind, id⟩, ⟨member, rfl, counts⟩, rfl⟩

theorem isOpenIn_cons (e : PoolEvent) (told : List PoolEvent) (id : UInt64) :
    IsOpenIn (e :: told) id ↔
      (e = ⟨.new, id⟩ ∧ ∀ e ∈ told, e.id = id → e.kind.isRelease = false) ∨ IsOpenIn told id :=
  exists_divides_cons e ⟨.new, id⟩ told

theorem endsOpen_voice_iff (id : UInt64) (told : List PoolEvent) :
    EndsOpen (voice id told) ↔ IsOpenIn told id := by
  have unreleased (told : List PoolEvent) : (∀ kind ∈ voice id told, kind.isRelease = false) ↔
      ∀ e ∈ told, e.id = id → e.kind.isRelease = false := by
    constructor
    · rintro none e member rfl
      by_cases counts : e.kind = .overflow
      · rw [counts]
        rfl
      · exact none e.kind (mem_voice_iff.mpr ⟨counts, member⟩)
    · exact fun none kind member => none ⟨kind, id⟩ (mem_voice_iff.mp member).2 rfl
  induction told with
  | nil => simp [voice, EndsOpen, IsOpenIn]
  | cons e told ih =>
      simp only [isOpenIn_cons, ← ih, ← unreleased]
      by_cases own : e.id = id ∧ e.kind ≠ .overflow
      · obtain ⟨rfl, counts⟩ := own
        rw [voice_cons counts, endsOpen_cons]
        obtain ⟨kind, id⟩ := e
        simp
      · have other : e ≠ ⟨.new, id⟩ := by
          rintro rfl
          exact own ⟨rfl, by simp⟩
        have same : voice id (e :: told) = voice id told := by
          simp only [voice, List.filter_cons, own, decide_false, Bool.false_eq_true, ↓reduceIte]
        simp [same, other]

namespace Pool

variable {p q : Pool} {id : UInt64} {i : Instance} {told : List PoolEvent}

def sounds (p : Pool) (id : UInt64) : Bool := p.slots.any fun i => i.id == id && i.isActive

theorem sounds_iff : p.sounds id ↔ ∃ i ∈ p.slots, i.id = id ∧ i.isActive := by simp [sounds]

theorem sounds_congr (same : ∀ i, (i ∈ q.slots ∧ i.isActive) ↔ (i ∈ p.slots ∧ i.isActive)) :
    q.sounds id = p.sounds id := by
  rw [Bool.eq_iff_iff, sounds_iff, sounds_iff]
  exact exists_congr fun i => by have := same i; tauto

theorem Ascending.sounds (ascending : p.Ascending) (there : i ∈ p.slots) :
    p.sounds i.id = i.isActive := by
  rw [Bool.eq_iff_iff, sounds_iff]
  constructor
  · rintro ⟨j, other, same, active⟩
    exact ascending.unique other there same ▸ active
  · exact fun active => ⟨i, there, rfl, active⟩

theorem sounds_of_absent (absent : ∀ j ∈ p.slots, j.id ≠ id) : p.sounds id = false := by
  rw [← Bool.not_eq_true, sounds_iff]
  rintro ⟨j, there, same, -⟩
  exact absent j there same

theorem sounds_insert (p : Pool) (i : Instance) (id : UInt64) :
    (p.insert i).sounds id = ((i.id == id && i.isActive) || p.sounds id) := by
  rw [Bool.eq_iff_iff, Bool.or_eq_true, sounds_iff, sounds_iff]
  simp [mem_insert, or_and_right, exists_or]

theorem sounds_modify {f : Instance → Instance} (keeps : ∀ i, (f i).id = i.id) (other : UInt64) :
    (p.modify id f).sounds other =
      p.slots.any fun i => i.id == other && (if i.id == id then f i else i).isActive := by
  simp only [sounds, modify, List.any_map]
  congr 1
  funext i
  simp only [Function.comp]
  split <;> simp only [keeps]

theorem sounds_modify_of_ne {f : Instance → Instance} (keeps : ∀ i, (f i).id = i.id)
    {other : UInt64} (apart : id ≠ other) : (p.modify id f).sounds other = p.sounds other := by
  rw [sounds_modify keeps, sounds]
  congr 1
  funext i
  by_cases own : i.id = id
  · have away : (i.id == other) = false := by simpa [own] using apart
    simp only [away, Bool.false_and]
  · simp [own]

theorem Ascending.sounds_modify_self (ascending : p.Ascending) {f : Instance → Instance}
    (keeps : ∀ i, (f i).id = i.id) (there : i ∈ p.slots) :
    (p.modify i.id f).sounds i.id = (f i).isActive := by
  have changed : f i ∈ (p.modify i.id f).slots := List.mem_map.mpr ⟨i, there, by simp⟩
  have after : (p.modify i.id f).Ascending := ascending.modify keeps
  have same := after.sounds changed
  rwa [keeps] at same

theorem sounds_erase_self (p : Pool) (id : UInt64) : (p.erase id).sounds id = false :=
  sounds_of_absent fun _ member => (mem_erase.mp member).2

theorem sounds_erase_of_ne {other : UInt64} (apart : id ≠ other) :
    (p.erase id).sounds other = p.sounds other := by
  rw [Bool.eq_iff_iff, sounds_iff, sounds_iff]
  refine exists_congr fun i => ?_
  rw [mem_erase]
  constructor
  · rintro ⟨⟨there, -⟩, own⟩
    exact ⟨there, own⟩
  · rintro ⟨there, rfl, active⟩
    exact ⟨⟨there, apart.symm⟩, rfl, active⟩

/-- One event concerns one instance. -/
theorem follows_of_event {e : PoolEvent} (counts : e.kind ≠ .overflow)
    (others : ∀ id, e.id ≠ id → q.sounds id = p.sounds id)
    (own : Follows (p.sounds e.id) [e.kind] (q.sounds e.id)) (id : UInt64) :
    Follows (p.sounds id) (voice id [e]) (q.sounds id) := by
  by_cases same : e.id = id
  · subst same
    exact (voice_cons counts []).symm ▸ own
  · rw [voice_singleton_of_ne same, others id same]
    exact .rest _

/-- What a step tells of an instance goes with whether it is active before and after. -/
theorem Sound.follows (sound : p.Sound) (step : p.Step told q) (id : UInt64) :
    Follows (p.sounds id) (voice id told) (q.sounds id) := by
  have quiet (same : q.sounds id = p.sounds id) : Follows (p.sounds id) [] (q.sounds id) :=
    same ▸ .rest _
  cases step with
  | keep | setSteal => exact .rest _
  | overflow other =>
      have dropped : voice id [⟨.overflow, other⟩] = [] := by simp [voice]
      exact dropped ▸ .rest _
  | tag other tag =>
      refine quiet ?_
      rw [sounds_modify (f := ({ · with tag })) fun _ => rfl, Pool.sounds]
      congr 1
      funext i
      split <;> rfl
  | reserve absent room =>
      refine quiet ?_
      rw [sounds_insert]
      simp [Instance.reserved, Instance.isActive]
  | lose fewer keeps =>
      exact quiet (sounds_congr fun i => and_congr_left fun active =>
        ⟨fun there => fewer.subset there, fun there => keeps i there active⟩)
  | drop there active =>
      refine follows_of_event (by simp) (fun other apart => sounds_erase_of_ne apart) ?_ id
      rw [sound.ascending.sounds there, active, sounds_erase_self]
      exact .finish rfl (.rest _)
  | release there active origin =>
      have kind : origin.event.isRelease := by cases origin <;> rfl
      let f (i : Instance) : Instance := { i with state := .free }
      have keeps (j : Instance) : (f j).id = j.id := rfl
      refine follows_of_event ?_ (fun other apart => sounds_modify_of_ne keeps apart) ?_ id
      · cases origin <;> simp [ReleaseOrigin.event]
      · rw [sound.ascending.sounds there, active,
          sound.ascending.sounds_modify_self keeps there]
        exact .finish kind (.rest _)
  | @play i there sample =>
      have keeps (j : Instance) : (j.play sample).id = j.id := j.id_play sample
      refine follows_of_event ?_ (fun other apart => sounds_modify_of_ne keeps apart) ?_ id
      · dsimp only
        split <;> decide
      · have active : (i.play sample).isActive := by
          simp only [Instance.play]
          split
          · assumption
          · rfl
        rw [sound.ascending.sounds there, sound.ascending.sounds_modify_self keeps there, active]
        cases i.isActive with
        | false => exact .begin (.rest _)
        | true => exact .go (.rest _)
  | enter absent room sample =>
      refine follows_of_event (by simp) (fun other apart => ?_) ?_ id
      · rw [sounds_insert]
        simp [Instance.started, apart]
      · rw [sounds_of_absent absent, sounds_insert]
        simpa [Instance.started, Instance.isActive] using Follows.begin (.rest true)

theorem Sound.follows_steps (sound : p.Sound) (steps : p.Steps told q) (id : UInt64) :
    Follows (p.sounds id) (voice id told) (q.sounds id) := by
  induction steps with
  | done p => exact .rest _
  | next step _ ih =>
      rw [voice_append]
      exact (sound.follows step id).append (ih (sound.step step))

theorem IsNew.silent {capacity : Nat} (new : p.IsNew capacity) (id : UInt64) :
    p.sounds id = false := by
  obtain ⟨steal, steps⟩ := new.steps
  have follows := (Sound.empty capacity steal).follows_steps steps id
  cases h : p.sounds id with
  | false => rfl
  | true =>
      rw [h] at follows
      cases follows

/-- What is told of a pool from its making on settles which of its instances are active: those that
    it is told became so and of whose release nothing is told since. What is told of each instance,
    values that were dropped apart, begins a succession of whole activations. So an instance is told
    to become active just when it was not, and of one that is not there is nothing else to tell. -/
theorem active_iff_told {capacity : Nat} {start : Pool} (new : start.IsNew capacity)
    (calls : List Call) :
    (∀ id, (∃ i ∈ (start.run calls).1.slots, i.id = id ∧ i.isActive) ↔
        IsOpenIn (start.run calls).2 id) ∧
      (∀ id, ∃ whole ∈ activations, voice id (start.run calls).2 <+: whole) ∧
      ∀ before e after, (start.run calls).2 = before ++ e :: after → e.kind ≠ .overflow →
        (e.kind = .new ↔ ¬ IsOpenIn before e.id) := by
  have follows (id : UInt64) :
      Follows false (voice id (start.run calls).2) ((start.run calls).1.sounds id) :=
    new.silent id ▸ new.sound.follows_steps (run_steps new.sound calls) id
  refine ⟨fun id => ?_, fun id => (follows id).isPrefix [] rfl, ?_⟩
  · rw [← sounds_iff, (follows id).active_iff, endsOpen_voice_iff]
    simp
  · intro before e after told counts
    have whole := follows e.id
    rw [told, voice_append, voice_cons counts] at whole
    obtain ⟨active, earlier, later⟩ := whole.split
    rw [later.first_iff, ← endsOpen_voice_iff, ← Bool.not_eq_true, earlier.active_iff]
    simp

/-- An instance that takes the slot of another is told of after the release of that. -/
theorem robbed_told :
    let start : Pool := ⟨[.reserved 0], .oldest, 1⟩
    let calls : List Call := [.update 5 ⟨⟨.int32 [1], .inr (by decide)⟩, ⟨1, 0⟩⟩,
      .update 6 ⟨⟨.int32 [2], .inr (by decide)⟩, ⟨2, 0⟩⟩]
    start.IsNew 1 ∧ (start.run calls).2 = [⟨.new, 5⟩, ⟨.releasedHere, 5⟩, ⟨.new, 6⟩] ∧
      (∃ i ∈ (start.run calls).1.slots, i.id = 6 ∧ i.isActive) ∧
      ¬ ∃ i ∈ (start.run calls).1.slots, i.id = 5 ∧ i.isActive := by
  intro start calls
  have new : start.IsNew 1 := ⟨.oldest, .inr ⟨1, rfl⟩⟩
  have told : (start.run calls).2 = [⟨.new, 5⟩, ⟨.releasedHere, 5⟩, ⟨.new, 6⟩] := by decide
  obtain ⟨active, -, -⟩ := active_iff_told new calls
  refine ⟨new, told, (active 6).mpr ?_, fun sounds => ?_⟩
  · rw [told]
    exact ⟨[⟨.new, 5⟩, ⟨.releasedHere, 5⟩], [], rfl, by simp⟩
  · have isOpen := (active 5).mp sounds
    rw [told, isOpenIn_cons, isOpenIn_cons, isOpenIn_cons] at isOpen
    simp [PoolEventKind.isRelease, IsOpenIn] at isOpen

end Pool

end SignalGraph
