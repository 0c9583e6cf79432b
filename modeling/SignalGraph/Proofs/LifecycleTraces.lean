import Mathlib.Computability.Language
import SignalGraph.Proofs.LifecycleChanges

/-! # Lifecycle traces

What may happen to one object, apart from all others. What listeners are told of it, in order, is
the beginning of a succession of lives: the object is added, modified any number of times, and then
removed or expired. What is held of it is always at the stage of which they are told last.
-/

namespace SignalGraph

open scoped Computability

/-- Successions of whole lives. -/
def lives : Language Lifecycle :=
  ({[.added]} * ({[.modified]} : Language Lifecycle)∗ * {[.removed], [.expired]})∗

/-! ## Words -/

/-- The words that can be heard of one object, from the first on. -/
inductive Chronicle : List Lifecycle → Prop
  | nil : Chronicle []
  | begin {w : List Lifecycle} (before : Chronicle w)
      (vacant : ∀ how, w.getLast? = some how → how.status.isTerminal) : Chronicle (w ++ [.added])
  | change {w : List Lifecycle} {last : Lifecycle} (before : Chronicle w)
      (latest : w.getLast? = some last) (live : last.status.isTerminal = false) :
      Chronicle (w ++ [.modified])
  | finish {w : List Lifecycle} {last how : Lifecycle} (before : Chronicle w)
      (latest : w.getLast? = some last) (live : last.status.isTerminal = false)
      (terminal : how.status.isTerminal) : Chronicle (w ++ [how])

/-- Whether a word is some whole lives, and then one that is not over. -/
def IsOpen (w : List Lifecycle) : Prop :=
  ∃ done ∈ lives, ∃ n, w = done ++ .added :: List.replicate n .modified

theorem IsOpen.change {w : List Lifecycle} (isOpen : IsOpen w) : IsOpen (w ++ [.modified]) := by
  obtain ⟨done, whole, n, rfl⟩ := isOpen
  refine ⟨done, whole, n + 1, ?_⟩
  rw [List.replicate_succ', List.append_assoc, List.cons_append]

/-- One life more after whole ones. -/
theorem lives_append {done life : List Lifecycle} (whole : done ∈ lives)
    (one : life ∈ ({[.added]} * ({[.modified]} : Language Lifecycle)∗ *
      {[.removed], [.expired]} : Language Lifecycle)) : done ++ life ∈ lives := by
  obtain ⟨before, rfl, each⟩ := Language.mem_kstar.mp whole
  refine Language.mem_kstar.mpr ⟨before ++ [life], by simp, ?_⟩
  intro w member
  rcases List.mem_append.mp member with earlier | last
  · exact each w earlier
  · exact List.mem_singleton.mp last ▸ one

theorem IsOpen.finish {w : List Lifecycle} {how : Lifecycle} (isOpen : IsOpen w)
    (terminal : how.status.isTerminal) : w ++ [how] ∈ lives := by
  obtain ⟨done, whole, n, rfl⟩ := isOpen
  have changes : List.replicate n Lifecycle.modified ∈ ({[.modified]} : Language Lifecycle)∗ :=
    Language.mem_kstar.mpr ⟨List.replicate n [.modified], by simp,
      fun w member => List.eq_of_mem_replicate member⟩
  have begun : [Lifecycle.added] ++ List.replicate n .modified ∈
      ({[.added]} * ({[.modified]} : Language Lifecycle)∗ : Language Lifecycle) :=
    Language.append_mem_mul rfl changes
  have last : [how] ∈ ({[.removed], [.expired]} : Language Lifecycle) := by
    cases how with
    | added | modified => exact Bool.noConfusion terminal
    | removed => exact .inl rfl
    | expired => exact .inr rfl
  have life := lives_append whole (Language.append_mem_mul begun last)
  simpa using life

namespace Chronicle

variable {w : List Lifecycle}

/-- A word that ends in an end is some whole lives, and one that does not has one open. -/
theorem cases (chronicle : Chronicle w) :
    (w ∈ lives ∧ ∀ how, w.getLast? = some how → how.status.isTerminal) ∨
      (IsOpen w ∧ ∀ how, w.getLast? = some how → how.status.isTerminal = false) := by
  -- How the word ends is carried along, as it decides which steps may follow.
  induction chronicle with
  | nil => exact .inl ⟨Language.nil_mem_kstar _, fun how last => by cases last⟩
  | @begin w before vacant ih =>
      refine .inr ⟨?_, fun how last => ?_⟩
      · rcases ih with ⟨whole, -⟩ | ⟨isOpen, live⟩
        · exact ⟨w, whole, 0, rfl⟩
        · obtain ⟨done, -, n, same⟩ := isOpen
          cases last : w.getLast? with
          | none => simp [same] at last
          | some how => exact absurd ((live how last).symm.trans (vacant how last)) (by simp)
      · rw [List.getLast?_concat] at last
        exact Option.some.inj last ▸ rfl
  | @change w last before latest live ih =>
      refine .inr ⟨?_, fun how last => ?_⟩
      · rcases ih with ⟨-, terminal⟩ | ⟨isOpen, -⟩
        · exact absurd (live.symm.trans (terminal last latest)) (by simp)
        · exact isOpen.change
      · rw [List.getLast?_concat] at last
        exact Option.some.inj last ▸ rfl
  | @finish w last how before latest live terminal ih =>
      refine .inl ⟨?_, fun how' last => ?_⟩
      · rcases ih with ⟨-, ended⟩ | ⟨isOpen, -⟩
        · exact absurd (live.symm.trans (ended last latest)) (by simp)
        · exact isOpen.finish terminal
      · rw [List.getLast?_concat] at last
        exact Option.some.inj last ▸ terminal

/-- What was heard begins a succession of lives. -/
theorem isPrefix (chronicle : Chronicle w) : ∃ whole ∈ lives, w <+: whole := by
  rcases chronicle.cases with ⟨whole, -⟩ | ⟨isOpen, -⟩
  · exact ⟨w, whole, List.prefix_refl w⟩
  · exact ⟨w ++ [.removed], isOpen.finish rfl, List.prefix_append ..⟩

end Chronicle

/-! ## What happens to one object -/

/-- What of all that happens concerns the hearing of one object. -/
inductive Beat where
  | queued (how : Lifecycle)
  /-- All that is queued is told in a poll, of which this is the number. -/
  | told (cycle : Nat)
  deriving Repr, DecidableEq

def Beat.word? : Beat → Option Lifecycle
  | queued how => some how
  | told _ => none

def words (beats : List Beat) : List Lifecycle := beats.filterMap Beat.word?

theorem words_append (beats more : List Beat) : words (beats ++ more) = words beats ++ words more :=
  List.filterMap_append

theorem words_queued (said : List Lifecycle) : words (said.map .queued) = said := by
  simp [words, List.filterMap_map, Function.comp_def, Beat.word?]

def Standing.isLive (x : Standing) : Bool := !x.status.isTerminal

/-- What is held of one object, and what is still to be told of it. -/
structure Life where
  standing : Option Standing
  waiting : List Lifecycle
  deriving Repr, DecidableEq

/-- What may happen to one object in one step. -/
inductive Shift : Life → List Beat → Life → Prop
  | rest (l : Life) : Shift l [] l
  | begin {s : Option Standing} {w : List Lifecycle} {x : Standing}
      (vacant : ∀ y, s = some y → y.isLive = false) (status : x.status = .new)
      (terminalAt : x.terminalAt = none) :
      Shift ⟨s, w⟩ [.queued .added] ⟨some x, w ++ [.added]⟩
  | change {x : Standing} {w : List Lifecycle} (live : x.isLive) :
      Shift ⟨some x, w⟩ [.queued .modified]
        ⟨some { x with status := .modified }, w ++ [.modified]⟩
  | finish {x : Standing} {w : List Lifecycle} {how : Lifecycle} (live : x.isLive)
      (terminal : how.status.isTerminal) (time : Timetag) :
      Shift ⟨some x, w⟩ [.queued how]
        ⟨some { x with status := how.status, terminalAt := some time, observedCycle := none },
          w ++ [how]⟩
  | tell (l : Life) (cycle : Nat) : Shift l [.told cycle]
      ⟨if l.waiting = [] then l.standing
        else l.standing.map ({ · with observedCycle := some cycle }), []⟩
  | leave {x : Standing} (gone : x.isLive = false) : Shift ⟨some x, []⟩ [] ⟨none, []⟩

inductive Shifts : Life → List Beat → Life → Prop
  | done (l : Life) : Shifts l [] l
  | next {l m n : Life} {beats more : List Beat} (shift : Shift l beats m)
      (rest : Shifts m more n) : Shifts l (beats ++ more) n

namespace Shifts

variable {l m n : Life} {beats more : List Beat}

theorem one (shift : Shift l beats m) : Shifts l beats m :=
  List.append_nil beats ▸ Shifts.next shift (.done m)

theorem trans (first : Shifts l beats m) (second : Shifts m more n) :
    Shifts l (beats ++ more) n := by
  induction first with
  | done l => exact second
  | next shift _ ih => exact List.append_assoc .. ▸ .next shift (ih second)

end Shifts

/-- Whether the last of what was queued was told in some cycle. -/
def ToldIn (beats : List Beat) (how : Lifecycle) (cycle : Nat) : Prop :=
  ∃ before after, beats = before ++ .queued how :: .told cycle :: after ∧ words after = []

namespace ToldIn

variable {beats : List Beat} {how how' : Lifecycle} {cycle cycle' : Nat}

theorem latest (told : ToldIn beats how cycle) : (words beats).getLast? = some how := by
  obtain ⟨before, after, rfl, silent⟩ := told
  have last : words (.queued how :: .told cycle :: after) = [how] := congrArg (how :: ·) silent
  rw [words_append, last, List.getLast?_concat]

theorem tell (told : ToldIn beats how cycle) (next : Nat) :
    ToldIn (beats ++ [.told next]) how cycle := by
  obtain ⟨before, after, rfl, silent⟩ := told
  exact ⟨before, after ++ [.told next], by simp, by rw [words_append, silent]; rfl⟩

theorem cycle_eq {between after after' : List Beat} (silent : words after = [])
    (same : .queued how :: .told cycle :: after =
      between ++ .queued how' :: .told cycle' :: after') : cycle = cycle' := by
  cases between with
  | nil =>
      cases same
      rfl
  | cons beat between =>
      -- What is queued second would come after the first was told, where nothing is queued.
      have rest : .told cycle :: after = between ++ .queued how' :: .told cycle' :: after' :=
        (List.cons.inj same).2
      have none : words (.told cycle :: after) = [] := silent
      rw [rest, words_append] at none
      exact absurd (List.append_eq_nil_iff.mp none).2 (List.cons_ne_nil _ _)

theorem unique (told : ToldIn beats how cycle) (told' : ToldIn beats how' cycle') :
    cycle = cycle' := by
  obtain ⟨before, after, rfl, silent⟩ := told
  obtain ⟨before', after', same, silent'⟩ := told'
  rcases List.append_eq_append_iff.mp same with ⟨between, -, later⟩ | ⟨between, -, later⟩
  · exact cycle_eq silent later
  · exact (cycle_eq silent' later).symm

end ToldIn

/-! ## Stages -/

/-- Whether a life is at the stage at which what happened has left it. -/
structure Life.Stands (beats : List Beat) (l : Life) : Prop where
  chronicle : Chronicle (words beats)
  vacant : l.standing = none → ∀ how, (words beats).getLast? = some how → how.status.isTerminal
  stage : ∀ x, l.standing = some x → ∃ how, (words beats).getLast? = some how ∧
    x.status = how.status ∧ (x.terminalAt.isSome ↔ x.status.isTerminal)
  waiting : l.waiting.map .queued <:+ beats
  held : l.waiting ≠ [] → l.standing ≠ none
  observed : ∀ x, l.standing = some x → x.isLive = false →
    (l.waiting ≠ [] ∧ x.observedCycle = none) ∨
      (l.waiting = [] ∧ ∃ how cycle, ToldIn beats how cycle ∧ x.observedCycle = some cycle)

namespace Life.Stands

variable {beats : List Beat} {l m : Life}

theorem start : Life.Stands [] ⟨none, []⟩ where
  chronicle := .nil
  vacant _ how last := by cases last
  stage x held := by cases held
  waiting := List.suffix_refl []
  held some := absurd rfl some
  observed x held := by cases held

/-- What is queued waits behind what is queued already. -/
theorem waiting_queue (stands : l.Stands beats) (how : Lifecycle) :
    (l.waiting ++ [how]).map .queued <:+ beats ++ [.queued how] := by
  obtain ⟨told, same⟩ := stands.waiting
  refine ⟨told, ?_⟩
  rw [← same, List.map_append, List.append_assoc]
  rfl

theorem words_queue (beats : List Beat) (how : Lifecycle) :
    words (beats ++ [.queued how]) = words beats ++ [how] := words_append ..

theorem begin {x : Standing} (stands : l.Stands beats)
    (vacant : ∀ y, l.standing = some y → y.isLive = false) (status : x.status = .new)
    (terminalAt : x.terminalAt = none) :
    Life.Stands (beats ++ [.queued .added]) ⟨some x, l.waiting ++ [.added]⟩ := by
  -- Whether there is no record or one of an object gone, what was heard last is an end.
  have ended (how : Lifecycle) (last : (words beats).getLast? = some how) :
      how.status.isTerminal := by
    cases held : l.standing with
    | none => exact stands.vacant held how last
    | some y =>
        obtain ⟨how', last', same, -⟩ := stands.stage y held
        obtain rfl := Option.some.inj (last.symm.trans last')
        simpa [Standing.isLive, same] using vacant y held
  constructor
  case chronicle =>
    rw [words_queue]
    exact .begin stands.chronicle ended
  case vacant => exact fun none => by cases none
  case stage =>
    intro y same
    obtain rfl := Option.some.inj same
    refine ⟨.added, by rw [words_queue, List.getLast?_concat], status, ?_⟩
    simp [terminalAt, status, Status.isTerminal]
  case waiting => exact stands.waiting_queue .added
  case held => exact fun _ => by simp
  case observed =>
    intro y same dead
    obtain rfl := Option.some.inj same
    simp [Standing.isLive, status, Status.isTerminal] at dead

theorem last_of_live {x : Standing} (stands : l.Stands beats) (held : l.standing = some x)
    (live : x.isLive) :
    ∃ last, (words beats).getLast? = some last ∧ last.status.isTerminal = false := by
  obtain ⟨how, last, same, -⟩ := stands.stage x held
  exact ⟨how, last, by simpa [Standing.isLive, same] using live⟩

theorem words_tell (beats : List Beat) (cycle : Nat) :
    words (beats ++ [.told cycle]) = words beats := by
  rw [words_append]
  exact List.append_nil _

/-- Once all that waits is told, the last of it was told then. -/
theorem toldIn (stands : l.Stands beats) (some : l.waiting ≠ []) (cycle : Nat) :
    ∃ how, ToldIn (beats ++ [.told cycle]) how cycle := by
  obtain ⟨told, same⟩ := stands.waiting
  obtain ⟨earlier, how, waiting⟩ := (List.eq_nil_or_concat l.waiting).resolve_left some
  refine ⟨how, told ++ earlier.map .queued, [], ?_, rfl⟩
  rw [← same, waiting]
  simp

theorem tell (stands : l.Stands beats) (cycle : Nat) :
    Life.Stands (beats ++ [.told cycle]) ⟨if l.waiting = [] then l.standing
      else l.standing.map ({ · with observedCycle := some cycle }), []⟩ := by
  constructor
  case chronicle => exact words_tell beats cycle ▸ stands.chronicle
  case vacant =>
    intro none
    rw [words_tell]
    refine stands.vacant ?_
    dsimp only at none
    split at none
    · exact none
    · exact Option.map_eq_none_iff.mp none
  case stage =>
    intro x held
    rw [words_tell]
    dsimp only at held
    split at held
    · exact stands.stage x held
    · obtain ⟨y, before, rfl⟩ := Option.map_eq_some_iff.mp held
      exact stands.stage y before
  case waiting => exact List.nil_suffix
  case held => exact fun some => absurd rfl some
  case observed =>
    intro x held dead
    refine .inr ⟨rfl, ?_⟩
    dsimp only at held
    split at held
    · rename_i quiet
      rcases stands.observed x held dead with ⟨waiting, -⟩ | ⟨-, how, before, told, observed⟩
      · exact absurd quiet waiting
      · exact ⟨how, before, told.tell cycle, observed⟩
    · rename_i waiting
      obtain ⟨y, before, rfl⟩ := Option.map_eq_some_iff.mp held
      obtain ⟨how, told⟩ := stands.toldIn waiting cycle
      exact ⟨how, cycle, told, rfl⟩

theorem shift {more : List Beat} (stands : l.Stands beats) (shift : Shift l more m) :
    m.Stands (beats ++ more) := by
  cases shift with
  | rest => exact (List.append_nil beats).symm ▸ stands
  | begin vacant status terminalAt => exact stands.begin vacant status terminalAt
  | @change x w live =>
      obtain ⟨last, latest, alive⟩ := stands.last_of_live rfl live
      constructor
      case chronicle =>
        rw [words_queue]
        exact .change stands.chronicle latest alive
      case vacant => exact fun none => by cases none
      case stage =>
        intro y same
        obtain rfl := Option.some.inj same
        obtain ⟨-, -, -, terminal⟩ := stands.stage x rfl
        refine ⟨.modified, by rw [words_queue, List.getLast?_concat], rfl, ?_⟩
        have alive : x.status.isTerminal = false := by simpa [Standing.isLive] using live
        exact terminal.trans (by rw [alive]; exact Iff.rfl)
      case waiting => exact stands.waiting_queue .modified
      case held => exact fun _ => by simp
      case observed =>
        intro y same dead
        obtain rfl := Option.some.inj same
        cases dead
  | @finish x w how live terminal time =>
      obtain ⟨last, latest, alive⟩ := stands.last_of_live rfl live
      constructor
      case chronicle =>
        rw [words_queue]
        exact .finish stands.chronicle latest alive terminal
      case vacant => exact fun none => by cases none
      case stage =>
        intro y same
        obtain rfl := Option.some.inj same
        refine ⟨how, by rw [words_queue, List.getLast?_concat], rfl, ?_⟩
        simp [terminal]
      case waiting => exact stands.waiting_queue how
      case held => exact fun _ => by simp
      case observed =>
        intro y same _
        obtain rfl := Option.some.inj same
        exact .inl ⟨by simp, rfl⟩
  | tell => exact stands.tell _
  | @leave x gone =>
      rw [List.append_nil]
      obtain ⟨how, last, same, -⟩ := stands.stage x rfl
      have ended : how.status.isTerminal := by simpa [Standing.isLive, same] using gone
      constructor
      case chronicle => exact stands.chronicle
      case vacant => exact fun _ how' last' => Option.some.inj (last.symm.trans last') ▸ ended
      case stage => exact fun y none => by cases none
      case waiting => exact stands.waiting
      case held => exact fun some => absurd rfl some
      case observed => exact fun y none => by cases none

theorem shifts {more : List Beat} (stands : l.Stands beats) (shifts : Shifts l more m) :
    m.Stands (beats ++ more) := by
  induction shifts generalizing beats with
  | done l => exact (List.append_nil beats).symm ▸ stands
  | next shift _ ih => exact List.append_assoc .. ▸ ih (stands.shift shift)

/-- When nothing waits to be told, the mark of what is gone is the cycle in which its end was told. -/
theorem observed_iff {x : Standing} (stands : l.Stands beats) (told : l.waiting = [])
    (held : l.standing = some x) (gone : x.isLive = false) (cycle : Nat) :
    x.observedCycle = some cycle ↔
      ∃ how, ToldIn beats how cycle ∧ how.status = x.status := by
  obtain ⟨last, latest, status, -⟩ := stands.stage x held
  rcases stands.observed x held gone with ⟨waiting, -⟩ | ⟨-, how, before, toldIn, observed⟩
  · exact absurd told waiting
  · rw [observed, Option.some.injEq]
    constructor
    · rintro rfl
      obtain rfl := Option.some.inj (latest.symm.trans toldIn.latest)
      exact ⟨last, toldIn, status.symm⟩
    · rintro ⟨how', toldIn', -⟩
      exact toldIn.unique toldIn'

end Life.Stands

/-! ## Within one life -/

/-- Whether a standing is another later in the same life: what is gone stays gone as it went. -/
structure Standing.Continues (x later : Standing) : Prop where
  ties : later.ties = x.ties
  status : x.isLive = false → later.status = x.status

namespace Standing.Continues

variable {x y z : Standing}

theorem refl (x : Standing) : x.Continues x := ⟨rfl, fun _ => rfl⟩

theorem trans (first : x.Continues y) (second : y.Continues z) : x.Continues z := by
  refine ⟨second.ties.trans first.ties, fun gone => ?_⟩
  have same := first.status gone
  have gone' : y.isLive = false := by simpa only [isLive, same] using gone
  exact (second.status gone').trans same

end Standing.Continues

/-- What is held without having been added meanwhile was held before, in the same life. -/
theorem Shift.continues {l m : Life} {beats : List Beat} (shift : Shift l beats m)
    (same : .added ∉ words beats) {y : Standing} (held : m.standing = some y) :
    ∃ x, l.standing = some x ∧ x.Continues y := by
  cases shift with
  | rest => exact ⟨y, held, .refl y⟩
  | begin => exact absurd (List.mem_singleton_self _) same
  | @change x w live =>
      obtain rfl := Option.some.inj held
      exact ⟨x, rfl, rfl, fun gone => by cases gone.symm.trans live⟩
  | @finish x w how live terminal time =>
      obtain rfl := Option.some.inj held
      exact ⟨x, rfl, rfl, fun gone => by cases gone.symm.trans live⟩
  | tell cycle =>
      dsimp only at held
      split at held
      · exact ⟨y, held, .refl y⟩
      · obtain ⟨x, before, rfl⟩ := Option.map_eq_some_iff.mp held
        exact ⟨x, before, rfl, fun _ => rfl⟩
  | leave => cases held

theorem Shifts.continues {l m : Life} {beats : List Beat} (shifts : Shifts l beats m)
    (same : .added ∉ words beats) {y : Standing} (held : m.standing = some y) :
    ∃ x, l.standing = some x ∧ x.Continues y := by
  induction shifts with
  | done l => exact ⟨y, held, .refl y⟩
  | next shift rest ih =>
      rw [words_append, List.mem_append, not_or] at same
      obtain ⟨z, between, later⟩ := ih same.2 held
      obtain ⟨x, before, earlier⟩ := shift.continues same.1 between
      exact ⟨x, before, earlier.trans later⟩

end SignalGraph
