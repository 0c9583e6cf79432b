import Mathlib.Data.List.Infix
import SignalGraph.Text.Wildcard

/-! # What globs match

A glob stands for the texts that come of it when each star gives way to a run of characters, and
matching finds just those. Only the last star is ever gone back to: whatever an earlier one might
take in besides, the last one can take in too. Every step of the scan uses up some of a budget, so
that it stops.
-/

namespace SignalGraph.Text

variable {pattern text word : List Char} {c : Char}

/-! ## What a glob stands for -/

/-- Whether a text comes of a pattern when each star gives way to some characters, maybe none, and
    every other character stays. -/
inductive StandsFor : List Char → List Char → Prop
  | nil : StandsFor [] []
  | keep {c : Char} {pattern text : List Char} (literal : c ≠ '*') (rest : StandsFor pattern text) :
      StandsFor (c :: pattern) (c :: text)
  | star {pattern text : List Char} (taken : List Char) (rest : StandsFor pattern text) :
      StandsFor ('*' :: pattern) (taken ++ text)

namespace StandsFor

theorem nil_iff : StandsFor [] text ↔ text = [] := by
  constructor
  · intro stands
    cases stands
    rfl
  · rintro rfl
    exact .nil

theorem cons_iff (literal : c ≠ '*') :
    StandsFor (c :: pattern) text ↔ ∃ tail, text = c :: tail ∧ StandsFor pattern tail := by
  constructor
  · intro stands
    cases stands with
    | keep _ rest => exact ⟨_, rfl, rest⟩
    | star => exact absurd rfl literal
  · rintro ⟨tail, rfl, rest⟩
    exact .keep literal rest

theorem star_iff :
    StandsFor ('*' :: pattern) text ↔ ∃ rest, rest <:+ text ∧ StandsFor pattern rest := by
  constructor
  · intro stands
    cases stands with
    | keep literal => exact absurd rfl literal
    | star taken rest => exact ⟨_, List.suffix_append taken _, rest⟩
  · rintro ⟨rest, ⟨taken, rfl⟩, stands⟩
    exact .star taken stands

/-- A star for a star: every pattern stands for itself. -/
theorem refl (pattern : List Char) : StandsFor pattern pattern := by
  induction pattern with
  | nil => exact .nil
  | cons c pattern ih =>
      by_cases star : c = '*'
      · subst star
        exact .star ['*'] ih
      · exact .keep star ih

/-- A word without stars has to stand in front of the text as it is. -/
theorem append_iff (literal : '*' ∉ word) :
    StandsFor (word ++ pattern) text ↔ ∃ rest, text = word ++ rest ∧ StandsFor pattern rest := by
  induction word generalizing text with
  | nil => simp
  | cons c word ih =>
      obtain ⟨own, others⟩ := not_or.mp (mt List.mem_cons.mpr literal)
      simp only [List.cons_append, cons_iff (Ne.symm own), ih others]
      grind

theorem append_append_iff (literal : '*' ∉ word) :
    StandsFor (word ++ pattern) (word ++ text) ↔ StandsFor pattern text := by
  rw [append_iff literal]
  simp only [List.append_cancel_left_eq, exists_eq_left']

/-- A pattern without stars stands for itself alone. -/
theorem eq_iff (literal : '*' ∉ pattern) : StandsFor pattern text ↔ pattern = text := by
  have whole : StandsFor (pattern ++ []) text ↔ _ := append_iff literal
  simp only [List.append_nil, nil_iff, exists_eq_right] at whole
  exact whole.trans eq_comm

/-- Where a star is reached behind a word, nothing is gained by moving the word further on: what the
    text has in between, the star takes in. -/
theorem exists_suffix_iff (literal : '*' ∉ word) :
    (∃ rest, rest <:+ word ++ text ∧ StandsFor (word ++ '*' :: pattern) rest) ↔
      StandsFor ('*' :: pattern) text := by
  constructor
  · rintro ⟨rest, within, stands⟩
    obtain ⟨later, rfl, left⟩ := (append_iff literal).mp stands
    obtain ⟨last, ends, behind⟩ := star_iff.mp left
    have shorter : later.length ≤ text.length := by
      have fits := within.length_le
      simp only [List.length_append] at fits
      omega
    have inside : later <:+ text :=
      List.suffix_of_suffix_length_le ((List.suffix_append word later).trans within)
        (List.suffix_append word text) shorter
    exact star_iff.mpr ⟨last, ends.trans inside, behind⟩
  · intro stands
    exact ⟨word ++ text, List.suffix_rfl, (append_append_iff literal).mpr stands⟩

end StandsFor

/-! ## Matching -/

theorem suffix_iff_eq_or_suffix_tail (text : List Char) {rest : List Char} :
    rest <:+ text ↔ rest = text ∨ rest <:+ text.tail := by
  cases text with
  | nil => simp
  | cons c text => exact List.suffix_cons_iff

/-- Where a pattern fails at the head of a text, it is left to try behind it. -/
theorem exists_suffix_tail_iff (failed : ¬ StandsFor pattern text) :
    (∃ rest, rest <:+ text.tail ∧ StandsFor pattern rest) ↔
      ∃ rest, rest <:+ text ∧ StandsFor pattern rest := by
  simp only [suffix_iff_eq_or_suffix_tail text, or_and_right, exists_or, exists_eq_left, failed,
    false_or]

/-- A scan that has come over a word behind the last star finds all that the star can lead to from
    where it was last tried, though it forgets the stars before. -/
theorem scanBehindStar_iff {base start : List Char} (inside : text.length ≤ start.length)
    (literal : '*' ∉ word) (passed : base = word ++ pattern) (reached : start = word ++ text) :
    scanBehindStar base start pattern text inside ↔
      ∃ rest, rest <:+ start ∧ StandsFor base rest := by
  fun_induction scanBehindStar base start pattern text inside generalizing word with
  | case1 base start rest text _ inside again =>
      subst passed reached
      rw [again (List.not_mem_nil : '*' ∉ []) rfl rfl, StandsFor.exists_suffix_iff literal,
        StandsFor.star_iff]
  | case2 base start =>
      subst passed reached
      simp only [true_iff]
      exact ⟨_, List.suffix_rfl, StandsFor.refl _⟩
  | case3 base start p rest _ other =>
      subst passed reached
      simp only [Bool.false_eq_true, false_iff]
      rintro ⟨later, within, stands⟩
      obtain ⟨last, rfl, left⟩ := (StandsFor.append_iff literal).mp stands
      obtain ⟨_, rfl, -⟩ := (StandsFor.cons_iff other).mp left
      have fits := within.length_le
      simp only [List.length_append, List.length_cons, List.length_nil] at fits
      omega
  | case4 base start c tail _ inside again =>
      have failed : ¬ StandsFor base start := by
        rw [passed, reached, StandsFor.append_append_iff literal, StandsFor.nil_iff]
        exact List.cons_ne_nil _ _
      rw [again (List.not_mem_nil : '*' ∉ []) rfl rfl, exists_suffix_tail_iff failed]
  | case5 base start rest c tail _ _ other on =>
      have longer : '*' ∉ word ++ [c] := by simp [literal, Ne.symm other]
      exact on longer (by simp [passed]) (by simp [reached])
  | case6 base start p rest c tail _ other apart _ again =>
      have failed : ¬ StandsFor base start := by
        rw [passed, reached, StandsFor.append_append_iff literal, StandsFor.cons_iff other]
        rintro ⟨_, same, -⟩
        exact apart (List.cons.inj same).1.symm
      rw [again (List.not_mem_nil : '*' ∉ []) rfl rfl, exists_suffix_tail_iff failed]

/-- Right behind a star, that is all the texts that the star and what follows it stand for. -/
theorem scanBehindStar_self_iff (pattern text : List Char) :
    scanBehindStar pattern text pattern text (Nat.le_refl _) ↔ StandsFor ('*' :: pattern) text := by
  rw [StandsFor.star_iff]
  exact scanBehindStar_iff _ (List.not_mem_nil : '*' ∉ []) rfl rfl

theorem wildcardMatches_iff (pattern text : List Char) :
    wildcardMatches pattern text ↔ StandsFor pattern text := by
  fun_induction wildcardMatches pattern text with
  | case1 rest text => exact scanBehindStar_self_iff rest text
  | case2 => simp [StandsFor.nil_iff]
  | case3 p rest c tail other ih =>
      rw [StandsFor.cons_iff other, Bool.and_eq_true, decide_eq_true_iff, ih]
      grind
  | case4 pattern text star ended going =>
      simp only [Bool.false_eq_true, false_iff]
      intro stands
      cases stands with
      | nil => exact ended rfl rfl
      | keep _ _ => exact going _ _ _ _ rfl rfl
      | star _ _ => exact star _ rfl

theorem matchesGlob_iff (pattern text : String) :
    matchesGlob pattern text ↔ StandsFor pattern.toList text.toList :=
  wildcardMatches_iff pattern.toList text.toList

/-- Without a star, matching is equality. -/
theorem matchesGlob_iff_eq {pattern text : String} (literal : '*' ∉ pattern.toList) :
    matchesGlob pattern text ↔ pattern = text := by
  rw [matchesGlob_iff, StandsFor.eq_iff literal, String.toList_inj]

theorem matchesGlob_self (pattern : String) : matchesGlob pattern pattern :=
  (matchesGlob_iff pattern pattern).mpr (.refl _)

/-! ## Scanning step by step -/

/-- Where a scan stands: what is left of pattern and text, and what it can fall back on, which is
    what follows the last star and the text that this was last tried at. -/
structure Scan where
  pattern : List Char
  text : List Char
  fallback : Option (List Char × List Char)

namespace Scan

variable {s : Scan} {verdict : Bool} {base start rest tail : List Char}

def fresh (pattern text : List Char) : Scan := ⟨pattern, text, none⟩

/-- What follows a star, tried at a text. -/
def trying (base text : List Char) : Scan := ⟨base, text, some (base, text)⟩

/-- After a mismatch the last star takes in one more character; without a star there is no match. -/
def goBack (s : Scan) : Scan ⊕ Bool :=
  match s.fallback with
  | some (base, start) => .inl (trying base start.tail)
  | none => .inr false

/-- One step of a scan, or its verdict. At the end of the text only stars may be left. -/
def step (s : Scan) : Scan ⊕ Bool :=
  match s.pattern, s.text with
  | pattern, [] => .inr (pattern.all (· = '*'))
  | '*' :: rest, text => .inl (trying rest text)
  | [], _ :: _ => s.goBack
  | p :: rest, c :: tail => if p = c then .inl ⟨rest, tail, s.fallback⟩ else s.goBack

/-- The verdict of a scan, if it comes within so many steps. -/
def run : Nat → Scan → Option Bool
  | 0, _ => none
  | steps + 1, s =>
    match s.step with
    | .inl next => run steps next
    | .inr verdict => some verdict

/-- The verdict on a text within so many steps. A pattern without a star is compared as it is. -/
def matchWithin (steps : Nat) (pattern text : String) : Option Bool :=
  if '*' ∈ pattern.toList then run steps (fresh pattern.toList text.toList)
  else some (pattern == text)

/-- A bound on the steps to come: the places left to the last star, each with all that follows the
    star, and what is left of the pattern. -/
def budget (s : Scan) : Nat :=
  match s.fallback with
  | some (base, start) => start.length * (base.length + 1) + s.pattern.length + 1
  | none => s.text.length * (s.pattern.length + 1) + s.pattern.length + 1

/-- Whether a scan stands where matching comes to a verdict. -/
inductive LeadsTo : Scan → Bool → Prop
  | fresh (pattern text : List Char) : LeadsTo (fresh pattern text) (wildcardMatches pattern text)
  | behindStar {base start pattern text : List Char} (within : pattern.length ≤ base.length)
      (inside : text.length ≤ start.length) :
      LeadsTo ⟨pattern, text, some (base, start)⟩ (scanBehindStar base start pattern text inside)

/-! ### What a step does -/

theorem scanBehindStar_nil (inside : [].length ≤ start.length) (pattern : List Char) :
    scanBehindStar base start pattern [] inside = pattern.all (· = '*') := by
  induction pattern generalizing base start with
  | nil => simp [scanBehindStar]
  | cons c rest ih =>
      by_cases star : c = '*'
      · subst star
        simp [scanBehindStar, ih]
      · simp [scanBehindStar, star]

theorem wildcardMatches_nil (pattern : List Char) :
    wildcardMatches pattern [] = pattern.all (· = '*') := by
  cases pattern with
  | nil => simp [wildcardMatches]
  | cons c rest =>
      by_cases star : c = '*'
      · subst star
        simp [wildcardMatches, scanBehindStar_nil]
      · simp [wildcardMatches, star]

theorem leadsTo_trying (base text : List Char) :
    LeadsTo (trying base text) (scanBehindStar base text base text (Nat.le_refl _)) :=
  .behindStar (Nat.le_refl _) (Nat.le_refl _)

theorem budget_fresh (pattern text : List Char) :
    (fresh pattern text).budget = (text.length + 1) * (pattern.length + 1) := by
  simp only [budget, fresh]
  grind

theorem budget_trying (base text : List Char) :
    (trying base text).budget = (text.length + 1) * (base.length + 1) := by
  simp only [budget, trying]
  grind

/-- To go back to the last star costs all that follows it, once. -/
theorem budget_trying_tail_lt (inside : (c :: tail).length ≤ start.length)
    (pattern text : List Char) :
    (trying base start.tail).budget < (Scan.mk pattern text (some (base, start))).budget := by
  have left : start.tail.length + 1 = start.length := by
    simp only [List.length_cons, List.length_tail] at inside ⊢
    omega
  rw [budget_trying, left]
  simp only [budget]
  omega

/-- A later star has no more places left than the one before, and less that follows it. -/
theorem budget_trying_lt (within : ('*' :: rest).length ≤ base.length)
    (inside : text.length ≤ start.length) :
    (trying rest text).budget < (Scan.mk ('*' :: rest) text (some (base, start))).budget := by
  have fewer : text.length * (rest.length + 1) ≤ start.length * (base.length + 1) :=
    Nat.mul_le_mul inside (Nat.le_succ_of_le within)
  rw [budget_trying, Nat.add_mul]
  simp only [budget, List.length_cons]
  omega

theorem LeadsTo.step_fresh (pattern text : List Char) :
    match (Scan.fresh pattern text).step with
    | .inl next => LeadsTo next (wildcardMatches pattern text) ∧
        next.budget < (Scan.fresh pattern text).budget
    | .inr given => given = wildcardMatches pattern text := by
  match pattern, text with
  | pattern, [] => exact (wildcardMatches_nil pattern).symm
  | [], c :: tail => rfl
  | p :: rest, c :: tail =>
      by_cases star : p = '*'
      · subst star
        refine ⟨leadsTo_trying rest (c :: tail), ?_⟩
        rw [budget_trying, budget_fresh, Nat.mul_lt_mul_left (Nat.succ_pos _), List.length_cons]
        omega
      · by_cases same : p = c
        · subst same
          have step : (Scan.fresh (p :: rest) (p :: tail)).step = .inl (.fresh rest tail) := by
            simp [Scan.step, Scan.fresh]
          have verdict : wildcardMatches (p :: rest) (p :: tail) = wildcardMatches rest tail := by
            simp [wildcardMatches]
          rw [step, verdict]
          refine ⟨.fresh rest tail, ?_⟩
          rw [budget_fresh, budget_fresh]
          grind
        · simp [Scan.step, Scan.fresh, same, goBack, wildcardMatches]

/-- A step keeps to the verdict and uses up some of the budget. -/
theorem LeadsTo.step (leads : LeadsTo s verdict) :
    match s.step with
    | .inl next => LeadsTo next verdict ∧ next.budget < s.budget
    | .inr given => given = verdict := by
  cases leads with
  | fresh pattern text => exact step_fresh pattern text
  | @behindStar base start pattern text within inside =>
      match pattern, text with
      | pattern, [] => exact (scanBehindStar_nil inside pattern).symm
      | [], c :: tail =>
          simp only [Scan.step, scanBehindStar, goBack]
          exact ⟨leadsTo_trying base start.tail, budget_trying_tail_lt inside _ _⟩
      | p :: rest, c :: tail =>
          by_cases star : p = '*'
          · subst star
            simp only [Scan.step, scanBehindStar]
            exact ⟨leadsTo_trying rest (c :: tail), budget_trying_lt within inside⟩
          · by_cases same : p = c
            · subst same
              simp only [Scan.step, scanBehindStar, ↓reduceIte]
              refine ⟨.behindStar (Nat.le_of_succ_le within) (Nat.le_of_succ_le inside), ?_⟩
              simp only [budget, List.length_cons]
              omega
            · simp only [Scan.step, same, goBack, scanBehindStar, ↓reduceIte]
              exact ⟨leadsTo_trying base start.tail, budget_trying_tail_lt inside _ _⟩

/-- A scan comes to its verdict within its budget. -/
theorem LeadsTo.run (leads : LeadsTo s verdict) {steps : Nat} (enough : s.budget ≤ steps) :
    s.run steps = some verdict := by
  induction steps generalizing s with
  | zero =>
      have some : 0 < s.budget := by
        unfold budget
        split <;> omega
      omega
  | succ steps ih =>
      have kept := leads.step
      unfold Scan.run
      cases next : s.step with
      | inl next =>
          simp only [next] at kept ⊢
          exact ih kept.1 (by omega)
      | inr given =>
          simp only [next] at kept ⊢
          rw [kept]

theorem matchWithin_eq (pattern text : String) :
    matchWithin ((text.length + 1) * (pattern.length + 1)) pattern text =
      some (matchesGlob pattern text) := by
  unfold matchWithin
  split
  · refine (LeadsTo.fresh _ _).run ?_
    rw [budget_fresh, String.length_toList, String.length_toList]
  · rename_i literal
    rw [Option.some.injEq, Bool.eq_iff_iff, beq_iff_eq, matchesGlob_iff_eq literal]

end Scan

/-- A scan comes to a verdict within the product of the two lengths, each and one. The verdict is
    that a text matches just if it comes of the pattern when the stars give way to runs of
    characters. -/
theorem scan_exact (pattern text : String) :
    Scan.matchWithin ((text.length + 1) * (pattern.length + 1)) pattern text =
        some (matchesGlob pattern text) ∧
      (matchesGlob pattern text ↔ StandsFor pattern.toList text.toList) :=
  ⟨Scan.matchWithin_eq pattern text, matchesGlob_iff pattern text⟩

/-- The star takes in `a`, after it was tried with nothing. -/
example : Scan.matchWithin 6 "*ab" "aab" = some true := by decide

end SignalGraph.Text
