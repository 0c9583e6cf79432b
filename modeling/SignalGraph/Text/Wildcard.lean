/-! # Wildcards

Glob patterns in which a star stands for any run of characters and every other character for
itself. A scan keeps one place to fall back to, just behind the last star: a star that has matched
need not be revisited once a later star is reached.
-/

namespace SignalGraph.Text

/-- Scans behind a star: `base` is the pattern behind the last star and `start` the text it was last
    tried at. On a mismatch the star takes in one more character. -/
def scanBehindStar (base start pattern text : List Char) (inside : text.length ≤ start.length) :
    Bool :=
  match pattern, text with
  | '*' :: rest, text => scanBehindStar rest text rest text (Nat.le_refl _)
  | [], [] => true
  | _ :: _, [] => false
  | [], _ :: _ => scanBehindStar base start.tail base start.tail (Nat.le_refl _)
  | p :: rest, c :: tail =>
    if p = c then scanBehindStar base start rest tail (Nat.le_of_succ_le inside)
    else scanBehindStar base start.tail base start.tail (Nat.le_refl _)
termination_by (start.length, pattern.length + text.length)
decreasing_by
  · rcases Nat.lt_or_eq_of_le inside with fewer | same
    · exact Prod.Lex.left _ _ fewer
    · exact same ▸ Prod.Lex.right _ (by simp)
  · exact Prod.Lex.left _ _ (by simp at inside ⊢; omega)
  · exact Prod.Lex.right _ (by simp; omega)
  · exact Prod.Lex.left _ _ (by simp at inside ⊢; omega)

/-- Whether a text matches a pattern: character by character up to the first star. -/
def wildcardMatches : List Char → List Char → Bool
  | '*' :: rest, text => scanBehindStar rest text rest text (Nat.le_refl _)
  | [], [] => true
  | p :: rest, c :: tail => p = c && wildcardMatches rest tail
  | _, _ => false

/-- Whether `text` is an instance of the glob `pattern`. -/
def matchesGlob (pattern text : String) : Bool := wildcardMatches pattern.toList text.toList

end SignalGraph.Text
