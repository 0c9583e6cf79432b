import SignalGraph.Text.Blank
import SignalGraph.Text.Digits

/-! # Decimal numerals

What is written for a number is read back as that number, signs and blanks around it included.
-/

namespace SignalGraph.Text

/-! ## Digits -/

theorem decimalDigit?_digitChar {d : Nat} (small : d < 10) :
    decimalDigit? (digitChar d) = some d := by
  have all : ∀ d < 10, decimalDigit? (digitChar d) = some d := by decide
  exact all d small

theorem bounds_of_isDecimalDigit {c : Char} (digit : isDecimalDigit c) :
    48 ≤ c.toNat ∧ c.toNat ≤ 57 := by
  unfold isDecimalDigit decimalDigit? at digit
  split at digit
  · rename_i bounds
    exact bounds
  · cases digit

theorem not_isBlank_of_isDecimalDigit {c : Char} (digit : isDecimalDigit c) :
    isBlank c = false := by
  have bounds := bounds_of_isDecimalDigit digit
  simp [isBlank, blankRanges]
  omega

/-! ## Natural numbers -/

theorem decimalDigits_of_lt {n : Nat} (small : n < 10) : decimalDigits n = [digitChar n] := by
  rw [decimalDigits, digitsFrom, if_pos small]

theorem decimalDigits_of_le {n : Nat} (large : 10 ≤ n) :
    decimalDigits n = decimalDigits (n / 10) ++ [digitChar (n % 10)] := by
  rw [decimalDigits, digitsFrom, if_neg (by omega)]
  rfl

theorem decimalDigits_ne_nil (n : Nat) : decimalDigits n ≠ [] := by
  by_cases small : n < 10
  · rw [decimalDigits_of_lt small]
    exact List.cons_ne_nil _ _
  · rw [decimalDigits_of_le (by omega)]
    exact List.append_ne_nil_of_right_ne_nil _ (List.cons_ne_nil _ _)

theorem isDecimalDigit_of_mem {n : Nat} {c : Char} (member : c ∈ decimalDigits n) :
    isDecimalDigit c := by
  induction n using Nat.strongRecOn with
  | ind n ih =>
      have digit {d : Nat} (small : d < 10) : isDecimalDigit (digitChar d) := by
        rw [isDecimalDigit, decimalDigit?_digitChar small]
        rfl
      by_cases small : n < 10
      · rw [decimalDigits_of_lt small, List.mem_singleton] at member
        exact member ▸ digit small
      · rw [decimalDigits_of_le (by omega), List.mem_append, List.mem_singleton] at member
        rcases member with before | rfl
        · exact ih (n / 10) (by omega) before
        · exact digit (by omega)

theorem decimalValue_decimalDigits (n : Nat) : decimalValue 0 (decimalDigits n) = n := by
  induction n using Nat.strongRecOn with
  | ind n ih =>
      by_cases small : n < 10
      · rw [decimalDigits_of_lt small]
        simp [decimalValue, decimalDigit?_digitChar small]
      · have front := ih (n / 10) (by omega)
        have last := decimalDigit?_digitChar (Nat.mod_lt n (show 10 > 0 by omega))
        rw [decimalValue] at front ⊢
        rw [decimalDigits_of_le (by omega), List.foldl_append, front]
        simp only [List.foldl_cons, List.foldl_nil, last, Option.getD_some]
        omega

theorem readDecimal?_decimalDigits (n : Nat) : readDecimal? (decimalDigits n) = some n := by
  have some : (decimalDigits n).isEmpty = false := by
    simpa using decimalDigits_ne_nil n
  have digits : (decimalDigits n).all isDecimalDigit = true :=
    List.all_eq_true.mpr fun c member => isDecimalDigit_of_mem member
  simp [readDecimal?, some, digits, decimalValue_decimalDigits]

/-! ## Integers -/

/-- A numeral without a sign is read as the natural number that it is. -/
theorem readInt?_decimalDigits (n : Nat) : readInt? (decimalDigits n) = some (n : Int) := by
  have unsigned (sign : Char) (rest : List Char) (starts : decimalDigits n = sign :: rest) :
      48 ≤ sign.toNat :=
    (bounds_of_isDecimalDigit (isDecimalDigit_of_mem (starts ▸ List.mem_cons_self))).1
  unfold readInt?
  split
  · rename_i rest starts
    exact absurd (unsigned '-' rest starts) (by decide)
  · rename_i rest starts
    exact absurd (unsigned '+' rest starts) (by decide)
  · rw [readDecimal?_decimalDigits]
    rfl

theorem readInt?_decimalInt (z : Int) : readInt? (decimalInt z) = some z := by
  unfold decimalInt
  split
  · rw [readInt?, readDecimal?_decimalDigits]
    change some (-(z.natAbs : Int)) = some z
    rw [Option.some.injEq]
    omega
  · rw [readInt?_decimalDigits, Option.some.injEq]
    omega

/-! ## Blanks -/

theorem trim_of_unblank {cs : List Char} (unblank : ∀ c ∈ cs, isBlank c = false) :
    trim cs = cs := by
  have kept (cs : List Char) (unblank : ∀ c ∈ cs, isBlank c = false) :
      cs.dropWhile isBlank = cs := by
    cases cs with
    | nil => rfl
    | cons c cs =>
        have first : ¬ isBlank c = true := by simp [unblank c List.mem_cons_self]
        exact List.dropWhile_cons_of_neg first
  rw [trim, kept cs unblank, kept cs.reverse, List.reverse_reverse]
  intro c member
  exact unblank c (List.mem_reverse.mp member)

theorem trim_decimalInt (z : Int) : trim (decimalInt z) = decimalInt z := by
  apply trim_of_unblank
  intro c member
  unfold decimalInt at member
  split at member
  · rcases List.mem_cons.mp member with rfl | digit
    · decide
    · exact not_isBlank_of_isDecimalDigit (isDecimalDigit_of_mem digit)
  · exact not_isBlank_of_isDecimalDigit (isDecimalDigit_of_mem member)

end SignalGraph.Text
