import Isolation.Text.Numeral
import Mathlib.Data.List.Induction

/-!
The numerals accepted by `readNumeral`: the decimal digits of a number below the bound, with leading
zeros and an optional plus sign.
-/

namespace Isolation.Text

variable {c : Char} {bound number value : Nat} {digits token : List Char}

/-- The token is a numeral of the number. -/
def Numeral (number : Nat) (token : List Char) : Prop :=
  ∃ plus zeros, (plus = [] ∨ plus = ['+']) ∧
    token = plus ++ List.replicate zeros '0' ++ Nat.toDigits 10 number

theorem Numeral.toDigits (number : Nat) : Numeral number (Nat.toDigits 10 number) :=
  ⟨[], 0, .inl rfl, rfl⟩

/-- The digits, with leading zeros allowed, have the given value. -/
structure Makes (number : Nat) (digits : List Char) : Prop where
  some : digits ≠ []
  all : ∀ c ∈ digits, c.isDigit = true
  made : Nat.ofDigitChars 10 digits 0 = number

theorem digit_lt_ten (digit : c.isDigit = true) : c.toNat - '0'.toNat < 10 := by
  have high := (Char.isDigit_iff_toNat.mp digit).2
  exact Nat.lt_succ_of_le (Nat.sub_le_sub_right high _)

theorem toDigits_of_isDigit (digit : c.isDigit = true) : Nat.toDigits 10 (c.toNat - '0'.toNat) =
    [c] := by
  have small := digit_lt_ten digit
  rw [Nat.toDigits_of_lt_base small]
  refine congrArg (fun c => [c]) (Char.toNat_inj.mp ?_)
  rw [Nat.toNat_digitChar_of_lt_ten small]
  exact Nat.add_sub_cancel' (Char.isDigit_iff_toNat.mp digit).1

/-- A nonempty list of digits is the canonical decimal representation of its value with leading
zeros. -/
theorem exists_zeros (some : digits ≠ []) (all : ∀ c ∈ digits, c.isDigit = true) :
    ∃ zeros, digits =
      List.replicate zeros '0' ++ Nat.toDigits 10 (Nat.ofDigitChars 10 digits 0) := by
  induction digits using List.reverseRecOn with
  | nil => contradiction
  | append_singleton front last ih =>
      obtain ⟨others, digit⟩ := List.forall_mem_append.mp all
      have digit := digit last List.mem_cons_self
      rw [Nat.ofDigitChars_append, Nat.ofDigitChars_cons, Nat.ofDigitChars_nil]
      by_cases alone : front = []
      · subst alone
        refine ⟨0, ?_⟩
        rw [Nat.ofDigitChars_nil, Nat.mul_zero, Nat.zero_add, toDigits_of_isDigit digit]
        rfl
      · obtain ⟨zeros, whole⟩ := ih alone others
        rcases Nat.eq_zero_or_pos (Nat.ofDigitChars 10 front 0) with nothing | positive
        · refine ⟨zeros + 1, ?_⟩
          rw [nothing, Nat.toDigits_zero] at whole
          rw [nothing, Nat.mul_zero, Nat.zero_add, toDigits_of_isDigit digit, List.replicate_succ',
            ← whole]
        · refine ⟨zeros, ?_⟩
          rw [← Nat.toDigits_append_toDigits (by decide) positive (digit_lt_ten digit),
            toDigits_of_isDigit digit, ← List.append_assoc, ← whole]

theorem le_ofDigitChars (value : Nat) (digits : List Char) : value ≤ Nat.ofDigitChars 10 digits value := by
  rw [Nat.ofDigitChars_eq_ofDigitChars_zero]
  have power : 0 < 10 ^ digits.length := Nat.pow_pos (by decide)
  exact Nat.le_trans (Nat.le_mul_of_pos_left value power) (Nat.le_add_right _ _)

/-- `appendDigits` succeeds if and only if all characters are digits and the value is below the
bound. -/
theorem appendDigits_eq_ok_iff : appendDigits bound value digits = .ok number ↔
    (∀ c ∈ digits, c.isDigit = true) ∧ Nat.ofDigitChars 10 digits value = number ∧
      (digits ≠ [] → number < bound) := by
  induction digits generalizing value with
  | nil => simp [appendDigits, Nat.ofDigitChars_nil]
  | cons c rest ih =>
      rw [appendDigits, Nat.ofDigitChars_cons, List.forall_mem_cons, Nat.mul_comm 10 value]
      split
      · rename_i digit
        dsimp only
        split
        · rename_i below
          rw [ih]
          simp only [digit, true_and, ne_eq, reduceCtorEq, not_false_eq_true, forall_const]
          refine and_congr_right fun _ => and_congr_right fun made => ?_
          constructor
          · intro bounded
            by_cases last : rest = []
            · rw [last, Nat.ofDigitChars_nil] at made
              exact made ▸ below
            · exact bounded last
          · exact fun bounded _ => bounded
        · rename_i above
          simp only [reduceCtorEq, false_iff]
          intro given
          obtain ⟨_, made, bounded⟩ := given
          have larger := le_ofDigitChars (value * 10 + (c.toNat - '0'.toNat)) rest
          have below := bounded (List.cons_ne_nil c rest)
          omega
      · rename_i other
        simp [other]

theorem makes_iff : Makes number digits ↔
    ∃ zeros, digits = List.replicate zeros '0' ++ Nat.toDigits 10 number := by
  constructor
  · intro makes
    exact makes.made ▸ exists_zeros makes.some makes.all
  · intro given
    obtain ⟨zeros, rfl⟩ := given
    refine ⟨by simp [Nat.toDigits_ne_nil], fun c member => ?_, ?_⟩
    · rcases List.mem_append.mp member with zero | digit
      · rw [(List.mem_replicate.mp zero).2]
        rfl
      · exact Nat.isDigit_of_mem_toDigits (by decide) (by decide) digit
    · rw [Nat.ofDigitChars_append, Nat.ofDigitChars_replicate_zero, Nat.mul_zero,
        Nat.ofDigitChars_ten_toDigits]

theorem numeral_iff : Numeral number token ↔
    Makes number token ∨ ∃ digits, token = '+' :: digits ∧ Makes number digits := by
  simp only [makes_iff]
  constructor
  · intro given
    obtain ⟨plus, zeros, rfl | rfl, rfl⟩ := given
    · exact .inl ⟨zeros, rfl⟩
    · exact .inr ⟨_, rfl, zeros, rfl⟩
  · intro given
    obtain ⟨zeros, rfl⟩ | ⟨_, rfl, zeros, rfl⟩ := given
    · exact ⟨[], zeros, .inl rfl, rfl⟩
    · exact ⟨['+'], zeros, .inr rfl, rfl⟩

theorem appendDigits_zero_eq_ok_iff (some : digits ≠ []) :
    appendDigits bound 0 digits = .ok number ↔ Makes number digits ∧ number < bound := by
  rw [appendDigits_eq_ok_iff]
  constructor
  · intro given
    obtain ⟨all, made, below⟩ := given
    exact ⟨⟨some, all, made⟩, below some⟩
  · intro given
    obtain ⟨makes, below⟩ := given
    exact ⟨makes.all, makes.made, fun _ => below⟩

theorem not_makes_plus : ¬ Makes number ('+' :: digits) := fun makes =>
  absurd (makes.all '+' List.mem_cons_self) (by decide)

theorem readNumeral_eq_ok_iff : readNumeral bound token = .ok number ↔
    Numeral number token ∧ number < bound := by
  rw [numeral_iff, readNumeral.eq_def]
  split
  · simp only [reduceCtorEq, false_iff, not_and]
    intro numeral
    rcases numeral with makes | ⟨digits, whole, _⟩
    · exact absurd rfl makes.some
    · contradiction
  · simp only [reduceCtorEq, false_iff, not_and]
    intro numeral
    rcases numeral with makes | ⟨digits, whole, makes⟩
    · exact absurd makes not_makes_plus
    · exact absurd (List.cons.inj whole).2.symm makes.some
  · rename_i digits some
    have some : digits ≠ [] := fun nothing => some (nothing ▸ rfl)
    rw [appendDigits_zero_eq_ok_iff some]
    simp [not_makes_plus]
  · rename_i some _ other
    rw [appendDigits_zero_eq_ok_iff some]
    have signless : ¬ ∃ digits, token = '+' :: digits ∧ Makes number digits :=
      fun ⟨digits, whole, _⟩ => other digits whole
    rw [or_iff_left signless]

end Isolation.Text
