import Isolation.Proofs.Text.Capitals
import Isolation.Text.Blank

/-!
Words of a text: they contain no blanks, and the first one starts after the leading blanks.
-/

namespace Isolation.Text

variable {c : Char} {text word : List Char}

theorem isBlank_of_visible (low : 33 ≤ c.toNat) (high : c.toNat ≤ 126) : isBlank c = false := by
  simp only [isBlank, Bool.or_eq_false_iff, Bool.and_eq_false_iff, decide_eq_false_iff_not]
  omega

theorem isBlank_of_isDigit (digit : c.isDigit = true) : isBlank c = false := by
  simp only [Char.isDigit, Bool.and_eq_true, decide_eq_true_eq, ge_iff_le,
    UInt32.le_iff_toNat_le] at digit
  exact isBlank_of_visible (Nat.le_trans (by decide) digit.1) (Nat.le_trans digit.2 (by decide))

theorem isBlank_toUpper (blankless : isBlank c = false) : isBlank c.toUpper = false := by
  have code := toNat_toUpper c
  split at code
  · exact isBlank_of_visible (by omega) (by omega)
  · rw [Char.toNat_inj.mp code]
    exact blankless

theorem words_blank (blank : isBlank c = true) (rest : List Char) : words (c :: rest) = words rest := by
  rw [words, if_pos blank]

/-- A character that is not blank forms a word or extends the first word of the rest. -/
theorem exists_words_cons (visible : isBlank c = false) (rest : List Char) :
    ∃ tail more, words (c :: rest) = (c :: tail) :: more ∧
      (tail = [] ∧ more = words rest ∨ tail :: more = words rest) := by
  rw [words, if_neg (Bool.eq_false_iff.mp visible)]
  split
  · exact ⟨[], words rest, rfl, .inl ⟨rfl, rfl⟩⟩
  · cases split : words rest with
    | nil => exact ⟨[], [], rfl, .inl ⟨rfl, rfl⟩⟩
    | cons word more => exact ⟨word, more, rfl, .inr rfl⟩

theorem blankless_of_mem_words (member : word ∈ words text) : ∀ c ∈ word, isBlank c = false := by
  induction text generalizing word with
  | nil => cases member
  | cons first rest ih =>
      cases visible : isBlank first with
      | true => exact ih (words_blank visible rest ▸ member)
      | false =>
          obtain ⟨tail, more, split, alone | joined⟩ := exists_words_cons visible rest
          all_goals rw [split, List.mem_cons] at member
          · obtain ⟨rfl, rfl⟩ := alone
            rcases member with rfl | later
            · exact List.forall_mem_cons.mpr ⟨visible, fun _ => nofun⟩
            · exact ih later
          · rcases member with rfl | later
            · exact List.forall_mem_cons.mpr ⟨visible, ih (joined ▸ List.mem_cons_self)⟩
            · exact ih (joined ▸ List.mem_cons_of_mem _ later)

/-- The first word starts with the first character that is not blank. -/
theorem head?_words (text : List Char) :
    (words text).head?.map List.head? = (text.find? fun c => !isBlank c).map some := by
  induction text with
  | nil => rfl
  | cons first rest ih =>
      cases visible : isBlank first with
      | true => rw [words_blank visible, ih, List.find?_cons_of_neg (by simp [visible])]
      | false =>
          obtain ⟨tail, more, split, _⟩ := exists_words_cons visible rest
          rw [split, List.find?_cons_of_pos (by simp [visible])]
          rfl

theorem head?_trimStart (text : List Char) :
    (trimStart text).head? = text.find? fun c => !isBlank c := by
  induction text with
  | nil => rfl
  | cons first rest ih =>
      cases visible : isBlank first with
      | true =>
          rw [trimStart, List.dropWhile_cons_of_pos visible, List.find?_cons_of_neg (by simp [visible])]
          exact ih
      | false =>
          rw [trimStart, List.dropWhile_cons_of_neg (by simp [visible]),
            List.find?_cons_of_pos (by simp [visible]), List.head?_cons]

/-- A trimmed text starts with the first character that is not blank. -/
theorem head?_trim (text : List Char) : (trim text).head? = text.find? fun c => !isBlank c := by
  rw [← head?_trimStart, trim, trimEnd]
  cases trimmed : trimStart text with
  | nil => rfl
  | cons first rest =>
      have visible : isBlank first = false := by
        have found := head?_trimStart text
        rw [trimmed, List.head?_cons] at found
        simpa using List.find?_some found.symm
      rw [List.reverse_cons, List.dropWhile_append]
      split
      · rw [List.dropWhile_cons_of_neg (by simp [visible])]
        rfl
      · rw [List.reverse_append]
        rfl

end Isolation.Text
