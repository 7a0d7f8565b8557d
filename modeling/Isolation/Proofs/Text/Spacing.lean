import Mathlib.Data.List.TakeWhile
import Isolation.Proofs.Text.Words

/-!
The relation between a text and its words. A text has given words if and only if it is their
concatenation with blanks before and after, and at least one blank between any two.
-/

namespace Isolation.Text

variable {text gap word rest : List Char} {tokens : List (List Char)}

/-- The text is a concatenation of the words, separated by blanks. -/
inductive Spaced : List (List Char) → List Char → Prop where
  | blank {gap : List Char} (blank : ∀ c ∈ gap, isBlank c = true) : Spaced [] gap
  | word {gap word rest : List Char} {tokens : List (List Char)}
      (blank : ∀ c ∈ gap, isBlank c = true) (something : word ≠ [])
      (blankless : ∀ c ∈ word, isBlank c = false) (apart : ∀ c ∈ rest.head?, isBlank c = true)
      (spaced : Spaced tokens rest) : Spaced (word :: tokens) (gap ++ (word ++ rest))

theorem head?_all_isBlank : text.head?.all isBlank = true ↔ ∀ c ∈ text.head?, isBlank c = true := by
  cases text <;> simp

theorem words_append_of_blank (blank : ∀ c ∈ gap, isBlank c = true) (text : List Char) :
    words (gap ++ text) = words text := by
  induction gap with
  | nil => rfl
  | cons c gap ih =>
      obtain ⟨here, later⟩ := List.forall_mem_cons.mp blank
      rw [List.cons_append, words_blank here, ih later]

/-- A word followed by a blank or by the end of the text is the first word of the text. -/
theorem words_append_of_blankless (something : word ≠ []) (blankless : ∀ c ∈ word, isBlank c = false)
    (apart : ∀ c ∈ rest.head?, isBlank c = true) : words (word ++ rest) = word :: words rest := by
  induction word with
  | nil => contradiction
  | cons c word ih =>
      obtain ⟨visible, later⟩ := List.forall_mem_cons.mp blankless
      rw [List.cons_append, words, if_neg (Bool.eq_false_iff.mp visible)]
      cases word with
      | nil =>
          have ends : rest.head?.all isBlank = true := head?_all_isBlank.mpr apart
          rw [List.nil_append, if_pos ends]
      | cons next word =>
          have goes : ((next :: word) ++ rest).head?.all isBlank = false := later next List.mem_cons_self
          rw [if_neg (Bool.eq_false_iff.mp goes), ih (List.cons_ne_nil next word) later]

theorem words_eq_nil (blank : ∀ c ∈ text, isBlank c = true) : words text = [] := by
  rw [← List.append_nil text, words_append_of_blank blank, words]

theorem Spaced.words_eq (spaced : Spaced tokens text) : words text = tokens := by
  induction spaced with
  | blank blank => exact words_eq_nil blank
  | word blank something blankless apart _ ih =>
      rw [words_append_of_blank blank, words_append_of_blankless something blankless apart, ih]

theorem Spaced.mem (spaced : Spaced tokens text) :
    ∀ token ∈ tokens, token ≠ [] ∧ ∀ c ∈ token, isBlank c = false := by
  induction spaced with
  | blank _ => exact fun _ => nofun
  | word _ something blankless _ _ ih => exact List.forall_mem_cons.mpr ⟨⟨something, blankless⟩, ih⟩

theorem Spaced.cons_blank {c : Char} (blank : isBlank c = true) (spaced : Spaced tokens text) :
    Spaced tokens (c :: text) := by
  cases spaced with
  | blank others => exact .blank (List.forall_mem_cons.mpr ⟨blank, others⟩)
  | word others something blankless apart spaced =>
      rw [← List.cons_append]
      exact .word (List.forall_mem_cons.mpr ⟨blank, others⟩) something blankless apart spaced

/-- A character that is not blank extends the first word of a text that does not start with a blank. -/
theorem Spaced.cons_visible {c d : Char} (visible : isBlank c = false) (next : isBlank d = false)
    (spaced : Spaced tokens (d :: text)) :
    ∃ word more, tokens = word :: more ∧ Spaced ((c :: word) :: more) (c :: d :: text) := by
  generalize whole : d :: text = rest at spaced
  cases spaced with
  | blank blank =>
      rw [← whole] at blank
      rw [blank d List.mem_cons_self] at next
      contradiction
  | @word gap word rest more blank something blankless apart spaced =>
      cases gap with
      | nil =>
          have longer : Spaced ((c :: word) :: more) ([] ++ (c :: word ++ rest)) :=
            .word (by simp) (List.cons_ne_nil c word)
              (List.forall_mem_cons.mpr ⟨visible, blankless⟩) apart spaced
          exact ⟨word, more, rfl, longer⟩
      | cons first gap =>
          obtain ⟨rfl, _⟩ := List.cons.inj whole
          rw [blank d List.mem_cons_self] at next
          contradiction

theorem spaced_words (text : List Char) : Spaced (words text) text := by
  induction text with
  | nil => exact .blank fun _ => nofun
  | cons c rest ih =>
      rw [words]
      split
      · rename_i blank
        exact ih.cons_blank blank
      · rename_i visible
        have visible : isBlank c = false := Bool.eq_false_iff.mpr visible
        split
        · rename_i ends
          have alone : Spaced ([c] :: words rest) ([] ++ ([c] ++ rest)) :=
            .word (by simp) (List.cons_ne_nil c []) (List.forall_mem_singleton.mpr visible)
              (head?_all_isBlank.mp ends) ih
          exact alone
        · rename_i goes
          cases rest with
          | nil => exact absurd rfl goes
          | cons d rest =>
              obtain ⟨word, more, split, spaced⟩ := ih.cons_visible visible (Bool.eq_false_iff.mpr goes)
              rw [split]
              exact spaced

theorem words_eq_iff : words text = tokens ↔ Spaced tokens text :=
  ⟨fun split => split ▸ spaced_words text, Spaced.words_eq⟩

/-- Trailing blanks do not change the words. -/
theorem Spaced.append_blank (spaced : Spaced tokens text) (blank : ∀ c ∈ gap, isBlank c = true) :
    Spaced tokens (text ++ gap) := by
  induction spaced with
  | blank others => exact .blank (List.forall_mem_append.mpr ⟨others, blank⟩)
  | @word before word rest tokens others something blankless apart _ ih =>
      rw [List.append_assoc, List.append_assoc]
      refine .word others something blankless (fun c first => ?_) ih
      rw [List.head?_append, Option.mem_def, Option.or_eq_some_iff] at first
      rcases first with inside | ⟨_, outside⟩
      · exact apart c inside
      · exact blank c (List.mem_of_mem_head? outside)

theorem words_trim (text : List Char) : words (trim text) = words text := by
  have front : words (trimStart text) = words text := by
    have skipped : ∀ c ∈ text.takeWhile isBlank, isBlank c = true := fun c => List.mem_takeWhile_imp
    rw [← words_append_of_blank skipped (trimStart text), trimStart, List.takeWhile_append_dropWhile]
  have back : trim text ++ ((trimStart text).reverse.takeWhile isBlank).reverse = trimStart text := by
    rw [trim, trimEnd, ← List.reverse_append, List.takeWhile_append_dropWhile, List.reverse_reverse]
  have cut : ∀ c ∈ ((trimStart text).reverse.takeWhile isBlank).reverse, isBlank c = true :=
    fun c member => List.mem_takeWhile_imp (List.mem_reverse.mp member)
  rw [← front, ← back]
  exact ((spaced_words (trim text)).append_blank cut).words_eq.symm

theorem words_eq_nil_iff : words text = [] ↔ trim text = [] := by
  have first := head?_words text
  rw [← head?_trim] at first
  rw [← List.head?_eq_none_iff, ← List.head?_eq_none_iff, ← Option.map_eq_none_iff, first,
    Option.map_eq_none_iff]

/-- Words joined by single spaces are spaced. -/
theorem spaced_intercalate (some : ∀ token ∈ tokens, token ≠ [] ∧ ∀ c ∈ token, isBlank c = false) :
    Spaced tokens ([' '].intercalate tokens) := by
  induction tokens with
  | nil => exact .blank fun _ => nofun
  | cons first rest ih =>
      obtain ⟨⟨something, blankless⟩, later⟩ := List.forall_mem_cons.mp some
      cases rest with
      | nil =>
          have alone : Spaced [first] ([] ++ (first ++ [])) :=
            .word (by simp) something blankless (by simp) (.blank (by simp))
          simpa using alone
      | cons second rest =>
          have joined : Spaced (first :: second :: rest)
              ([] ++ (first ++ ' ' :: [' '].intercalate (second :: rest))) :=
            .word (by simp) something blankless (by simp [isBlank]) ((ih later).cons_blank (by decide))
          simpa using joined

end Isolation.Text
