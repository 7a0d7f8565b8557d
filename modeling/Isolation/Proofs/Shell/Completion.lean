import Isolation.Proofs.Shell.Language
import Isolation.Shell.Completion

/-!
Completion of keywords. The candidates are the keywords that extend the first word of a line in
either case. Replacing the word by a candidate yields a line that is parsed as a request with that
keyword.
-/

namespace Isolation.Shell

open Text

/-- The word is a prefix of the keyword up to case. -/
def Extends (keyword : String) (word : List Char) : Prop :=
  ∃ front back, keyword.toList = front ++ back ∧ Spells front word

/-- The line consists of blanks and a single, possibly empty, word that ends it. -/
structure Begun (line gap word : List Char) : Prop where
  whole : line = gap ++ word
  blank : ∀ c ∈ gap, isBlank c = true
  blankless : ∀ c ∈ word, isBlank c = false

/-- The results of parsing a line that consists of the keyword only. -/
inductive Dispatched (keyword : String) : Except RequestError (Option Request) → Prop where
  | request {request : Request} (named : request.keyword = keyword) :
      Dispatched keyword (.ok (some request))
  | arguments {expected : Nat} (missing : 0 ≠ expected) :
      Dispatched keyword (.error (.arguments keyword expected 0))

variable {line gap word before after : List Char} {keyword : String}

/-! ### The word -/

theorem Begun.trimStart_eq (begun : Begun line gap word) : trimStart line = word := by
  rw [begun.whole, trimStart, List.dropWhile_append_of_pos begun.blank]
  cases word with
  | nil => rfl
  | cons c rest => exact List.dropWhile_cons_of_neg (by simp [begun.blankless c])

theorem begun_trimStart (single : (trimStart line).any isBlank = false) :
    Begun line (line.takeWhile isBlank) (trimStart line) where
  whole := List.takeWhile_append_dropWhile.symm
  blank := fun _ => List.mem_takeWhile_imp
  blankless := by simpa using single

/-- Completion of a line that ends in its first word. Capitalisation preserves the length of the
word. -/
theorem Begun.complete_eq (begun : Begun line gap word) : complete line =
    { start := (String.ofList gap).utf8ByteSize
      candidates := keywords.filter fun keyword =>
        (Request.upper word).toList.isPrefixOf keyword.toList } := by
  have single : ¬ word.any isBlank = true := by simpa using begun.blankless
  have size : (String.ofList line).utf8ByteSize - (Request.upper word).utf8ByteSize =
      (String.ofList gap).utf8ByteSize := by
    rw [Request.upper, utf8ByteSize_map_toUpper, begun.whole, String.ofList_append,
      String.utf8ByteSize_append, Nat.add_sub_cancel]
  simp only [complete, begun.trimStart_eq, if_neg single, size]

theorem complete_eq_of_not_begun (none : ∀ gap word, ¬ Begun line gap word) :
    complete line = { start := (String.ofList line).utf8ByteSize, candidates := [] } := by
  have second : (trimStart line).any isBlank = true := by
    rw [← Bool.not_eq_false]
    exact fun single => none _ _ (begun_trimStart single)
  exact if_pos second

/-! ### The start position -/

/-- The start position is the length of a prefix of the line. -/
theorem exists_before (line : List Char) : ∃ before after, line = before ++ after ∧
    (complete line).start = (String.ofList before).utf8ByteSize := by
  by_cases some : ∃ gap word, Begun line gap word
  · obtain ⟨gap, word, begun⟩ := some
    exact ⟨gap, word, begun.whole, by rw [begun.complete_eq]⟩
  · have none : ∀ gap word, ¬ Begun line gap word := fun gap word begun => some ⟨gap, word, begun⟩
    exact ⟨line, [], (List.append_nil line).symm, by rw [complete_eq_of_not_begun none]⟩

theorem eq_nil_of_utf8ByteSize {text extra : List Char}
    (size : (String.ofList text).utf8ByteSize = (String.ofList (text ++ extra)).utf8ByteSize) :
    extra = [] := by
  rw [String.ofList_append, String.utf8ByteSize_append] at size
  have empty := String.utf8ByteSize_eq_zero_iff.mp (Nat.left_eq_add.mp size)
  exact String.ofList_eq_empty_iff.mp empty

/-- Prefixes of a list of characters are determined by their length in bytes. -/
theorem eq_of_append_eq {rest : List Char} (whole : before ++ after = gap ++ rest)
    (size : (String.ofList before).utf8ByteSize = (String.ofList gap).utf8ByteSize) : before = gap := by
  obtain ⟨extra, rfl, _⟩ | ⟨extra, rfl, _⟩ := List.append_eq_append_iff.mp whole
  · rw [eq_nil_of_utf8ByteSize size, List.append_nil]
  · rw [eq_nil_of_utf8ByteSize size.symm, List.append_nil]

/-! ### The candidates -/

theorem isPrefixOf_iff_extends (capitals : ∀ c ∈ keyword.toList, c.isUpper = true) :
    (Request.upper word).toList.isPrefixOf keyword.toList = true ↔ Extends keyword word := by
  rw [List.isPrefixOf_iff_prefix, Request.upper, String.toList_ofList]
  constructor
  · intro given
    obtain ⟨back, whole⟩ := given
    have front : ∀ c ∈ word.map Char.toUpper, c.isUpper = true := fun c member =>
      capitals c (whole ▸ List.mem_append_left back member)
    exact ⟨_, back, whole.symm, (spells_iff front).mpr rfl⟩
  · intro given
    obtain ⟨front, back, whole, spells⟩ := given
    have upper : ∀ c ∈ front, c.isUpper = true := fun c member =>
      capitals c (whole ▸ List.mem_append_left back member)
    exact ⟨back, by rw [(spells_iff upper).mp spells, whole]⟩

theorem Begun.mem_candidates_iff (begun : Begun line gap word) :
    keyword ∈ (complete line).candidates ↔ keyword ∈ keywords ∧ Extends keyword word := by
  rw [begun.complete_eq, List.mem_filter]
  exact and_congr_right fun member =>
    isPrefixOf_iff_extends (Request.isUpper_of_mem_keywords keyword member)

theorem dispatched_of_mem_keywords (member : keyword ∈ keywords) :
    Dispatched keyword ((Request.ofWords keyword []).map some) := by
  cases parsed : Request.ofWords keyword [] with
  | ok request =>
      obtain ⟨_, rfl | ⟨_, rfl⟩⟩ := Request.takes_of_ofWords parsed
      · exact .request rfl
      · exact absurd member (by decide)
  | error fault =>
      cases Request.faulty_of_ofWords parsed with
      | arguments missing => exact .arguments missing
      | transactionId first _ => contradiction
      | command unknown => exact absurd (List.mem_cons_of_mem _ member) unknown

/-- A line of blanks and a keyword is parsed by that keyword. -/
theorem dispatched_after_gap (blank : ∀ c ∈ gap, isBlank c = true) (member : keyword ∈ keywords) :
    Dispatched keyword (Request.ofLine (gap ++ keyword.toList)) := by
  obtain ⟨something, blankless⟩ := Request.keywords_are_words keyword member
  have letters := Request.isUpper_of_mem_keywords keyword member
  have split : words (gap ++ keyword.toList) = [keyword.toList] := by
    have last : words (keyword.toList ++ []) = [keyword.toList] :=
      words_append_of_blankless something blankless (by simp)
    rwa [List.append_nil, ← words_append_of_blank blank] at last
  have spoken := Request.head?_ne_of_spells letters (.refl _)
  rw [Request.ofLine_of_words split spoken, (Request.upper_eq_iff letters).mpr (.refl _)]
  exact dispatched_of_mem_keywords member

theorem exists_begun (offered : keyword ∈ (complete line).candidates) :
    ∃ gap word, Begun line gap word := by
  by_contra other
  rw [complete_eq_of_not_begun fun gap word begun => other ⟨gap, word, begun⟩] at offered
  cases offered

theorem dispatched_of_mem_candidates (whole : line = before ++ after)
    (start : (String.ofList before).utf8ByteSize = (complete line).start)
    (offered : keyword ∈ (complete line).candidates) :
    Dispatched keyword (Request.ofLine (before ++ keyword.toList)) := by
  obtain ⟨gap, word, begun⟩ := exists_begun offered
  rw [begun.complete_eq] at start
  rw [eq_of_append_eq (whole.symm.trans begun.whole) start]
  exact dispatched_after_gap begun.blank (begun.mem_candidates_iff.mp offered).1

/-- Exactness of completion, for every line. If the line ends in its first word, the candidates are
the keywords that extend the word, in the order of `keywords`, and the start is the position of the
word. Otherwise there are no candidates. The start is a valid position in the line, and replacing
the word by a candidate yields a line that is parsed as a request with that keyword or reported as
lacking its arguments. -/
theorem completion_exact (line : List Char) :
    (∀ gap word, Begun line gap word →
      (complete line).start = (String.ofList gap).utf8ByteSize ∧
      (complete line).candidates.Sublist keywords ∧
      ∀ keyword, keyword ∈ (complete line).candidates ↔ keyword ∈ keywords ∧ Extends keyword word) ∧
    ((∀ gap word, ¬ Begun line gap word) →
      complete line = { start := (String.ofList line).utf8ByteSize, candidates := [] }) ∧
    (complete line).start ≤ (String.ofList line).utf8ByteSize ∧
    (⟨(complete line).start⟩ : String.Pos.Raw).IsValid (String.ofList line) ∧
    ∀ before after, line = before ++ after →
      (String.ofList before).utf8ByteSize = (complete line).start →
      ∀ keyword ∈ (complete line).candidates,
        Dispatched keyword (Request.ofLine (before ++ keyword.toList)) := by
  obtain ⟨front, back, whole, start⟩ := exists_before line
  refine ⟨fun gap word begun => ⟨?_, ?_, fun keyword => begun.mem_candidates_iff⟩,
    complete_eq_of_not_begun, ?_, ?_,
    fun before after whole start keyword => dispatched_of_mem_candidates whole start⟩
  · rw [begun.complete_eq]
  · rw [begun.complete_eq]
    exact List.filter_sublist
  · rw [start, whole, String.ofList_append, String.utf8ByteSize_append]
    exact Nat.le_add_right _ _
  · exact String.Pos.Raw.isValid_iff_exists_append.mpr
      ⟨String.ofList front, String.ofList back, by rw [whole, String.ofList_append], by rw [start]; rfl⟩

/-- The blank before the word is one character of three bytes. -/
example : complete "\u3000sT".toList = { start := 3, candidates := ["STATUS", "STATS"] } := by decide

end Isolation.Shell
