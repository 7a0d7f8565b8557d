import Mathlib.Data.List.Forall2

/-!
Capitalisation of ASCII letters. It maps each letter to one character of the same size, so a word
spells a capitalised one if and only if their characters agree up to case.
-/

namespace Isolation.Text

variable {c capital : Char} {capitals word : List Char}

theorem toNat_toUpper (c : Char) :
    c.toUpper.toNat = if 97 ≤ c.toNat ∧ c.toNat ≤ 122 then c.toNat - 32 else c.toNat := by
  have bounds : 'a'.val.toNat = 97 ∧ 'z'.val.toNat = 122 ∧
      ('A'.val - 'a'.val).toNat = 2 ^ 32 - 32 := by decide
  have range : ('a'.val ≤ c.val ∧ c.val ≤ 'z'.val) ↔ 97 ≤ c.toNat ∧ c.toNat ≤ 122 := by
    rw [UInt32.le_iff_toNat_le, UInt32.le_iff_toNat_le, bounds.1, bounds.2.1, Char.toNat]
  unfold Char.toUpper
  split
  · rename_i lower
    have lower := range.mp lower
    rw [if_pos lower]
    simp only [Char.toNat, UInt32.toNat_add] at *
    omega
  · rename_i other
    rw [if_neg fun lower => other (range.mpr lower)]

theorem toNat_toLower (c : Char) :
    c.toLower.toNat = if 65 ≤ c.toNat ∧ c.toNat ≤ 90 then c.toNat + 32 else c.toNat := by
  have bounds : 'A'.val.toNat = 65 ∧ 'Z'.val.toNat = 90 ∧
      ('a'.val - 'A'.val).toNat = 32 := by decide
  have range : (c.val ≥ 'A'.val ∧ c.val ≤ 'Z'.val) ↔ 65 ≤ c.toNat ∧ c.toNat ≤ 90 := by
    rw [ge_iff_le, UInt32.le_iff_toNat_le, UInt32.le_iff_toNat_le, bounds.1, bounds.2.1, Char.toNat]
  unfold Char.toLower
  split
  · rename_i upper
    have upper := range.mp upper
    rw [if_pos upper]
    simp only [Char.toNat, UInt32.toNat_add] at *
    omega
  · rename_i other
    rw [if_neg fun upper => other (range.mpr upper)]

theorem toUpper_eq_iff (upper : capital.isUpper = true) :
    c.toUpper = capital ↔ c = capital ∨ c = capital.toLower := by
  have letter : 'A'.val ≤ capital.val ∧ capital.val ≤ 'Z'.val := of_decide_eq_true upper
  have range : 65 ≤ capital.toNat ∧ capital.toNat ≤ 90 :=
    letter.imp UInt32.le_iff_toNat_le.mp UInt32.le_iff_toNat_le.mp
  simp only [← Char.toNat_inj, toNat_toUpper, toNat_toLower, if_pos range]
  split <;> omega

/-- The word consists of the given capitals, each in either case. -/
def Spells (capitals word : List Char) : Prop :=
  List.Forall₂ (fun capital c => c = capital ∨ c = capital.toLower) capitals word

theorem Spells.refl (word : List Char) : Spells word word :=
  List.forall₂_same.mpr fun _ _ => .inl rfl

theorem spells_iff (upper : ∀ capital ∈ capitals, capital.isUpper = true) :
    Spells capitals word ↔ word.map Char.toUpper = capitals := by
  induction capitals generalizing word with
  | nil => simp [Spells]
  | cons capital capitals ih =>
      obtain ⟨here, later⟩ := List.forall_mem_cons.mp upper
      cases word with
      | nil => simp [Spells]
      | cons c word =>
          rw [Spells, List.forall₂_cons, List.map_cons, List.cons.injEq, toUpper_eq_iff here]
          exact and_congr_right fun _ => ih later

theorem utf8Size_eq_one (small : c.toNat ≤ 127) : c.utf8Size = 1 :=
  Char.utf8Size_eq_one_iff.mpr (UInt32.le_iff_toNat_le.mpr small)

/-- Capitalisation preserves the size of a character. -/
theorem utf8Size_toUpper (c : Char) : c.toUpper.utf8Size = c.utf8Size := by
  have code := toNat_toUpper c
  split at code
  · rw [utf8Size_eq_one (by omega), utf8Size_eq_one (by omega)]
  · rw [Char.toNat_inj.mp code]

theorem utf8ByteSize_map_toUpper (word : List Char) :
    (String.ofList (word.map Char.toUpper)).utf8ByteSize = (String.ofList word).utf8ByteSize := by
  induction word with
  | nil => rfl
  | cons c word ih =>
      rw [List.map_cons, String.ofList_cons, String.ofList_cons, String.utf8ByteSize_append,
        String.utf8ByteSize_append, String.utf8ByteSize_singleton, String.utf8ByteSize_singleton,
        utf8Size_toUpper, ih]

end Isolation.Text
