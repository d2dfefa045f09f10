import KeepAlive.Text.Search
import Mathlib

/-!
# Classes of characters by their numbers

Letters are two ranges of numbers and no blank is among them.  A text in small letters stays as it is when
it is put in small letters again.
-/

namespace KeepAlive.Text

variable {c : Char}

theorem isUpper_iff_toNat : c.isUpper = true ↔ 65 ≤ c.toNat ∧ c.toNat ≤ 90 := by
  simp [Char.isUpper, UInt32.le_iff_toNat_le, ← Char.toNat_val]

theorem isLower_iff_toNat : c.isLower = true ↔ 97 ≤ c.toNat ∧ c.toNat ≤ 122 := by
  simp [Char.isLower, UInt32.le_iff_toNat_le, ← Char.toNat_val]

theorem isAlpha_iff_toNat :
    c.isAlpha = true ↔ (65 ≤ c.toNat ∧ c.toNat ≤ 90) ∨ (97 ≤ c.toNat ∧ c.toNat ≤ 122) := by
  rw [Char.isAlpha, Bool.or_eq_true, isUpper_iff_toNat, isLower_iff_toNat]

theorem isAlphanum_iff_toNat : c.isAlphanum = true ↔
    ((65 ≤ c.toNat ∧ c.toNat ≤ 90) ∨ (97 ≤ c.toNat ∧ c.toNat ≤ 122)) ∨
      (48 ≤ c.toNat ∧ c.toNat ≤ 57) := by
  rw [Char.isAlphanum, Bool.or_eq_true, isAlpha_iff_toNat, Char.isDigit_iff_toNat]
  exact Iff.rfl

/-- Among the small numbers only control characters and the space are blanks. -/
theorem code_of_isBlank (h : isBlank c = true) : c.toNat ≤ 32 ∨ 133 ≤ c.toNat := by
  simp only [isBlank, within, List.any_cons, List.any_nil, Bool.or_false, Bool.or_eq_true,
    Bool.and_eq_true, decide_eq_true_eq] at h
  omega

theorem asciiLower_asciiLower (s : List Char) : asciiLower (asciiLower s) = asciiLower s := by
  simp [asciiLower]

/-- Small letters are made of letters only. -/
theorem mem_of_mem_asciiLower {s : List Char} (hc : c.isAlpha = false) (h : c ∈ asciiLower s) :
    c ∈ s := by
  obtain ⟨d, hd, rfl⟩ := List.mem_map.1 h
  have hupper : ¬d.isUpper = true := fun hupper => by
    rw [Char.isAlpha_toLower_eq_isAlpha, Char.isAlpha, hupper] at hc
    cases hc
  rwa [Char.toLower_eq_of_not_isUpper hupper]

end KeepAlive.Text
