import KeepAlive.Text.Digits
import Mathlib.Algebra.Group.Nat.Defs
import Mathlib.Data.List.Induction

/-!
# Numbers of characters

A character is given by its number, and the number by digits; so many octal digits always give one.
-/

namespace KeepAlive.Text

theorem scalar?_eq_some_iff {code : Nat} {c : Char} : scalar? code = some c ↔ c.toNat = code := by
  unfold scalar?
  split
  · rename_i hvalid
    constructor
    · intro h
      cases h
      rfl
    · rintro rfl
      congr 1
  · rename_i hinvalid
    constructor
    · intro h
      cases h
    · rintro rfl
      exact absurd c.valid hinvalid

theorem valueInBase_append (base : Nat) (digits : List Char) (last : Char) :
    valueInBase base (digits ++ [last]) =
      base * valueInBase base digits + (hexValue last).getD 0 := by
  simp [valueInBase, List.foldl_append]

theorem valueInBase_lt {base : Nat} {digits : List Char}
    (h : ∀ d ∈ digits, (hexValue d).getD 0 < base) :
    valueInBase base digits < base ^ digits.length := by
  induction digits using List.reverseRecOn with
  | nil => simp [valueInBase]
  | append_singleton digits last ih =>
    have hdigits := ih fun d hd => h d (List.mem_append_left _ hd)
    have hlast := h last (by simp)
    rw [valueInBase_append, List.length_append, List.length_singleton, Nat.pow_succ]
    calc base * valueInBase base digits + (hexValue last).getD 0
        < base * (valueInBase base digits + 1) := by rw [Nat.mul_succ]; omega
      _ ≤ base * base ^ digits.length := Nat.mul_le_mul_left _ hdigits
      _ = base ^ digits.length * base := Nat.mul_comm _ _

theorem isOctalDigit_iff {c : Char} : isOctalDigit c = true ↔ 48 ≤ c.toNat ∧ c.toNat ≤ 55 := by
  simp only [isOctalDigit, Bool.and_eq_true, decide_eq_true_eq, Char.le_def, UInt32.le_iff_toNat_le]
  exact Iff.rfl

theorem hexValue_lt_of_isOctalDigit {c : Char} (h : isOctalDigit c = true) :
    (hexValue c).getD 0 < 8 := by
  obtain ⟨hlow, hhigh⟩ := isOctalDigit_iff.1 h
  have hdigit : c.isDigit = true := by
    simp only [Char.isDigit, Bool.and_eq_true, decide_eq_true_eq, ge_iff_le, UInt32.le_iff_toNat_le]
    exact ⟨hlow, Nat.le_trans hhigh (by decide)⟩
  have hzero : '0'.toNat = 48 := rfl
  rw [hexValue, if_pos hdigit, Option.getD_some, hzero]
  omega

/-- Up to three octal digits are the code of a character. -/
theorem exists_scalar?_of_octal {digits : List Char} (hmost : digits.length ≤ 3)
    (hdigits : ∀ d ∈ digits, isOctalDigit d = true) :
    ∃ c, scalar? (valueInBase 8 digits) = some c := by
  have hlt := valueInBase_lt fun d hd => hexValue_lt_of_isOctalDigit (hdigits d hd)
  have hpow : 8 ^ digits.length ≤ 8 ^ 3 := Nat.pow_le_pow_right (by decide) hmost
  have hvalid : (valueInBase 8 digits).isValidChar := Or.inl (by omega)
  exact ⟨_, dif_pos hvalid⟩

end KeepAlive.Text
