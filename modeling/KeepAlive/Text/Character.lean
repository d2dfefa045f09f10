import KeepAlive.Text.LetterRanges
import KeepAlive.Text.PlainRanges

/-!
# Classes of characters

Blanks, letters, numbers and the characters that quoted text shows as themselves.  Each class is
that of the Unicode property it is named for, so it extends the ASCII class of the core library.
-/

namespace KeepAlive.Text

/-- Whether some closed interval of the list holds the code point. -/
def within (ranges : List (Nat × Nat)) (code : Nat) : Bool :=
  ranges.any fun (low, high) => low ≤ code && code ≤ high

/-- The Unicode property White_Space. -/
def isBlank (c : Char) : Bool :=
  within [(0x09, 0x0D), (0x20, 0x20), (0x85, 0x85), (0xA0, 0xA0), (0x1680, 0x1680),
    (0x2000, 0x200A), (0x2028, 0x2029), (0x202F, 0x202F), (0x205F, 0x205F), (0x3000, 0x3000)]
    c.toNat

/-- The Unicode property Alphabetic. -/
def isLetter (c : Char) : Bool :=
  c.isAlpha || (128 ≤ c.toNat && within letterRanges c.toNat)

/-- Decimal digits, letter-like numbers and all other numbers. -/
def isNumber (c : Char) : Bool :=
  c.isDigit || (128 ≤ c.toNat && within numberRanges c.toNat)

/-- A letter or a number. -/
def isLetterOrNumber (c : Char) : Bool :=
  isLetter c || isNumber c

/-- Characters that are visible by themselves: graphic, and neither extending the character before
them nor ignored by default. -/
def isPlain (c : Char) : Bool :=
  if c.toNat < 128 then 32 ≤ c.toNat && c.toNat < 127 else within plainRanges c.toNat

/-- Every blank of the core library is a blank. -/
theorem isBlank_of_isWhitespace {c : Char} (h : c.isWhitespace = true) : isBlank c = true := by
  simp only [Char.isWhitespace, Bool.or_eq_true, decide_eq_true_eq] at h
  rcases h with ((rfl | rfl) | rfl) | rfl <;> decide

/-- Every letter of the core library is a letter. -/
theorem isLetter_of_isAlpha {c : Char} (h : c.isAlpha = true) : isLetter c = true := by
  simp [isLetter, h]

/-- Every digit of the core library is a number. -/
theorem isNumber_of_isDigit {c : Char} (h : c.isDigit = true) : isNumber c = true := by
  simp [isNumber, h]

/-- `s` without the blanks at its start. -/
def dropBlanks (s : List Char) : List Char :=
  s.dropWhile isBlank

/-- `s` without the blanks at both ends. -/
def trimBlanks (s : List Char) : List Char :=
  ((dropBlanks s).reverse.dropWhile isBlank).reverse

theorem length_dropWhile_le (p : Char → Bool) (s : List Char) :
    (s.dropWhile p).length ≤ s.length :=
  (List.dropWhile_suffix p).length_le

theorem length_dropBlanks_le (s : List Char) : (dropBlanks s).length ≤ s.length :=
  length_dropWhile_le isBlank s

end KeepAlive.Text
