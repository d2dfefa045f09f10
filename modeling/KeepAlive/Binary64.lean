/-!
# Numbers with 53 significant bits

The numbers of the binary64 format without their sign.  A quotient is replaced by the nearest such
number, and by the one with an even mantissa if two are equally near.  Main statement: whole numbers below
2^53 are kept (`ofNat_eq_self`).
-/

namespace KeepAlive

/-- The number `mantissa * 2 ^ exponent`. -/
structure Binary64 where
  mantissa : Nat
  exponent : Int
  deriving DecidableEq, Repr

namespace Binary64

/-- A quotient to the nearest whole number, a half to the even neighbour. -/
def roundedDiv (a b : Nat) : Nat :=
  let quotient := a / b
  let twice := 2 * (a % b)
  if twice < b then quotient
  else if b < twice then quotient + 1
  else quotient + quotient % 2

theorem roundedDiv_one (a : Nat) : roundedDiv a 1 = a := by
  simp [roundedDiv, Nat.mod_one]

/-- Two numbers whose quotient is `a / b` divided by `2 ^ exponent`. -/
def scaled (a b : Nat) (exponent : Int) : Nat × Nat :=
  if 0 ≤ exponent then (a, b <<< exponent.toNat) else (a <<< (-exponent).toNat, b)

/-- The exponent of the highest power of two that is not above `a / b`. -/
def topExponent (a b : Nat) : Int :=
  let guess : Int := (a.log2 : Int) - b.log2
  let (x, y) := scaled a b guess
  if y ≤ x then guess else guess - 1

/-- The lowest exponent that there is. -/
def lowestExponent : Int := -1074

/-- The number nearest to `a / b`. -/
def nearest (a b : Nat) : Binary64 :=
  let exponent := max (topExponent a b - 52) lowestExponent
  let (x, y) := scaled a b exponent
  ⟨roundedDiv x y, exponent⟩

/-- Ten to this power is far beyond the format, and so is its reciprocal. -/
def powerBound : Nat := 400

/-- The number nearest to `significand * 10 ^ exponent`.  Exponents are cut where the number is
infinite or zero anyway. -/
def ofDecimal (significand : Nat) (exponent : Int) : Binary64 :=
  if 0 ≤ exponent then nearest (significand * Nat.pow 10 (min exponent.toNat powerBound)) 1
  else nearest significand (Nat.pow 10 (min (-exponent).toNat (powerBound + significand.log2)))

/-- The number without its fraction. -/
def floor (number : Binary64) : Nat :=
  if 0 ≤ number.exponent then number.mantissa <<< number.exponent.toNat
  else number.mantissa >>> (-number.exponent).toNat

/-- The number, if it is whole. -/
def whole? (number : Binary64) : Option Nat :=
  if 0 ≤ number.exponent ∨ number.mantissa % (1 <<< (-number.exponent).toNat) = 0 then
    some number.floor
  else none

/-- The whole number nearest to `n` that the format has. -/
def ofNat (n : Nat) : Nat :=
  (nearest n 1).floor

/-- Whole numbers below this bound have at most 53 bits. -/
def exactBound : Nat := 9007199254740992

theorem topExponent_one_le {n : Nat} (h : n < exactBound) : topExponent n 1 ≤ 52 := by
  have small : n.log2 < 53 := by
    by_cases h0 : n = 0
    · subst h0
      decide
    · exact (Nat.log2_lt h0).2 h
  have one : (1 : Nat).log2 = 0 := by decide
  unfold topExponent
  simp only [one]
  split <;> omega

theorem ofNat_eq_self {n : Nat} (h : n < exactBound) : ofNat n = n := by
  have top := topExponent_one_le h
  unfold ofNat nearest floor
  have le : max (topExponent n 1 - 52) lowestExponent ≤ 0 := by
    unfold lowestExponent
    omega
  generalize max (topExponent n 1 - 52) lowestExponent = exponent at le
  by_cases h0 : exponent = 0
  · subst h0
    simp [scaled, roundedDiv_one]
  · have below : ¬ 0 ≤ exponent := by omega
    simp [scaled, below, roundedDiv_one]

/-- Whether the number is too large for the format. -/
def isInfinite (number : Binary64) : Bool :=
  1 <<< 1024 ≤ number.floor

/-- Whether the product of two numbers, all three rounded, is too large for the format. -/
def overflows (a b : Nat) : Bool :=
  (nearest (ofNat a * ofNat b) 1).isInfinite

end Binary64

end KeepAlive
