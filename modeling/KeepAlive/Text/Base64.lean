/-!
# Bytes written with sixty-four characters

Four characters stand for three bytes.  The last group may stand for one or two bytes; then it is
filled up with `=`, and the bits that it does not need are zero.  So every list of bytes has one
written form.
-/

namespace KeepAlive.Text.Base64

/-- The six bits that a character stands for. -/
def sextet? (c : Char) : Option Nat :=
  if c.isUpper then some (c.toNat - 'A'.toNat)
  else if c.isLower then some (c.toNat - 'a'.toNat + 26)
  else if c.isDigit then some (c.toNat - '0'.toNat + 52)
  else if c = '+' then some 62
  else if c = '/' then some 63
  else none

/-- The three bytes of four sextets. -/
def triple (a b c d : Nat) : List UInt8 :=
  [a * 4 + b / 16, b % 16 * 16 + c / 4, c % 4 * 64 + d].map UInt8.ofNat

theorem length_triple (a b c d : Nat) : (triple a b c d).length = 3 := rfl

/-- The bytes that a text stands for, if it is a written form. -/
def decode : List Char → Option (List UInt8)
  | [] => some []
  | [a, b, '=', '='] => do
    let a ← sextet? a
    let b ← sextet? b
    if b % 16 = 0 then return (triple a b 0 0).take 1 else none
  | [a, b, c, '='] => do
    let a ← sextet? a
    let b ← sextet? b
    let c ← sextet? c
    if c % 4 = 0 then return (triple a b c 0).take 2 else none
  | a :: b :: c :: d :: rest => do
    return triple (← sextet? a) (← sextet? b) (← sextet? c) (← sextet? d) ++ (← decode rest)
  | _ => none

end KeepAlive.Text.Base64
