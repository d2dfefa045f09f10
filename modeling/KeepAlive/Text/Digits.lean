/-!
# Decimal digits

Numbers read from runs of ASCII digits, and written to a given width.
-/

namespace KeepAlive.Text

/-- The value of an ASCII decimal digit. -/
def digitValue (c : Char) : Nat :=
  c.toNat - '0'.toNat

/-- The value of a run of digits, most significant first. -/
def decimalValue (digits : List Char) : Nat :=
  digits.foldl (fun n c => 10 * n + digitValue c) 0

/-- Numbers of 64 bits are below this bound. -/
def wordBound : Nat := 18446744073709551616

/-- The value of the digits that fit into 64 bits, most significant first, and the number of those
that do not. -/
def leadingValue (digits : List Char) : Nat × Nat :=
  digits.foldl (fun (value, left) c =>
    let more := 10 * value + digitValue c
    if left = 0 && more < wordBound then (more, 0) else (value, left + 1)) (0, 0)

/-- The value of a nonempty run of ASCII digits and nothing else. -/
def readDecimal (s : List Char) : Option Nat :=
  if !s.isEmpty && s.all Char.isDigit then some (decimalValue s) else none

/-- The value of a nonempty run of ASCII digits that may have a plus sign in front. -/
def readNatural : List Char → Option Nat
  | '+' :: digits => readDecimal digits
  | digits => readDecimal digits

/-- The value of a nonempty run of ASCII digits that may have a sign in front. -/
def readInteger : List Char → Option Int
  | '-' :: digits => (readDecimal digits).map fun n => -(n : Int)
  | digits => (readNatural digits).map fun n => (n : Int)

/-- The value of a hexadecimal digit of either case. -/
def hexValue (c : Char) : Option Nat :=
  if c.isDigit then some (c.toNat - '0'.toNat)
  else if 'a' ≤ c && c ≤ 'f' then some (c.toNat - 'a'.toNat + 10)
  else if 'A' ≤ c && c ≤ 'F' then some (c.toNat - 'A'.toNat + 10)
  else none

/-- Whether `c` is a hexadecimal digit. -/
def isHexDigit (c : Char) : Bool :=
  (hexValue c).isSome

/-- Whether `c` is an octal digit. -/
def isOctalDigit (c : Char) : Bool :=
  '0' ≤ c && c ≤ '7'

/-- The value of a run of digits in the given base. -/
def valueInBase (base : Nat) (digits : List Char) : Nat :=
  digits.foldl (fun n c => base * n + (hexValue c).getD 0) 0

/-- The value of a nonempty run of hexadecimal digits and nothing else. -/
def readHex (s : List Char) : Option Nat :=
  if !s.isEmpty && s.all isHexDigit then some (valueInBase 16 s) else none

/-- The character with this code point, if it is a Unicode scalar value. -/
def scalar? (code : Nat) : Option Char :=
  if h : code.isValidChar then some ⟨UInt32.ofNatLT code (by
    rcases h with h | ⟨_, h⟩ <;> simp [UInt32.size] <;> omega), by
    simpa [UInt32.isValidChar, UInt32.toNat] using h⟩
  else none

/-- `n` in decimal with at least `width` digits, zeros in front. -/
def padZeros (width n : Nat) : String :=
  let digits := Nat.toDigits 10 n
  String.ofList (List.replicate (width - digits.length) '0' ++ digits)

/-- `s` followed by as many blanks as it lacks to `width` characters. -/
def padRight (width : Nat) (s : String) : String :=
  s ++ String.ofList (List.replicate (width - s.length) ' ')

/-- `s` with as many blanks in front as it lacks to `width` characters. -/
def padLeft (width : Nat) (s : String) : String :=
  String.ofList (List.replicate (width - s.length) ' ') ++ s

end KeepAlive.Text
