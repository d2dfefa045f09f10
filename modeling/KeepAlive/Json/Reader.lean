import KeepAlive.Binary64
import KeepAlive.Json.Value
import KeepAlive.Text.Digits
import KeepAlive.Text.Scan

/-!
# Reading JSON

A text is read as exactly one value with blanks around it.  Values may be nested less than 128 deep,
a number that is whole and fits 64 bits is an integer, no number is beyond the binary64 format, and
an escaped surrogate needs its partner.
-/

namespace KeepAlive.Json

open Text (Scan)

/-- The blanks between tokens. -/
def isSpace (c : Char) : Bool :=
  c = ' ' || c = '\n' || c = '\t' || c = '\r'

/-- Passes over blanks. -/
def space : Scan Unit := do
  let _ ← Scan.takeWhile isSpace

/-- Passes over blanks, and over the mark if it follows; says whether it did. -/
def accept (mark : Char) : Scan Bool := do
  space
  if (← Scan.ahead).head? = some mark then
    Scan.skip 1
    return true
  else return false

/-- Passes over blanks and the mark, which has to follow. -/
def expect (mark : Char) : Scan Unit := do
  if ← accept mark then return () else Scan.stop

/-- The code that the next four characters spell. -/
def fourHex : Scan Nat := do
  let digits := (← Scan.ahead).take 4
  match Text.readHex digits with
  | some code =>
    if digits.length = 4 then
      Scan.skip 4
      return code
    else Scan.stop
  | none => Scan.stop

/-- The character with a code. -/
def scalar (code : Nat) : Scan Char :=
  match Text.scalar? code with
  | some c => return c
  | none => Scan.stop

/-- What an escape `\u` denotes, its digits following; a high surrogate takes its partner in. -/
def unicodeEscape : Scan Char := do
  let high ← fourHex
  if 0xD800 ≤ high && high < 0xDC00 then
    if ['\\', 'u'].isPrefixOf (← Scan.ahead) then
      Scan.skip 2
      let low ← fourHex
      if 0xDC00 ≤ low && low < 0xE000 then
        scalar (0x10000 + (high - 0xD800) * 0x400 + (low - 0xDC00))
      else Scan.stop
    else Scan.stop
  else scalar high

/-- What a one-letter escape denotes. -/
def letterEscape? (c : Char) : Option Char :=
  [('"', '"'), ('\\', '\\'), ('/', '/'), ('b', '\x08'), ('f', '\x0c'), ('n', '\n'), ('r', '\r'),
    ('t', '\t')].lookup c

/-- The next character of a text, or nothing at its closing quote. -/
def nextChar : Scan (Option Char) := do
  match ← Scan.ahead with
  | [] => Scan.stop
  | c :: rest =>
    if c = '"' then
      Scan.skip 1
      return none
    else if c = '\\' then
      Scan.skip 2
      match rest.head? with
      | none => Scan.stop
      | some letter =>
        if letter = 'u' then some <$> unicodeEscape
        else
          match letterEscape? letter with
          | some denoted => return some denoted
          | none => Scan.stop
    else if c.toNat < 32 then Scan.stop
    else
      Scan.skip 1
      return some c

/-- A text after its opening quote. -/
def textBody : Scan String := do
  return String.ofList (← Scan.collect nextChar)

/-- A number as it is spelled, after its sign: the integer part, the point with the fraction and the
mark with the exponent. -/
structure Numeral where
  whole : List Char
  fraction : List Char
  power : List Char

/-- At least one digit. -/
def digits : Scan (List Char) := do
  let found ← Scan.takeWhile Char.isDigit
  if found.isEmpty then Scan.stop else return found

/-- The integer part of a number: no zero in front of other digits. -/
def wholePart : Scan (List Char) := do
  let found ← digits
  if found.head? = some '0' && 1 < found.length then Scan.stop else return found

/-- The fraction of a number, if it has one. -/
def fraction : Scan (List Char) := do
  if (← Scan.ahead).head? = some '.' then
    Scan.skip 1
    return '.' :: (← digits)
  else return []

/-- The exponent of a number, if it has one. -/
def exponent : Scan (List Char) := do
  match (← Scan.ahead).head? with
  | none => return []
  | some e =>
    if e = 'e' || e = 'E' then
      Scan.skip 1
      let sign := ((← Scan.ahead).take 1).filter fun c => c = '+' || c = '-'
      Scan.skip sign.length
      return e :: sign ++ (← digits)
    else return []

/-- A number after its sign, as it is spelled. -/
def numeral : Scan Numeral := do
  return { whole := ← wholePart, fraction := ← fraction, power := ← exponent }

/-- Powers of ten go up to this exponent. -/
def powerLimit : Nat := 308

/-- Whether a number is beyond the largest one of the binary64 format.  Its digits and the power of
ten are rounded before they are multiplied. -/
def Numeral.isHuge (numeral : Numeral) : Bool :=
  let decimals := numeral.fraction.drop 1
  let (value, left) := Text.leadingValue (numeral.whole ++ decimals)
  let power := (left : Int) - decimals.length + (Text.readInteger (numeral.power.drop 1)).getD 0
  0 < value && 0 ≤ power &&
    (powerLimit < power.toNat || Binary64.overflows value (Nat.pow 10 power.toNat))

/-- The negative integers are not below the negative of this. -/
def negativeBound : Nat := 9223372036854775808

/-- The value of a number. -/
def Numeral.value (numeral : Numeral) (negative : Bool) : Json :=
  let whole := Text.decimalValue numeral.whole
  let isInteger := numeral.fraction.isEmpty && numeral.power.isEmpty &&
    (if negative then 0 < whole && whole ≤ negativeBound else whole < Text.wordBound)
  if isInteger then .integer (if negative then -(whole : Int) else whole)
  else .real (String.ofList
    ((if negative then ['-'] else []) ++ numeral.whole ++ numeral.fraction ++ numeral.power))

/-- A number after its sign; it must not be huge. -/
def number (negative : Bool) : Scan Json := do
  let spelled ← numeral
  if spelled.isHuge then Scan.stop else return spelled.value negative

/-- Items in a row, a comma between any two, and the mark that closes the row. -/
def row {α : Type} (close : Char) (item : Scan α) : Scan (List α) := do
  if ← accept close then return []
  else
    let first ← item
    let more ← Scan.collect do
      if ← accept ',' then some <$> item
      else
        expect close
        return none
    return first :: more

/-- A word that stands for a value. -/
def word {α : Type} (expected : String) (value : α) : Scan α := do
  if expected.toList.isPrefixOf (← Scan.ahead) then
    Scan.skip expected.length
    return value
  else Scan.stop

/-- A value that holds no others. -/
def plain : Scan Json := do
  match (← Scan.ahead).head? with
  | some '"' =>
    Scan.skip 1
    return .text (← textBody)
  | some '-' =>
    Scan.skip 1
    number true
  | some 'n' => word "null" Json.null
  | some 't' => word "true" (Json.bool true)
  | some 'f' => word "false" (Json.bool false)
  | _ => number false

/-- One value with fewer than `depth` levels in it, after blanks. -/
def value : (depth : Nat) → Scan Json
  | 0 => do
    space
    plain
  | depth + 1 => do
    if ← accept '[' then return .array (← row ']' (value depth))
    else if ← accept '\x7b' then
      return .object (← row '\x7d' do
        expect '"'
        let name ← textBody
        expect ':'
        return (name, ← value depth))
    else plain

/-- Values hold fewer than this many levels. -/
def depthLimit : Nat := 127

/-- The value that the whole text spells. -/
def read? (s : String) : Option Json :=
  (do
    let found ← value depthLimit
    space
    return found : Scan Json).wholly? s.toList

end KeepAlive.Json
