import KeepAlive.Text.Digits
import KeepAlive.Text.Search

/-!
# Character references

In markup an ampersand may start a reference to a character, by name or by number, that ends with a
semicolon.  Whatever is not a known reference stands for itself.
-/

namespace KeepAlive.Markup

/-- The characters that have a name. -/
def namedCharacters : List (String × Char) := [
  ("amp", '&'), ("lt", '<'), ("gt", '>'), ("quot", '"'), ("apos", '\''), ("nbsp", '\u00a0')]

/-- Numbers in references are below this bound. -/
def referenceBound : Nat := 4294967296

/-- `s` without a plus sign at its start. -/
def dropPlus (s : List Char) : List Char :=
  if s.head? = some '+' then s.drop 1 else s

/-- The character with the given number, if that is a number in bounds. -/
def numbered? (number : Option Nat) : Option Char :=
  match number with
  | some n => if n < referenceBound then Text.scalar? n else none
  | none => none

/-- The character that a reference denotes, by what stands between `&` and `;`. -/
def denoted? (body : List Char) : Option Char :=
  match namedCharacters.lookup (String.ofList body) with
  | some c => some c
  | none =>
    match body with
    | '#' :: 'x' :: digits => numbered? (Text.readHex (dropPlus digits))
    | '#' :: 'X' :: digits => numbered? (Text.readHex (dropPlus digits))
    | '#' :: digits => numbered? (Text.readDecimal (dropPlus digits))
    | _ => none

/-- A reference has at most this many bytes between `&` and `;`. -/
def longestBody : Nat := 10

/-- The reference that follows an ampersand: its character, and the characters it takes. -/
def reference? (s : List Char) : Option (Char × Nat) :=
  let body := (s.take (longestBody + 1)).takeWhile (· ≠ ';')
  if s[body.length]? = some ';' && Text.byteLength body ≤ longestBody then
    (denoted? body).map (·, body.length + 1)
  else none

/-- The text with every reference replaced by its character. -/
def resolve : List Char → List Char
  | [] => []
  | c :: rest =>
    if c = '&' then
      match reference? rest with
      | some (denoted, width) => denoted :: resolve (rest.drop width)
      | none => '&' :: resolve rest
    else c :: resolve rest
termination_by s => s.length
decreasing_by all_goals simp <;> omega

end KeepAlive.Markup
