import KeepAlive.Locator.Expression
import KeepAlive.Text.Digits
import KeepAlive.Text.Quoted
import KeepAlive.Text.Scan
import KeepAlive.Text.Search

/-!
# Reading locators

Blanks may stand between the parts of a locator; `contains(` and `text()` are written without any.
A text that is no locator is refused with the place, in bytes, up to which it was understood.
-/

namespace KeepAlive.Locator

open Text (Scan)

/-- Whether a name may hold the character. -/
def inName (c : Char) : Bool :=
  c.isAlphanum || c = '-' || c = '_' || c = ':'

/-- A name in small letters. -/
def name : Scan String := do
  Scan.blanks
  let found ← Scan.takeWhile inName
  if found.isEmpty then Scan.stop else return String.ofList (Text.asciiLower found)

/-- Numbers are below this bound. -/
def numberBound : Nat := 18446744073709551616

/-- A number. -/
def number : Scan Nat := do
  Scan.blanks
  let digits := (← Scan.ahead).takeWhile Char.isDigit
  match Text.readDecimal digits with
  | none => Scan.stop
  | some n =>
    if n < numberBound then
      Scan.skip digits.length
      return n
    else Scan.stop

/-- A text between two equal quotes. -/
def text : Scan String := do
  Scan.blanks
  match ← Scan.ahead with
  | [] => Scan.stop
  | quote :: rest =>
    if (quote = '"' || quote = '\'') && rest.contains quote then
      let content := rest.takeWhile (· ≠ quote)
      Scan.skip (content.length + 2)
      return String.ofList content
    else Scan.stop

/-- What a condition looks at. -/
inductive Subject
  | attribute (name : String)
  | text
  deriving DecidableEq, Repr

/-- The subject of a condition. -/
def subject : Scan Subject := do
  if ← Scan.accept "@" then return .attribute (← name)
  else if ← Scan.accept "text()" then return .text
  else Scan.stop

/-- What stands between the brackets of a step. -/
def condition : Scan Condition := do
  Scan.blanks
  if (← Scan.ahead).head?.any Char.isDigit then return .position (← number)
  else if ← Scan.accept "contains(" then
    let looked ← subject
    Scan.expect ","
    let value ← text
    Scan.expect ")"
    match looked with
    | .attribute name => return .attributeContains name value
    | .text => return .textContains value
  else
    let looked ← subject
    if ← Scan.accept "=" then
      let value ← text
      match looked with
      | .attribute name => return .attributeIs name value
      | .text => return .textIs value
    else
      match looked with
      | .attribute name => return .hasAttribute name
      | .text => Scan.stop

/-- A condition after its opening bracket. -/
def bracketed : Scan Condition := do
  let found ← condition
  Scan.expect "]"
  return found

/-- Whether a step begins here. -/
def atStep : Scan Bool := do
  Scan.blanks
  return (← Scan.ahead).head? = some '/'

/-- One step, its slashes included. -/
def step : Scan Step := do
  let deep := ['/', '/'].isPrefixOf (← Scan.ahead)
  Scan.skip (if deep then 2 else 1)
  let tag ← if ← Scan.accept "*" then pure none else some <$> name
  let conditions ← Scan.many (Scan.accept "[") bracketed
  return ⟨deep, tag, conditions⟩

/-- A path of at least one step. -/
def steps : Scan (List Step) := do
  let found ← Scan.many atStep step
  if found.isEmpty then Scan.stop else return found

/-- A path, or a path in parentheses with a position. -/
def expression : Scan Expression := do
  if ← Scan.accept "(" then
    let found ← steps
    Scan.expect ")"
    Scan.expect "["
    let index ← number
    Scan.expect "]"
    return ⟨found, some index⟩
  else
    return ⟨← steps, none⟩

/-- A locator and nothing else. -/
def whole : Scan Expression := do
  let found ← expression
  Scan.blanks
  if (← Scan.ahead).isEmpty then return found else Scan.stop

/-- A text that is no locator, and how many of its bytes were understood. -/
structure Unsupported where
  locator : String
  offset : Nat
  deriving DecidableEq, Repr

/-- The sentence for a text that is no locator. -/
def Unsupported.message (e : Unsupported) : String :=
  "unsupported locator syntax at offset " ++ toString e.offset ++ " in " ++
    Text.quoted e.locator

/-- Reads a locator. -/
def parse (locator : String) : Except Unsupported Expression :=
  match whole.run locator.toList with
  | .ok (found, _) => .ok found
  | .error rest =>
    .error ⟨locator, Text.byteLength locator.toList - Text.byteLength rest⟩

end KeepAlive.Locator
