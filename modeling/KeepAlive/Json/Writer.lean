import KeepAlive.Json.Value
import KeepAlive.Text.Quoted

/-!
# Writing JSON

Values in one line without blanks, or laid out with two blanks per level.
-/

namespace KeepAlive.Json

/-- One character of a text as it stands between the quotes. -/
def escapedChar (c : Char) : String :=
  if c = '"' then "\\\""
  else if c = '\\' then "\\\\"
  else if c = '\n' then "\\n"
  else if c = '\r' then "\\r"
  else if c = '\t' then "\\t"
  else if c = '\x08' then "\\b"
  else if c = '\x0c' then "\\f"
  else if c.toNat < 32 then
    "\\u" ++ String.ofList (List.replicate (4 - (Nat.toDigits 16 c.toNat).length) '0') ++
      Text.hexadecimal c.toNat
  else String.singleton c

/-- A text in quotes. -/
def quotedText (s : String) : String :=
  "\"" ++ String.join (s.toList.map escapedChar) ++ "\""

mutual

/-- The value in one line. -/
def compact : Json → String
  | .null => "null"
  | .bool value => if value then "true" else "false"
  | .integer value => toString value
  | .real literal => literal
  | .text content => quotedText content
  | .array items => "[" ++ ",".intercalate (compactItems items) ++ "]"
  | .object members => "\x7b" ++ ",".intercalate (compactMembers members) ++ "\x7d"

/-- The items of an array, each in one line. -/
def compactItems : List Json → List String
  | [] => []
  | item :: rest => compact item :: compactItems rest

/-- The members of an object, each in one line. -/
def compactMembers : List (String × Json) → List String
  | [] => []
  | (name, value) :: rest => (quotedText name ++ ":" ++ compact value) :: compactMembers rest

end

/-- The start of a line at the given level. -/
def lineStart (level : Nat) : String :=
  "\n" ++ String.ofList (List.replicate (2 * level) ' ')

mutual

/-- The value with every item and member on a line of its own, as it stands at `level`. -/
def laidOut (level : Nat) : Json → String
  | .array [] => "[]"
  | .array (first :: rest) =>
    "[" ++ ",".intercalate (laidOutItems (level + 1) (first :: rest)) ++ lineStart level ++ "]"
  | .object [] => "\x7b\x7d"
  | .object (first :: rest) =>
    "\x7b" ++ ",".intercalate (laidOutMembers (level + 1) (first :: rest)) ++ lineStart level ++
      "\x7d"
  | value => compact value

/-- The items of an array on lines of their own. -/
def laidOutItems (level : Nat) : List Json → List String
  | [] => []
  | item :: rest => (lineStart level ++ laidOut level item) :: laidOutItems level rest

/-- The members of an object on lines of their own. -/
def laidOutMembers (level : Nat) : List (String × Json) → List String
  | [] => []
  | (name, value) :: rest =>
    (lineStart level ++ quotedText name ++ ": " ++ laidOut level value) ::
      laidOutMembers level rest

end

end KeepAlive.Json
