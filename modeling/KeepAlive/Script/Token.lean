import KeepAlive.Text.Digits
import KeepAlive.Text.Quoted

/-!
# Tokens of a login script

A script is cut into names, marks, strings and integers before any of it is parsed.  A token is kept
with the place of its first character, counted in characters from the start of the script.
-/

namespace KeepAlive.Script

/-- A smallest meaningful piece of a script. -/
inductive Token
  | name (word : String)
  | opening
  | closing
  | comma
  | text (content : String)
  | integer (value : Nat)
  deriving DecidableEq, Repr

/-- What a message calls the token. -/
def Token.describe : Token → String
  | .name word => "`" ++ word ++ "`"
  | .opening => "`(`"
  | .closing => "`)`"
  | .comma => "`,`"
  | .text _ => "a string"
  | .integer _ => "an integer"

/-- What the grammar asks for at some place. -/
inductive Wanted
  | token (wanted : Token)
  | textArgument
  | integerArgument
  deriving DecidableEq, Repr

/-- What a message calls the thing asked for. -/
def Wanted.describe : Wanted → String
  | .token wanted => wanted.describe
  | .textArgument => "a string argument"
  | .integerArgument => "an integer argument"

/-- Why a script is not one. -/
inductive Cause
  | unexpectedCharacter (c : Char)
  | integerOutOfRange (digits : List Char)
  | unterminatedString
  | invalidEscape (letter : Char)
  | namedEscape
  | notACommand (found : Token)
  | unknownCommand (name : String)
  | unexpected (wanted : Wanted) (found : Option Token)
  | waitTooLong (milliseconds limit : Nat)
  deriving DecidableEq, Repr

/-- Why and where, in characters from the start, a script is not one. -/
structure Problem where
  place : Nat
  cause : Cause
  deriving DecidableEq, Repr

/-- Integers are below this bound. -/
def integerBound : Nat := 18446744073709551616

/-- Reads up to `count` characters of a class. -/
def takeUpTo (isWanted : Char → Bool) : Nat → List Char → List Char
  | 0, _ => []
  | _, [] => []
  | count + 1, c :: rest => if isWanted c then c :: takeUpTo isWanted count rest else []

theorem takeUpTo_prefix (isWanted : Char → Bool) (count : Nat) (s : List Char) :
    takeUpTo isWanted count s <+: s := by
  induction s generalizing count with
  | nil => cases count <;> simp [takeUpTo]
  | cons c rest ih =>
    cases count with
    | zero => simp [takeUpTo]
    | succ count =>
      rw [takeUpTo]
      split
      · simpa using ih count
      · simp

/-- The number of hexadecimal digits after the letter of an escape. -/
def escapeWidth : Char → Nat
  | 'x' => 2
  | 'u' => 4
  | _ => 8

/-- The character that a one-letter escape denotes. -/
def letterEscape? : Char → Option Char
  | '\\' => some '\\'
  | '\'' => some '\''
  | '"' => some '"'
  | 'n' => some '\n'
  | 't' => some '\t'
  | 'r' => some '\r'
  | 'a' => some '\x07'
  | 'b' => some '\x08'
  | 'f' => some '\x0c'
  | 'v' => some '\x0b'
  | _ => none

/-- An escape after its backslash: the characters it denotes and how many it takes.  A letter that
denotes nothing special stays, with its backslash. -/
def escape : List Char → Except Cause (List Char × Nat)
  | [] => .error .unterminatedString
  | c :: rest =>
    match letterEscape? c with
    | some denoted => .ok ([denoted], 1)
    | none =>
      if Text.isOctalDigit c then
        let digits := c :: takeUpTo Text.isOctalDigit 2 rest
        .ok ((Text.scalar? (Text.valueInBase 8 digits)).toList, digits.length)
      else if c = 'x' || c = 'u' || c = 'U' then
        let digits := takeUpTo Text.isHexDigit (escapeWidth c) rest
        if digits.length = escapeWidth c then
          match Text.scalar? (Text.valueInBase 16 digits) with
          | some denoted => .ok ([denoted], 1 + digits.length)
          | none => .error (.invalidEscape c)
        else .error (.invalidEscape c)
      else if c = 'N' then .error .namedEscape
      else if c = '\n' then .error .unterminatedString
      else .ok (['\\', c], 1)

/-- The rest of a string whose opening quote stands at `start`, read from `place`: its characters,
the place after its closing quote, and what follows. -/
def stringBody (quote : Char) (start place : Nat) :
    List Char → Except Problem (List Char × Nat × List Char)
  | [] => .error ⟨start, .unterminatedString⟩
  | c :: rest =>
    if c = '\n' then .error ⟨start, .unterminatedString⟩
    else if c = quote then .ok ([], place + 1, rest)
    else if c = '\\' then
      match escape rest with
      | .error cause => .error ⟨place, cause⟩
      | .ok (content, width) =>
        (stringBody quote start (place + 1 + width) (rest.drop width)).map
          fun (more, after, left) => (content ++ more, after, left)
    else
      (stringBody quote start (place + 1) rest).map
        fun (more, after, left) => (c :: more, after, left)
termination_by s => s.length
decreasing_by all_goals simp <;> omega

theorem length_of_stringBody {quote : Char} {start place : Nat} {s content left : List Char}
    {after : Nat} (h : stringBody quote start place s = .ok (content, after, left)) :
    left.length < s.length := by
  fun_induction stringBody quote start place s generalizing content after left with
  | case1 => simp at h
  | case2 => simp at h
  | case3 => simp only [Except.ok.injEq, Prod.mk.injEq] at h; simp [← h.2.2]
  | case4 => simp at h
  | case5 place rest escaped width _ _ _ ih =>
    cases hs : stringBody quote start (place + 1 + width) (rest.drop width) with
    | error e => simp [hs, Except.map] at h
    | ok p =>
      simp only [hs, Except.map, Except.ok.injEq, Prod.mk.injEq] at h
      have := ih hs
      simp only [List.length_drop] at this
      simp only [List.length_cons, ← h.2.2]
      omega
  | case6 place c rest _ _ _ ih =>
    cases hs : stringBody quote start (place + 1) rest with
    | error e => simp [hs, Except.map] at h
    | ok p =>
      simp only [hs, Except.map, Except.ok.injEq, Prod.mk.injEq] at h
      have := ih hs
      simp only [List.length_cons, ← h.2.2]
      omega

/-- Whether a name may start with the character. -/
def startsName (c : Char) : Bool :=
  Text.isLetter c || c = '_'

/-- Whether a name may go on with the character. -/
def continuesName (c : Char) : Bool :=
  Text.isLetterOrNumber c || c = '_'

/-- The tokens of a script from `place` on, each with its place. -/
def tokens (place : Nat) (s : List Char) : Except Problem (List (Nat × Token)) :=
  match s with
  | [] => .ok []
  | c :: rest =>
    if Text.isBlank c then tokens (place + 1) rest
    else if c = '(' then (tokens (place + 1) rest).map ((place, .opening) :: ·)
    else if c = ')' then (tokens (place + 1) rest).map ((place, .closing) :: ·)
    else if c = ',' then (tokens (place + 1) rest).map ((place, .comma) :: ·)
    else if c = '\'' || c = '"' then
      match h : stringBody c place (place + 1) rest with
      | .error problem => .error problem
      | .ok (content, after, left) =>
        have := length_of_stringBody h
        (tokens after left).map ((place, .text (String.ofList content)) :: ·)
    else if c.isDigit then
      let digits := c :: rest.takeWhile Char.isDigit
      if Text.decimalValue digits < integerBound then
        (tokens (place + digits.length) (rest.dropWhile Char.isDigit)).map
          ((place, .integer (Text.decimalValue digits)) :: ·)
      else .error ⟨place, .integerOutOfRange digits⟩
    else if startsName c then
      let word := c :: rest.takeWhile continuesName
      (tokens (place + word.length) (rest.dropWhile continuesName)).map
        ((place, .name (String.ofList word)) :: ·)
    else .error ⟨place, .unexpectedCharacter c⟩
termination_by s.length
decreasing_by
  all_goals simp only [List.length_cons]
  all_goals first
    | omega
    | exact Nat.lt_succ_of_le (Text.length_dropWhile_le _ _)

end KeepAlive.Script
