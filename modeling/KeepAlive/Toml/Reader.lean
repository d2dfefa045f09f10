import KeepAlive.Binary64
import KeepAlive.Text.Digits
import KeepAlive.Text.Scan
import KeepAlive.Time.Civil
import KeepAlive.Toml.Tree

/-!
# Reading TOML

A document is a list of lines: assignments, headers, comments and blank lines.  It is read as one
value; a date or a time becomes an object of its own, which no setting takes for a text.
-/

namespace KeepAlive.Toml

open Text (Scan)

/-- Stops if there is nothing. -/
def present {α : Type} : Option α → Scan α
  | some a => return a
  | none => Scan.stop

/-- Passes over a mark, if it is next; says whether it did. -/
def take? (mark : String) : Scan Bool := do
  if mark.toList.isPrefixOf (← Scan.ahead) then
    Scan.skip mark.length
    return true
  else return false

/-- Passes over a mark, which has to be next. -/
def need (mark : String) : Scan Unit := do
  if ← take? mark then return () else Scan.stop

/-- Passes over blanks within a line. -/
def space : Scan Unit := do
  let _ ← Scan.takeWhile fun c => c = ' ' || c = '\t'

/-- Whether a comment may hold the character. -/
def inComment (c : Char) : Bool :=
  c = '\t' || (32 ≤ c.toNat && c.toNat ≠ 127)

/-- Passes over a comment, if one is next. -/
def comment : Scan Unit := do
  if ← take? "#" then
    let _ ← Scan.takeWhile inComment

/-- Passes over the end of a line, if it is next; says whether it did. -/
def lineEnd? : Scan Bool := do
  if ← take? "\n" then return true else take? "\r\n"

/-- Passes over blanks and line ends. -/
def lineEnds : Scan Unit := do
  let _ ← Scan.collect do
    space
    if ← lineEnd? then return some () else return none

/-- Passes over blanks, comments and line ends. -/
def blankLines : Scan Unit := do
  let _ ← Scan.collect do
    space
    comment
    if ← lineEnd? then return some () else return none

/-- Passes over the rest of a line that holds nothing more. -/
def restOfLine : Scan Unit := do
  space
  comment
  if (← Scan.ahead).isEmpty then return ()
  else if ← lineEnd? then return ()
  else Scan.stop

/-! ## Texts -/

/-- The character that so many hexadecimal digits spell. -/
def codePoint (width : Nat) : Scan Char := do
  let digits := (← Scan.ahead).take width
  if digits.length = width then
    match Text.readHex digits with
    | some code =>
      Scan.skip width
      present (Text.scalar? code)
    | none => Scan.stop
  else Scan.stop

/-- What an escape denotes, after its backslash. -/
def escape : Scan Char := do
  match (← Scan.ahead).head? with
  | none => Scan.stop
  | some c =>
    Scan.skip 1
    match [('b', '\x08'), ('t', '\t'), ('n', '\n'), ('f', '\x0c'), ('r', '\r'), ('"', '"'),
        ('\\', '\\')].lookup c with
    | some denoted => return denoted
    | none =>
      if c = 'u' then codePoint 4
      else if c = 'U' then codePoint 8
      else Scan.stop

/-- The next characters of a text of one line, or nothing at its closing quote. -/
def lineChar (quote : Char) (escapes : Bool) : Scan (Option Char) := do
  match (← Scan.ahead).head? with
  | none => Scan.stop
  | some c =>
    if c = quote then
      Scan.skip 1
      return none
    else if c = '\\' && escapes then
      Scan.skip 1
      some <$> escape
    else if inComment c then
      Scan.skip 1
      return some c
    else Scan.stop

/-- A text of one line, after its opening quote. -/
def lineText (quote : Char) : Scan String := do
  return String.ofList (← Scan.collect (lineChar quote (quote = '"')))

/-- The next characters of a text of several lines, or nothing in front of its closing quotes. -/
def blockChars (quote : Char) (escapes : Bool) : Scan (Option (List Char)) := do
  let s ← Scan.ahead
  if [quote, quote, quote].isPrefixOf s then return none
  else
    match s with
    | [] => Scan.stop
    | c :: rest =>
      if c = '\\' && escapes then
        Scan.skip 1
        let afterBlank := rest.dropWhile fun c => c = ' ' || c = '\t'
        if ['\n'].isPrefixOf afterBlank || ['\r', '\n'].isPrefixOf afterBlank then
          lineEnds
          return some []
        else return some [← escape]
      else if ← lineEnd? then return some ['\n']
      else if inComment c then
        Scan.skip 1
        return some [c]
      else Scan.stop

/-- A text of several lines, after its opening quotes.  A line end right after these is left out, and
of up to five quotes at the end the last three close it. -/
def blockText (quote : Char) : Scan String := do
  let _ ← lineEnd?
  let chunks ← Scan.collect (blockChars quote (quote = '"'))
  let quotes := ((← Scan.ahead).take 5).takeWhile (· = quote)
  Scan.skip quotes.length
  return String.ofList (chunks.flatten ++ quotes.drop 3)

/-- A text of any kind, with its opening quote still to come. -/
def text : Scan String := do
  if ← take? "\"\"\"" then blockText '"'
  else if ← take? "'''" then blockText '\''
  else if ← take? "\"" then lineText '"'
  else
    need "'"
    lineText '\''

/-! ## Keys -/

/-- Keys have fewer than this many parts. -/
def partLimit : Nat := 80

/-- Whether a key without quotes may hold the character. -/
def inBareKey (c : Char) : Bool :=
  c.isAlphanum || c = '-' || c = '_'

/-- One part of a key. -/
def keyPart : Scan String := do
  if ← take? "\"" then lineText '"'
  else if ← take? "'" then lineText '\''
  else
    let found ← Scan.takeWhile inBareKey
    if found.isEmpty then Scan.stop else return String.ofList found

/-- A key, its parts divided by dots. -/
def key : Scan Key := do
  space
  let first ← keyPart
  space
  let more ← Scan.collect do
    if ← take? "." then
      space
      let part ← keyPart
      space
      return some part
    else return none
  let parts := first :: more
  if partLimit ≤ parts.length then Scan.stop
  else return ⟨parts.dropLast, parts.getLast?.getD first⟩

/-! ## Numbers and dates -/

/-- The integers are at most this, and not below its negative less one. -/
def largestInteger : Int := 9223372036854775807

/-- An integer in range. -/
def inRange (n : Int) : Scan Json :=
  if -largestInteger - 1 ≤ n && n ≤ largestInteger then return .integer n else Scan.stop

/-- Digits of a class, single underscores between them; they are given without the underscores. -/
def digitRun (isWanted : Char → Bool) : Scan (List Char) := do
  let found ← Scan.takeWhile fun c => isWanted c || c = '_'
  let groups := (String.ofList found).splitOn "_"
  if groups.all (fun group => !group.isEmpty) then return found.filter (· ≠ '_') else Scan.stop

/-- An integer in base 16, 8 or 2, after its mark. -/
def based (base : Nat) (isWanted : Char → Bool) : Scan Json := do
  inRange (Text.valueInBase base (← digitRun isWanted))

/-- The digits of the fraction of a number. -/
def fraction : Scan (List Char) := do
  if ← take? "." then digitRun Char.isDigit else return []

/-- The exponent of a number with its sign, if there is one. -/
def exponent : Scan (List Char) := do
  match (← Scan.ahead).head? with
  | none => return []
  | some e =>
    if e = 'e' || e = 'E' then
      Scan.skip 1
      let sign := ((← Scan.ahead).take 1).filter fun c => c = '+' || c = '-'
      Scan.skip sign.length
      return sign ++ (← digitRun Char.isDigit)
    else return []

/-- A number that need not be whole, given by its digits; without a minus it must not be infinite. -/
def real (sign whole places power : List Char) : Scan Json := do
  let exponent := (Text.readInteger power).getD 0 - places.length
  if sign ≠ ['-'] &&
      (Binary64.ofDecimal (Text.decimalValue (whole ++ places)) exponent).isInfinite then
    Scan.stop
  else
    let point := if places.isEmpty then [] else '.' :: places
    let mark := if power.isEmpty then [] else 'e' :: power
    return .real (String.ofList (sign ++ whole ++ point ++ mark))

/-- A number without base, after its sign. -/
def decimal (sign : List Char) : Scan Json := do
  if ← take? "inf" then return .real (String.ofList (sign ++ "inf".toList))
  else if ← take? "nan" then return .real (String.ofList (sign ++ "nan".toList))
  else
    let whole ← digitRun Char.isDigit
    if whole.head? = some '0' && 1 < whole.length then Scan.stop
    else
      let places ← fraction
      let power ← exponent
      if places.isEmpty && power.isEmpty then
        let n : Int := Text.decimalValue whole
        inRange (if sign = ['-'] then -n else n)
      else real sign whole places power

/-- So many digits. -/
def digits (count : Nat) : Scan Nat := do
  let found := (← Scan.ahead).take count
  if found.length = count && found.all Char.isDigit then
    Scan.skip count
    return Text.decimalValue found
  else Scan.stop

/-- Goes on only under a condition. -/
def onlyIf (condition : Bool) : Scan Unit :=
  if condition then return () else Scan.stop

/-- A time of day. -/
def timeOfDay : Scan Unit := do
  let hour ← digits 2
  need ":"
  let minute ← digits 2
  need ":"
  let second ← digits 2
  onlyIf (hour ≤ 23 && minute ≤ 59 && second ≤ 60)
  if ← take? "." then
    let fraction ← Scan.takeWhile Char.isDigit
    onlyIf (!fraction.isEmpty)

/-- An offset from UTC, if there is one. -/
def zoneOffset : Scan Unit := do
  match (← Scan.ahead).head? with
  | none => return ()
  | some c =>
    if c = 'Z' || c = 'z' then Scan.skip 1
    else if c = '+' || c = '-' then
      Scan.skip 1
      let hour ← digits 2
      need ":"
      let minute ← digits 2
      onlyIf (hour ≤ 23 && minute ≤ 59)

/-- The object that stands for a date or a time. -/
def moment (s : List Char) : Json :=
  .object [("moment", .text (String.ofList s))]

/-- A date, with the time of day if there is one. -/
def date : Scan Json := do
  let start ← Scan.ahead
  let year ← digits 4
  need "-"
  let month ← digits 2
  need "-"
  let day ← digits 2
  onlyIf (Time.Date.isValid ⟨year, month, day⟩)
  match ← Scan.ahead with
  | c :: next :: _ =>
    if (c = 'T' || c = 't' || c = ' ') && next.isDigit then
      Scan.skip 1
      timeOfDay
      zoneOffset
  | _ => pure ()
  return moment (start.take (start.length - (← Scan.ahead).length))

/-- A time of day alone. -/
def time : Scan Json := do
  let start ← Scan.ahead
  timeOfDay
  return moment (start.take (start.length - (← Scan.ahead).length))

/-- A number, a date or a time. -/
def numeric : Scan Json := do
  let s ← Scan.ahead
  if (s.take 4).all Char.isDigit && s[4]? = some '-' then date
  else if (s.take 2).all Char.isDigit && s[2]? = some ':' then time
  else if ← take? "0x" then based 16 Text.isHexDigit
  else if ← take? "0o" then based 8 Text.isOctalDigit
  else if ← take? "0b" then based 2 fun c => c = '0' || c = '1'
  else if ← take? "+" then decimal ['+']
  else if ← take? "-" then decimal ['-']
  else decimal []

/-! ## Values and documents -/

/-- The items of an array, after its bracket.  Line ends and comments may stand between them, and a
comma after the last one. -/
def arrayItems {α : Type} (item : Scan α) : Scan (List α) :=
  Scan.collect do
    blankLines
    if ← take? "]" then return none
    else
      let found ← item
      blankLines
      if ← take? "," then return some found
      else if (← Scan.ahead).head? = some ']' then return some found
      else Scan.stop

/-- The assignments of an inline table, after its brace; no comma follows the last one. -/
def inlineAssignments {α : Type} (item : Scan α) : Scan (List α) := do
  space
  if ← take? "\x7d" then return []
  else
    let first ← item
    space
    let more ← Scan.collect do
      if ← take? "," then
        let found ← item
        space
        return some found
      else
        need "\x7d"
        return none
    return first :: more

/-- A value that holds no others. -/
def plain : Scan Json := do
  match (← Scan.ahead).head? with
  | some '"' => return .text (← text)
  | some '\'' => return .text (← text)
  | _ =>
    if ← take? "true" then return .bool true
    else if ← take? "false" then return .bool false
    else numeric

/-- One value with fewer than `depth` levels in it. -/
def value : (depth : Nat) → Scan Json
  | 0 => plain
  | depth + 1 => do
    if ← take? "[" then return .array (← arrayItems (value depth))
    else if ← take? "\x7b" then
      let assignments ← inlineAssignments do
        let name ← key
        need "="
        space
        return (name, ← value depth)
      present (inlineTable? assignments)
    else plain

/-- Values hold fewer than this many levels. -/
def depthLimit : Nat := 79

/-- One statement with the rest of its line. -/
def statement : Scan Statement := do
  if ← take? "[[" then
    let name ← key
    need "]]"
    restOfLine
    return .nextHeader name
  else if ← take? "[" then
    let name ← key
    need "]"
    restOfLine
    return .header name
  else
    let name ← key
    need "="
    space
    let content ← value depthLimit
    restOfLine
    return .assign name content

/-- All statements of a document. -/
def statements : Scan (List Statement) :=
  Scan.collect do
    blankLines
    if (← Scan.ahead).isEmpty then return none else some <$> statement

/-- The value that a document describes. -/
def read? (source : String) : Option Json := do
  let s := source.toList
  let found ← statements.wholly? (if s.head? = some '\uFEFF' then s.drop 1 else s)
  document? found

end KeepAlive.Toml
