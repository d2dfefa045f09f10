import KeepAlive.Script.Command
import KeepAlive.Script.Token

/-!
# Reading a login script

The parser takes one token after the other and is always in one of two states: between two commands,
or inside one, where a `Form` says what may follow.  So it stops at the first token after which the
script can no longer be completed.
-/

namespace KeepAlive.Script

/-- What is still to come of a command that has begun. -/
inductive Form
  | done (command : Command)
  | mark (token : Token) (next : Form)
  | optionalText (next : Option String → Form)
  | textThen (next : String → Form)
  | integerThen (next : Nat → Form)

namespace Form

/-- The form of a command on a login field, after its name. -/
def onField (field : Field) : Form :=
  .mark .opening (.optionalText fun locator => .mark .closing (.done (.onField field locator)))

/-- The form of a command with one string, after its name. -/
def oneText (command : String → Command) : Form :=
  .mark .opening (.textThen fun content => .mark .closing (.done (command content)))

/-- The form of `fillText`, after its name. -/
def fillText : Form :=
  .mark .opening (.textThen fun locator =>
    .mark .comma (.textThen fun value => .mark .closing (.done (.fillText locator value))))

/-- The form of `wait`, after its name. -/
def wait : Form :=
  .mark .opening (.integerThen fun milliseconds =>
    .mark .closing (.done (.wait milliseconds)))

/-- The commands by name, in the order in which a message lists them. -/
def table : List (String × Form) := [
  ("clickSubmitButton", onField .submitButton),
  ("fillUsername", onField .username),
  ("fillPassword", onField .password),
  ("fillText", fillText),
  ("clickButton", oneText .clickButton),
  ("openUrl", oneText .openUrl),
  ("wait", wait)]

/-- The form of the command with this name. -/
def named? (name : String) : Option Form :=
  table.lookup name

/-- What is left of a form after one more token. -/
def advance : Form → Token → Except Cause Form
  | .done _, found => .error (.notACommand found)
  | .mark token next, found =>
    if found = token then .ok next else .error (.unexpected (.token token) (some found))
  | .optionalText next, .text content => .ok (next (some content))
  | .optionalText next, found => (next none).advance found
  | .textThen next, .text content => .ok (next content)
  | .textThen _, found => .error (.unexpected .textArgument (some found))
  | .integerThen next, .integer value =>
    if value ≤ maxWait then .ok (next value) else .error (.waitTooLong value maxWait)
  | .integerThen _, found => .error (.unexpected .integerArgument (some found))

/-- Why a script cannot end here. -/
def atEnd : Form → Cause
  | .done _ => .unexpected (.token .closing) none
  | .mark token _ => .unexpected (.token token) none
  | .optionalText next => (next none).atEnd
  | .textThen _ => .unexpected .textArgument none
  | .integerThen _ => .unexpected .integerArgument none

end Form

/-- The commands that the tokens spell, from between two commands (`none`) or from inside one;
`last` is the place of the script's end. -/
def commandsFrom (last : Nat) :
    Option Form → List (Nat × Token) → Except Problem (List Command)
  | none, [] => .ok []
  | some form, [] => .error ⟨last, form.atEnd⟩
  | none, (place, .name name) :: rest =>
    match Form.named? name with
    | some form => commandsFrom last (some form) rest
    | none => .error ⟨place, .unknownCommand name⟩
  | none, (place, found) :: _ => .error ⟨place, .notACommand found⟩
  | some form, (place, found) :: rest =>
    match form.advance found with
    | .error cause => .error ⟨place, cause⟩
    | .ok (.done command) => (commandsFrom last none rest).map (command :: ·)
    | .ok next => commandsFrom last (some next) rest

/-- The commands that a text spells. -/
def commandsOf (source : List Char) : Except Problem (List Command) :=
  match tokens 0 source with
  | .error problem => .error problem
  | .ok found => commandsFrom source.length none found

/-- The 1-based line and column of a place. -/
def position (source : List Char) (place : Nat) : Nat × Nat :=
  let before := source.take place
  (before.count '\n' + 1, (before.reverse.takeWhile (· ≠ '\n')).length + 1)

/-- The sentence for a cause. -/
def Cause.message : Cause → String
  | .unexpectedCharacter c => "unexpected character " ++ Text.quotedChar c
  | .integerOutOfRange digits => "integer " ++ String.ofList digits ++ " is out of range"
  | .unterminatedString => "unterminated string"
  | .invalidEscape letter => "invalid \\" ++ String.singleton letter ++ " escape"
  | .namedEscape => "named \\N\x7b...\x7d escapes are not supported"
  | .notACommand found => "expected a command, found " ++ found.describe
  | .unknownCommand name => "unknown command `" ++ name ++ "`, expected one of " ++
      ", ".intercalate (Form.table.map (·.1))
  | .unexpected wanted (some found) =>
    "expected " ++ wanted.describe ++ ", found " ++ found.describe
  | .unexpected wanted none => "expected " ++ wanted.describe ++ ", found end of script"
  | .waitTooLong milliseconds limit => "wait of " ++ toString milliseconds ++ " ms exceeds the " ++
      toString limit ++ " ms limit"

/-- Where and why a text is not a script. -/
structure SyntaxError where
  line : Nat
  column : Nat
  cause : Cause
  deriving DecidableEq, Repr

/-- The diagnostic of a text that is not a script. -/
def SyntaxError.message (e : SyntaxError) : String :=
  "line " ++ toString e.line ++ ", column " ++ toString e.column ++ ": " ++ e.cause.message

/-- Reads a script. -/
def parse (source : String) : Except SyntaxError (List Command) :=
  match commandsOf source.toList with
  | .ok commands => .ok commands
  | .error problem =>
    let (line, column) := position source.toList problem.place
    .error ⟨line, column, problem.cause⟩

/-- The diagnostic of a text that is not a script, and nothing for one that is. -/
def check (source : String) : Option String :=
  match parse source with
  | .ok _ => none
  | .error e => some e.message

/-- Whether some command relies on a discovered locator. -/
def needsLocators (commands : List Command) : Bool :=
  commands.any Command.needsLocator

/-- The script of a site that has none of its own. -/
def standard : String :=
  "fillUsername()\nfillPassword()\nclickSubmitButton()"

end KeepAlive.Script
