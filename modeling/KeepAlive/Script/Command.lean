import KeepAlive.Login.Field
import KeepAlive.Text.Quoted

/-!
# Commands of a login script

A script is a flat list of commands, run in order.  The commands on a login field may leave out the
locator; the automatically discovered one is used then.
-/

namespace KeepAlive.Script

/-- One instruction of a login script. -/
inductive Command
  /-- Fill in or click a field of the login form. -/
  | onField (field : Field) (locator : Option String)
  | fillText (locator value : String)
  | clickButton (locator : String)
  | openUrl (url : String)
  | wait (milliseconds : Nat)
  deriving DecidableEq, Repr

/-- The longest wait that a script may ask for, in milliseconds. -/
def maxWait : Nat := 3600000

namespace Command

/-- The name of the command on a login field. -/
def fieldName : Field → String
  | .username => "fillUsername"
  | .password => "fillPassword"
  | .submitButton => "clickSubmitButton"

/-- The word a command starts with. -/
def name : Command → String
  | .onField field _ => fieldName field
  | .fillText .. => "fillText"
  | .clickButton .. => "clickButton"
  | .openUrl .. => "openUrl"
  | .wait .. => "wait"

/-- The login field of a command that may fall back on a discovered locator, with the locator it
was given. -/
def defaultField : Command → Option (Field × Option String)
  | .onField field locator => some (field, locator)
  | _ => none

/-- The command as shown to a reader; a typed value is kept out of sight. -/
def shown : Command → String
  | .onField field none => fieldName field ++ "()"
  | .onField field (some locator) => fieldName field ++ "(" ++ Text.quoted locator ++ ")"
  | .fillText locator _ => "fillText(" ++ Text.quoted locator ++ ", ...)"
  | .clickButton locator => "clickButton(" ++ Text.quoted locator ++ ")"
  | .openUrl url => "openUrl(" ++ Text.quoted url ++ ")"
  | .wait milliseconds => "wait(" ++ toString milliseconds ++ ")"

/-- Whether the command relies on a discovered locator. -/
def needsLocator : Command → Bool
  | .onField _ none => true
  | _ => false

end Command

end KeepAlive.Script
