import KeepAlive.Browser.Dialogue
import KeepAlive.Script.Parse

/-!
# Running a login script

Commands run strictly in order and the first failure stops the script.
-/

namespace KeepAlive.Script

open Browser

/-- Why a script did not run to its end. -/
structure Stopped where
  status : LoginStatus
  detail : Option String := none
  deriving DecidableEq, Repr

/-- The sentence for a script that stopped. -/
def Stopped.message (stopped : Stopped) : String :=
  "script stopped: " ++ stopped.status.code

/-- What a script runs with; times are in milliseconds. -/
structure Setting where
  locators : Locators
  credentials : Credentials
  /-- The pause after each fill or click. -/
  settle : Nat := 500
  /-- Longer waits are cut to this. -/
  maxWait : Nat := 60000
  deriving Repr

/-- The call that a command on a login field makes. -/
def fieldCall (credentials : Credentials) (locator : String) : Field → Call
  | .username => .fillText locator credentials.username
  | .password => .fillText locator credentials.password
  | .submitButton => .clickButton locator

/-- Makes a call on an element and lets the page settle.  If the element cannot be reached, the
script stops with `missing`. -/
def onElement (setting : Setting) (call : Call) (locator : String) (missing : LoginStatus) :
    Session (Except Stopped Unit) := do
  match ← Session.tryCall call with
  | .ok _ =>
    Session.pause setting.settle
    return .ok ()
  | .error refusal =>
    if refusal.isLocatorFailure then
      return .error ⟨missing, some ("XPath \"" ++ locator ++ "\" not found on page.")⟩
    else return .error ⟨.unknownExecutionError, none⟩

/-- Makes a call that is not about an element. -/
def plainCall (call : Call) : Session (Except Stopped Unit) := do
  match ← Session.tryCall call with
  | .ok _ => return .ok ()
  | .error _ => return .error ⟨.unknownExecutionError, none⟩

/-- Runs one command. -/
def perform (setting : Setting) : Command → Session (Except Stopped Unit)
  | .onField field explicit =>
    match explicit <|> setting.locators.get field with
    | none => return .error ⟨field.notFound, none⟩
    | some locator =>
      onElement setting (fieldCall setting.credentials locator field) locator field.notFound
  | .fillText locator value =>
    onElement setting (.fillText locator value) locator .textFieldNotFound
  | .clickButton locator => onElement setting (.clickButton locator) locator .buttonNotFound
  | .openUrl url => plainCall (.openUrl url)
  | .wait milliseconds => plainCall (.wait (min milliseconds setting.maxWait))

/-- Runs commands in order until one stops the script. -/
def run (setting : Setting) : List Command → Session (Except Stopped Unit)
  | [] => return .ok ()
  | command :: rest => do
    match ← perform setting command with
    | .ok () => run setting rest
    | .error stopped => return .error stopped

/-- Runs a script text; one that is no script stops with its diagnostic. -/
def runSource (setting : Setting) (source : String) : Session (Except Stopped Unit) :=
  match parse source with
  | .ok commands => run setting commands
  | .error e => return .error ⟨.unknownExecutionError, some e.message⟩

end KeepAlive.Script
