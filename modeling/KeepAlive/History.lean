import KeepAlive.Login.Attempt
import KeepAlive.Time.Record

/-!
# The history of login attempts

Every attempt leaves one entry.  An entry is in progress until it is finished, once, as a success or
as a failure that says why.
-/

namespace KeepAlive

open Time

/-- The stage of a login attempt. -/
inductive ActionStatus
  | inProgress
  | success
  | failed
  deriving DecidableEq, Repr

namespace ActionStatus

/-- Every stage. -/
def all : List ActionStatus := [.inProgress, .success, .failed]

/-- The code of a stage in records and answers. -/
def code : ActionStatus → String
  | .inProgress => "IN_PROGRESS"
  | .success => "SUCCESS"
  | .failed => "FAILED"

/-- The stage with the given code. -/
def ofCode? (text : String) : Option ActionStatus :=
  all.find? (·.code = text)

theorem ofCode?_code (status : ActionStatus) : ofCode? status.code = some status := by
  cases status <;> decide

/-- Whether an attempt is over. -/
def isTerminal (status : ActionStatus) : Bool :=
  status ≠ .inProgress

end ActionStatus

/-- The record of one login attempt. -/
structure History where
  id : Int
  siteId : Int
  started : Instant
  ended : Option Instant
  status : ActionStatus
  failure : Option LoginStatus
  message : Option String
  screenshotId : Option String
  deriving DecidableEq, Repr

/-- An entry as it is sent. -/
def History.toJson (entry : History) : Json :=
  .object [
    ("id", .integer entry.id), ("site_id", .integer entry.siteId),
    ("execution_started", entry.started.toJson),
    ("execution_ended", .ofOption Instant.toJson entry.ended),
    ("status", .text entry.status.code),
    ("failure", .ofOption (.text ·.code) entry.failure), ("message", .ofText? entry.message),
    ("screenshot_id", .ofText? entry.screenshotId)]

/-- An entry to be added to the history of a site. -/
structure NewHistory where
  started : Instant
  ended : Option Instant := none
  status : ActionStatus
  failure : Option LoginStatus := none
  message : Option String := none
  screenshotId : Option String := none
  deriving DecidableEq, Repr

namespace NewHistory

/-- The entry of an attempt that begins. -/
def inProgress (started : Instant) (screenshotId : Option String) : NewHistory :=
  { started, status := .inProgress, screenshotId }

/-- The entry of a login by hand. -/
def manual (now : Instant) : NewHistory :=
  { started := now, ended := some now, status := .success
    message := some "Logged in manually" }

/-- The entry of an attempt that never got one of its own. -/
def crashed (started ended : Instant) (message : Option String) : NewHistory :=
  { started, ended := some ended, status := .failed
    failure := some .unknownExecutionError, message }

end NewHistory

/-- How an entry is finished. -/
structure Finish where
  status : ActionStatus
  failure : Option LoginStatus
  message : Option String
  screenshotId : Option String
  deriving DecidableEq, Repr

namespace Finish

/-- The finish of an attempt that ended with a status. -/
def ofOutcome (status : LoginStatus) (message screenshotId : Option String) : Finish :=
  if status.isSuccess then ⟨.success, none, message, screenshotId⟩
  else ⟨.failed, some status, message, screenshotId⟩

theorem ofOutcome_isTerminal (status : LoginStatus) (message screenshotId : Option String) :
    (ofOutcome status message screenshotId).status.isTerminal = true := by
  unfold ofOutcome
  split <;> rfl

end Finish

end KeepAlive
