/-!
# How a login ends

The classification of a login attempt, with the code under which each ending is stored and sent and
the sentence that explains it to a reader.
-/

namespace KeepAlive

/-- How a login attempt ended. -/
inductive LoginStatus
  | success
  | automaticFormDetectionFailed
  | usernameFieldNotFound
  | passwordFieldNotFound
  | pinFieldNotFound
  | submitButtonNotFound
  | buttonNotFound
  | textFieldNotFound
  | successUrlDidNotMatch
  | unknownExecutionError
  deriving DecidableEq, Repr, Inhabited

namespace LoginStatus

/-- Every status. -/
def all : List LoginStatus := [
  .success, .automaticFormDetectionFailed, .usernameFieldNotFound, .passwordFieldNotFound,
  .pinFieldNotFound, .submitButtonNotFound, .buttonNotFound, .textFieldNotFound,
  .successUrlDidNotMatch, .unknownExecutionError]

theorem mem_all (status : LoginStatus) : status ∈ all := by
  cases status <;> decide

/-- The code of a status in records and answers. -/
def code : LoginStatus → String
  | .success => "SUCCESS"
  | .automaticFormDetectionFailed => "AUTOMATIC_FORM_DETECTION_FAILED"
  | .usernameFieldNotFound => "USERNAME_FIELD_NOT_FOUND"
  | .passwordFieldNotFound => "PASSWORD_FIELD_NOT_FOUND"
  | .pinFieldNotFound => "PIN_FIELD_NOT_FOUND"
  | .submitButtonNotFound => "SUBMIT_BUTTON_NOT_FOUND"
  | .buttonNotFound => "BUTTON_NOT_FOUND"
  | .textFieldNotFound => "TEXT_FIELD_NOT_FOUND"
  | .successUrlDidNotMatch => "SUCCESS_URL_DID_NOT_MATCH"
  | .unknownExecutionError => "UNKNOWN_EXECUTION_ERROR"

/-- The status with the given code. -/
def ofCode? (text : String) : Option LoginStatus :=
  all.find? (·.code = text)

theorem ofCode?_code (status : LoginStatus) : ofCode? status.code = some status := by
  cases status <;> decide

/-- Whether the login went through. -/
def isSuccess (status : LoginStatus) : Bool :=
  status = .success

/-- The status in words. -/
def describe : LoginStatus → String
  | .success => "Login successful"
  | .automaticFormDetectionFailed => "Automatic form detection failed"
  | .usernameFieldNotFound => "Username field not found"
  | .passwordFieldNotFound => "Password field not found"
  | .pinFieldNotFound => "PIN field not found"
  | .submitButtonNotFound => "Submit button not found"
  | .buttonNotFound => "Button not found"
  | .textFieldNotFound => "Text field not found"
  | .successUrlDidNotMatch => "The success url did not match after login attempt"
  | .unknownExecutionError => "An unknown error occurred while executing task"

end LoginStatus

end KeepAlive
