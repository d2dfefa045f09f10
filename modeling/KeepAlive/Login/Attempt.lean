import KeepAlive.Form.Find
import KeepAlive.Script.Run

/-!
# One login attempt

An attempt opens a browser session, finds and fills in the form or runs the site's own script, and
then checks that the browser ends up on the success url.  Every refusal and every crash within it is
classified, and a session that was opened is closed on every path.
-/

namespace KeepAlive.Login

open Browser

/-- The bounds on the waits of an attempt, in milliseconds. -/
structure Timing where
  discoveryTimeout : Nat
  discoveryInterval : Nat
  successTimeout : Nat
  successPoll : Nat
  settle : Nat
  maxWait : Nat
  deriving DecidableEq, Repr

/-- What to log into. -/
structure Request where
  url : String
  successUrl : String
  credentials : Credentials
  script : Option String := none
  /-- The name under which a picture of the last page is kept. -/
  screenshotId : Option String := none
  deriving Repr

/-- How an attempt ended. -/
structure Outcome where
  status : LoginStatus
  message : Option String := none
  deriving DecidableEq, Repr

/-- The outcome of an attempt that failed for no reason of its own. -/
def Outcome.unknown : Outcome :=
  ⟨.unknownExecutionError, none⟩

/-- Whether two urls are the same but for one slash at the end of one of them. -/
def urlsMatch (a b : String) : Bool :=
  a = b || a = b ++ "/" || b = a ++ "/"

/-- The seconds of the platform's clock stay below this bound. -/
def clockBound : Nat := 9223372036854775808

/-- The time `timeout` from `now` on, which has to be one that the clock can show. -/
def deadline (timeout : Nat) : Session Nat := do
  let now ← Session.clock
  if (now + timeout) / 1000 < clockBound then return now + timeout
  else Session.crash "overflow when adding duration to instant"

/-- Thirty years, in milliseconds. -/
def longestNap : Nat := 30 * 365 * 86400 * 1000

/-- Lets time pass; a pause beyond the range of the clock is cut to thirty years. -/
def nap (milliseconds : Nat) : Session Unit := do
  let now ← Session.clock
  Session.pause (if (now + milliseconds) / 1000 < clockBound then milliseconds else longestNap)

/-- The number of pauses of length `interval`, or of thirty years if that is less, until `timeout`
has passed. -/
def pausesWithin (timeout interval : Nat) : Nat :=
  let shortest := min interval longestNap
  (timeout + shortest - 1) / shortest

/-- Keeps a picture of the page, if one is asked for, whatever comes of it. -/
def classified (request : Request) (outcome : Outcome) : Session Outcome := do
  match request.screenshotId with
  | none => return outcome
  | some id =>
    Session.callAnyway (.saveScreenshot id)
    return outcome

/-- The status of a form of which too little was found in time. -/
def missingStatus (found : Locators) : LoginStatus :=
  match found.firstMissing with
  | some field => if found.isEmpty then .automaticFormDetectionFailed else field.notFound
  | none => .automaticFormDetectionFailed

/-- Searches the form once.  If some of it is missing and there is time left, goes on with `again`,
which is absent when no further pause fits into the time. -/
def searchOr (limit : Nat) (again : Option (Session (Except LoginStatus Locators))) :
    Session (Except LoginStatus Locators) := do
  let found ← Form.find
  if found.isComplete then return .ok found
  else
    let now ← Session.clock
    match again with
    | none => return .error (missingStatus found)
    | some later => if limit ≤ now then return .error (missingStatus found) else later

/-- Searches the form until all of it is visible or the time is over; `pauses` is how many pauses
fit into that time. -/
def discover (timing : Timing) (limit : Nat) :
    (pauses : Nat) → Session (Except LoginStatus Locators)
  | 0 => searchOr limit none
  | pauses + 1 => searchOr limit (some do
      nap timing.discoveryInterval
      Session.callAnyway .solveCaptcha
      discover timing limit pauses)

/-- The message for a browser that is on the wrong page. -/
def mismatchMessage (expected current : String) : String :=
  "Expected URL \"" ++ expected ++ "\" but the browser stayed on \"" ++ current ++ "\"."

/-- Judges a url that was read.  If it is not the expected one and there is time left, goes on with
`again`, which is absent when no further pause fits into the time. -/
def judgeOr (expected : String) (limit : Nat) (current : String) (again : Option (Session Outcome)) :
    Session Outcome := do
  if urlsMatch current expected then return ⟨.success, none⟩
  else
    let now ← Session.clock
    let mismatch : Outcome := ⟨.successUrlDidNotMatch, some (mismatchMessage expected current)⟩
    match again with
    | none => return mismatch
    | some later => if limit ≤ now then return mismatch else later

/-- Reads the url until it is the expected one or the time is over; `pauses` is how many pauses fit
into that time. -/
def awaitUrl (timing : Timing) (expected : String) (limit : Nat) :
    (pauses : Nat) → (current : String) → Session Outcome
  | 0, current => judgeOr expected limit current none
  | pauses + 1, current => judgeOr expected limit current (some do
      nap timing.successPoll
      Session.callAnyway .solveCaptcha
      let next ← Session.call .currentUrl
      awaitUrl timing expected limit pauses next)

/-- What a script runs with in an attempt. -/
def settingFor (timing : Timing) (request : Request) (locators : Locators) : Script.Setting :=
  { locators, credentials := request.credentials, settle := timing.settle
    maxWait := timing.maxWait }

/-- Fills in the form that is found on the page. -/
def fillForm (timing : Timing) (request : Request) : Session (Except Outcome Unit) := do
  let limit ← deadline timing.discoveryTimeout
  match ← discover timing limit
      (pausesWithin timing.discoveryTimeout timing.discoveryInterval) with
  | .error status => return .error ⟨status, none⟩
  | .ok locators =>
    match ← Script.runSource (settingFor timing request locators) Script.standard with
    | .ok () => return .ok ()
    | .error stopped => return .error ⟨stopped.status, stopped.detail⟩

/-- Runs the site's own script. -/
def runScript (timing : Timing) (request : Request) (source : String) :
    Session (Except Outcome Unit) := do
  match Script.parse source with
  | .error e => return .error ⟨.unknownExecutionError, some e.message⟩
  | .ok commands =>
    let locators ← if Script.needsLocators commands then Form.find else pure {}
    match ← Script.run (settingFor timing request locators) commands with
    | .ok () => return .ok ()
    | .error stopped => return .error ⟨stopped.status, stopped.detail⟩

/-- Checks that the browser ends up on the success url. -/
def checkSuccess (timing : Timing) (request : Request) : Session Outcome := do
  Session.call (.openUrl request.successUrl)
  let limit ← deadline timing.successTimeout
  let current ← Session.call .currentUrl
  awaitUrl timing request.successUrl limit
    (pausesWithin timing.successTimeout timing.successPoll) current

/-- An attempt in an open session. -/
def attempt (timing : Timing) (request : Request) : Session Outcome := do
  Session.call (.openUrl request.url)
  Session.callAnyway .solveCaptcha
  let filled ← match request.script with
    | none => fillForm timing request
    | some source => runScript timing request source
  match filled with
  | .error outcome => classified request outcome
  | .ok () => classified request (← checkSuccess timing request)

/-- A whole attempt: session, login, end of session.  Only a crash while the session is opened or
closed breaks it off. -/
def login (timing : Timing) (request : Request) : Session Outcome := do
  match ← Session.tryCall .connect with
  | .error _ => return Outcome.unknown
  | .ok _ =>
    let outcome ← ExceptT.lift (attempt timing request).caught
    Session.callAnyway .disconnect
    match outcome with
    | .ok outcome => return outcome
    | .error _ => return Outcome.unknown

end KeepAlive.Login
