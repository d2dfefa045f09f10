import KeepAlive.Json.Value
import KeepAlive.Login.Attempt

/-!
# Configuration

Every section and every setting has a default, settings that are not known are passed over, and a
section may also be written as the list of its settings in order.
-/

namespace KeepAlive.Config

/-- Where the records are kept. -/
structure Storage where
  dbPath : String := "/var/lib/sessionkeeper/sessionkeeper.db"
  deriving DecidableEq, Repr

/-- When jobs run. -/
structure Scheduler where
  /-- How late, in seconds, a job may still run. -/
  misfireGraceSecs : Nat := 3600
  /-- How many events a reader may be behind. -/
  eventBuffer : Nat := 1024
  deriving DecidableEq, Repr

/-- The bounds on the waits of a login attempt. -/
structure Login where
  discoveryTimeoutSecs : Nat := 30
  discoveryIntervalSecs : Nat := 5
  successTimeoutSecs : Nat := 30
  successPollMs : Nat := 1000
  settleMs : Nat := 500
  maxWaitMs : Nat := 60000
  deriving DecidableEq, Repr

/-- The browser to use. -/
structure Driver where
  webdriverUrl : String := "http://127.0.0.1:4444"
  browser : String := "firefox"
  headless : Bool := true
  screenshotDir : String := "/var/lib/sessionkeeper/screenshots"
  requestTimeoutSecs : Nat := 60
  deriving DecidableEq, Repr

/-- The interface for other programs. -/
structure Api where
  bind : String := "127.0.0.1:8080"
  deriving DecidableEq, Repr

/-- The form of log lines. -/
inductive LogFormat
  | text
  | json
  deriving DecidableEq, Repr

/-- What is logged. -/
structure Logging where
  level : String := "info"
  format : LogFormat := .text
  deriving DecidableEq, Repr

end Config

/-- A whole configuration. -/
structure Config where
  storage : Config.Storage := {}
  scheduler : Config.Scheduler := {}
  login : Config.Login := {}
  driver : Config.Driver := {}
  api : Config.Api := {}
  logging : Config.Logging := {}
  deriving DecidableEq, Repr

namespace Config

/-- The timing of login attempts, in milliseconds. -/
def Login.timing (login : Login) : KeepAlive.Login.Timing where
  discoveryTimeout := login.discoveryTimeoutSecs * 1000
  discoveryInterval := login.discoveryIntervalSecs * 1000
  successTimeout := login.successTimeoutSecs * 1000
  successPoll := login.successPollMs
  settle := login.settleMs
  maxWait := login.maxWaitMs

/-! ## Reading -/

/-- A setting looked up in its section by name, or by position in a list; `none` is a value of the
wrong kind. -/
def setting {α : Type} (part : Json) (position : Nat) (name : String)
    (read : Json → Option α) (default : α) : Option α :=
  match part with
  | .object _ =>
    match part.member? name with
    | none => some default
    | some value => read value
  | .array items =>
    match items[position]? with
    | none => some default
    | some value => read value
  | _ => none

/-- Unsigned numbers are below this bound. -/
def numberBound : Nat := 18446744073709551616

/-- An unsigned number. -/
def number : Json → Option Nat :=
  Json.natural? numberBound

/-- The storage section. -/
def Storage.ofJson? (value : Json) : Option Storage := do
  let standard : Storage := {}
  return { dbPath := ← setting value 0 "db_path" Json.text? standard.dbPath }

/-- The scheduler section. -/
def Scheduler.ofJson? (value : Json) : Option Scheduler := do
  let standard : Scheduler := {}
  return {
    misfireGraceSecs :=
      ← setting value 0 "misfire_grace_secs" number standard.misfireGraceSecs
    eventBuffer := ← setting value 1 "event_buffer" number standard.eventBuffer }

/-- The login section. -/
def Login.ofJson? (value : Json) : Option Login := do
  let standard : Login := {}
  return {
    discoveryTimeoutSecs :=
      ← setting value 0 "discovery_timeout_secs" number standard.discoveryTimeoutSecs
    discoveryIntervalSecs :=
      ← setting value 1 "discovery_interval_secs" number standard.discoveryIntervalSecs
    successTimeoutSecs :=
      ← setting value 2 "success_timeout_secs" number standard.successTimeoutSecs
    successPollMs := ← setting value 3 "success_poll_ms" number standard.successPollMs
    settleMs := ← setting value 4 "settle_ms" number standard.settleMs
    maxWaitMs := ← setting value 5 "max_wait_ms" number standard.maxWaitMs }

/-- The driver section. -/
def Driver.ofJson? (value : Json) : Option Driver := do
  let standard : Driver := {}
  return {
    webdriverUrl := ← setting value 0 "webdriver_url" Json.text? standard.webdriverUrl
    browser := ← setting value 1 "browser" Json.text? standard.browser
    headless := ← setting value 2 "headless" Json.bool? standard.headless
    screenshotDir := ← setting value 3 "screenshot_dir" Json.text? standard.screenshotDir
    requestTimeoutSecs :=
      ← setting value 4 "request_timeout_secs" number standard.requestTimeoutSecs }

/-- The api section. -/
def Api.ofJson? (value : Json) : Option Api := do
  let standard : Api := {}
  return { bind := ← setting value 0 "bind" Json.text? standard.bind }

/-- The form of log lines by its name. -/
def LogFormat.named? (name : String) : Option LogFormat :=
  [("text", .text), ("json", .json)].lookup name

/-- A form of log lines: its name, or a table that holds nothing but that name with nothing in
it. -/
def LogFormat.ofJson? : Json → Option LogFormat
  | .text name => named? name
  | .object [(name, .object [])] => named? name
  | .object [(name, .array [])] => named? name
  | _ => none

/-- The logging section. -/
def Logging.ofJson? (value : Json) : Option Logging := do
  let standard : Logging := {}
  return {
    level := ← setting value 0 "level" Json.text? standard.level
    format := ← setting value 1 "format" LogFormat.ofJson? standard.format }

/-- A whole configuration. -/
def ofJson? (value : Json) : Option Config := do
  return {
    storage := ← setting value 0 "storage" Storage.ofJson? {}
    scheduler := ← setting value 1 "scheduler" Scheduler.ofJson? {}
    login := ← setting value 2 "login" Login.ofJson? {}
    driver := ← setting value 3 "driver" Driver.ofJson? {}
    api := ← setting value 4 "api" Api.ofJson? {}
    logging := ← setting value 5 "logging" Logging.ofJson? {} }

/-! ## Writing -/

/-- The name of a form of log lines. -/
def LogFormat.name : LogFormat → String
  | .text => "text"
  | .json => "json"

/-- The whole configuration as a value. -/
def toJson (config : Config) : Json :=
  .object [
    ("storage", .object [("db_path", .text config.storage.dbPath)]),
    ("scheduler", .object [
      ("misfire_grace_secs", .nat config.scheduler.misfireGraceSecs),
      ("event_buffer", .nat config.scheduler.eventBuffer)]),
    ("login", .object [
      ("discovery_timeout_secs", .nat config.login.discoveryTimeoutSecs),
      ("discovery_interval_secs", .nat config.login.discoveryIntervalSecs),
      ("success_timeout_secs", .nat config.login.successTimeoutSecs),
      ("success_poll_ms", .nat config.login.successPollMs),
      ("settle_ms", .nat config.login.settleMs),
      ("max_wait_ms", .nat config.login.maxWaitMs)]),
    ("driver", .object [
      ("webdriver_url", .text config.driver.webdriverUrl),
      ("browser", .text config.driver.browser),
      ("headless", .bool config.driver.headless),
      ("screenshot_dir", .text config.driver.screenshotDir),
      ("request_timeout_secs", .nat config.driver.requestTimeoutSecs)]),
    ("api", .object [("bind", .text config.api.bind)]),
    ("logging", .object [
      ("level", .text config.logging.level),
      ("format", .text config.logging.format.name)])]

end Config

end KeepAlive
