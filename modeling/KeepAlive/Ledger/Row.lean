import KeepAlive.History
import KeepAlive.Site

/-!
# Rows

The two tables of a ledger hold rows.  A row is looser than the record it stands for: instants and
codes are texts, and a column of numbers may hold a text that was put there by somebody else.
Reading a row checks all of this, in a fixed order, so that the first fault is the one reported.
-/

namespace KeepAlive

open Time

/-- What a column of whole numbers holds. -/
inductive Number
  | integer (value : Int)
  | real (spelling : String)
  | text (content : String)
  deriving DecidableEq, Repr

/-- A row of the table of sites. -/
structure SiteRow where
  id : Int
  name : String
  url : String
  successUrl : String
  username : String
  password : String
  takeScreenshot : Number
  paused : Number
  script : Option String
  dateStart : Number
  dateEnd : Option Number
  timeStart : Option Number
  timeEnd : Option Number
  next : Option String
  addedAt : String
  deriving DecidableEq, Repr

/-- A row of the table of attempts. -/
structure HistoryRow where
  id : Int
  siteId : Int
  started : String
  ended : Option String
  status : String
  failure : Option String
  message : Option String
  screenshotId : Option String
  deriving DecidableEq, Repr

/-- Why a row cannot be read.  Places are those of the columns in the table, from 0. -/
inductive Unreadable
  | wrongType (place : Nat) (column kind : String)
  | outOfRange (place : Nat) (value : Int)
  | unsound (flaw : Policy.Flaw)
  | badStamp (place : Nat) (error : StampError)
  | unknownCode (place : Nat) (kind code : String)
  deriving DecidableEq, Repr

namespace Unreadable

/-- What is wrong with a value that has the right type. -/
def cause? : Unreadable → Option String
  | wrongType .. | outOfRange .. => none
  | unsound flaw => some flaw.message
  | badStamp _ error => some error.message
  | unknownCode _ kind code => some ("unknown " ++ kind ++ " code " ++ Text.quoted code)

/-- The sentence for a value that cannot be converted. -/
def conversion (kind : String) (place : Nat) (cause : String) : String :=
  "Conversion error from type " ++ kind ++ " at index: " ++ toString place ++ ", " ++ cause

/-- The sentence for an unreadable row. -/
def message (unreadable : Unreadable) : String :=
  match unreadable with
  | wrongType place column kind =>
    "Invalid column type " ++ kind ++ " at index: " ++ toString place ++ ", name: " ++ column
  | outOfRange place value =>
    "Integer " ++ toString value ++ " out of range at index " ++ toString place
  | unsound _ => conversion "Integer" 9 (unreadable.cause?.getD "")
  | badStamp place _ => conversion "Text" place (unreadable.cause?.getD "")
  | unknownCode place _ _ => conversion "Text" place (unreadable.cause?.getD "")

end Unreadable

namespace Number

/-- A whole number. -/
def integer? (place : Nat) (column : String) : Number → Except Unreadable Int
  | .integer value => .ok value
  | .real _ => .error (.wrongType place column "Real")
  | .text _ => .error (.wrongType place column "Text")

/-- A number of minutes. -/
def minutes? (place : Nat) (column : String) (number : Number) : Except Unreadable UInt32 := do
  let value ← number.integer? place column
  if 0 ≤ value ∧ value.toNat < Policy.Fields.numberBound then return UInt32.ofNat value.toNat
  else throw (.outOfRange place value)

/-- A number of minutes, or nothing. -/
def optionalMinutes? (place : Nat) (column : String) :
    Option Number → Except Unreadable (Option UInt32)
  | none => .ok none
  | some number => (number.minutes? place column).map some

/-- A truth value: all numbers but zero are true. -/
def bool? (place : Nat) (column : String) (number : Number) : Except Unreadable Bool := do
  return (← number.integer? place column) ≠ 0

/-- The number of a truth value. -/
def ofBool (value : Bool) : Number :=
  .integer (if value then 1 else 0)

/-- The number of minutes. -/
def ofMinutes (minutes : UInt32) : Number :=
  .integer minutes.toNat

theorem bool?_ofBool (place : Nat) (column : String) (value : Bool) :
    (ofBool value).bool? place column = .ok value := by
  cases value <;> rfl

theorem minutes?_ofMinutes (place : Nat) (column : String) (minutes : UInt32) :
    (ofMinutes minutes).minutes? place column = .ok minutes := by
  have inRange : (0 : Int) ≤ minutes.toNat ∧
      (minutes.toNat : Int).toNat < Policy.Fields.numberBound :=
    ⟨Int.natCast_nonneg _, by rw [Int.toNat_natCast]; exact minutes.toNat_lt⟩
  simp only [minutes?, ofMinutes, integer?, bind, Except.bind]
  rw [if_pos inRange]
  simp [pure, Except.pure]

end Number

/-- The instant that a stored text names. -/
def storedInstant? (place : Nat) (text : String) : Except Unreadable Instant :=
  match Stamp.read text with
  | .ok stamp => .ok stamp.instant
  | .error error => .error (.badStamp place error)

/-- The instant that a stored text names, or nothing. -/
def storedInstantOrNone? (place : Nat) : Option String → Except Unreadable (Option Instant)
  | none => .ok none
  | some text => (storedInstant? place text).map some

namespace SiteRow

/-- The policy fields of a row. -/
def fields? (row : SiteRow) : Except Unreadable Policy.Fields := do
  return {
    dateStart := ← row.dateStart.minutes? 9 "date_minutes_start"
    dateEnd := ← Number.optionalMinutes? 10 "date_minutes_end" row.dateEnd
    timeStart := ← Number.optionalMinutes? 11 "allowed_time_minutes_start" row.timeStart
    timeEnd := ← Number.optionalMinutes? 12 "allowed_time_minutes_end" row.timeEnd }

/-- The policy of a row. -/
def policy? (row : SiteRow) : Except Unreadable Policy := do
  match Policy.ofFields (← row.fields?) with
  | .ok policy => return policy
  | .error flaw => throw (.unsound flaw)

/-- The site that a row stands for: its policy is looked at first, then its next run, then the other
columns in order. -/
def site? (row : SiteRow) : Except Unreadable Site := do
  let policy ← row.policy?
  let next ← storedInstantOrNone? 13 row.next
  let takeScreenshot ← row.takeScreenshot.bool? 6 "take_screenshot"
  let paused ← row.paused.bool? 7 "paused"
  let addedAt ← storedInstant? 14 row.addedAt
  return {
    id := row.id, name := row.name, url := row.url, successUrl := row.successUrl
    credentials := ⟨row.username, row.password⟩, takeScreenshot, paused, script := row.script
    policy, next, addedAt }

/-- The row with the policy fields that are given. -/
def withFields (row : SiteRow) (fields : Policy.Fields) : SiteRow :=
  { row with
    dateStart := .ofMinutes fields.dateStart
    dateEnd := fields.dateEnd.map .ofMinutes
    timeStart := fields.timeStart.map .ofMinutes
    timeEnd := fields.timeEnd.map .ofMinutes }

/-- The row with what an edit can change taken from a site. -/
def withEdit (row : SiteRow) (site : Site) : SiteRow :=
  { row with
    name := site.name, url := site.url, successUrl := site.successUrl
    username := site.credentials.username, password := site.credentials.password
    takeScreenshot := .ofBool site.takeScreenshot, script := site.script }.withFields
    site.policy.fields

/-- The row of a new site, which is due at once unless it is paused. -/
def ofNew (id : Int) (now : Instant) (new : NewSite) : SiteRow :=
  { id, name := new.name, url := new.url, successUrl := new.successUrl
    username := new.credentials.username, password := new.credentials.password
    takeScreenshot := .ofBool new.takeScreenshot, paused := .ofBool new.paused
    script := new.script, dateStart := .ofMinutes new.policy.fields.dateStart
    dateEnd := new.policy.fields.dateEnd.map .ofMinutes
    timeStart := new.policy.fields.timeStart.map .ofMinutes
    timeEnd := new.policy.fields.timeEnd.map .ofMinutes
    next := if new.paused then none else some (millisText now)
    addedAt := millisText now }

end SiteRow

namespace HistoryRow

/-- Whether the row is that of an attempt that is not over. -/
def isOpen (row : HistoryRow) : Bool :=
  row.status = ActionStatus.inProgress.code

/-- The stage of a row. -/
def status? (row : HistoryRow) : Except Unreadable ActionStatus :=
  match ActionStatus.ofCode? row.status with
  | some status => .ok status
  | none => .error (.unknownCode 4 "status" row.status)

/-- The failure of a row, if there is one. -/
def failure? (row : HistoryRow) : Except Unreadable (Option LoginStatus) :=
  match row.failure with
  | none => .ok none
  | some code =>
    match LoginStatus.ofCode? code with
    | some status => .ok (some status)
    | none => .error (.unknownCode 5 "failure" code)

/-- The entry that a row stands for: its codes are looked at first, then its instants. -/
def history? (row : HistoryRow) : Except Unreadable History := do
  let status ← row.status?
  let failure ← row.failure?
  let started ← storedInstant? 2 row.started
  let ended ← storedInstantOrNone? 3 row.ended
  return {
    id := row.id, siteId := row.siteId, started, ended, status, failure
    message := row.message, screenshotId := row.screenshotId }

/-- The row of a new entry. -/
def ofNew (id siteId : Int) (new : NewHistory) : HistoryRow :=
  { id, siteId, started := millisText new.started, ended := new.ended.map millisText
    status := new.status.code, failure := new.failure.map (·.code)
    message := new.message, screenshotId := new.screenshotId }

/-- The row after it is finished; a picture that it has is kept unless another one is given. -/
def finished (row : HistoryRow) (now : Instant) (finish : Finish) : HistoryRow :=
  { row with
    ended := some (millisText now), status := finish.status.code
    failure := finish.failure.map (·.code), message := finish.message
    screenshotId := finish.screenshotId <|> row.screenshotId }

end HistoryRow

end KeepAlive
