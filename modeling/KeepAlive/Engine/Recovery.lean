import KeepAlive.Engine.Step
import KeepAlive.Time.Civil

/-!
# Recovery

When an engine starts, attempts that were left open are failed and every site that is not paused gets
its job.  A next run that is older than the grace is drawn anew.
-/

namespace KeepAlive

open Time

/-- Why a recovery breaks off. -/
inductive RecoveryError
  | refused (refusal : Refusal)
  | graceTooLong
  /-- There is no date so long ago. -/
  | beyondCalendar
  deriving DecidableEq, Repr

/-- The sentence for a recovery that breaks off. -/
def RecoveryError.message : RecoveryError → String
  | refused refusal => refusal.message
  | graceTooLong => "Source duration value is out of range for the target type"
  | beyondCalendar => "`DateTime - TimeDelta` overflowed"

/-- How far a recovery has come. -/
structure Recovery where
  store : Store
  orders : List Order := []
  installed : Nat := 0
  error : Option RecoveryError := none

namespace Recovery

/-- What is noted about an attempt that was left open. -/
def interrupted : String :=
  "Attempt interrupted by a restart"

/-- The first second of the calendar. -/
def calendarStart : Int :=
  Date.toDays ⟨-262143, 1, 1⟩ * secondsPerDay

/-- The instant before which a next run is too old. -/
def cutoff (now : Instant) (grace : Nat) : Except RecoveryError Instant :=
  if Jobs.longestSpan < grace then .error .graceTooLong
  else
    let cut := { now with second := now.second - grace }
    if cut.second < calendarStart then .error .beyondCalendar else .ok cut

/-- The site with a next run that is not too old. -/
def refreshed (store : Store) (moment : Moment) (cut : Instant) (site : Site) :
    Except Refusal Site × Store :=
  if site.next.any (·.isBefore cut) then store.perform (·.reschedule moment site.id)
  else (.ok site, store)

/-- One site's turn. -/
def turn (moments : Int → Moment) (cut : Instant) (recovery : Recovery) (site : Site) : Recovery :=
  if recovery.error.isSome || site.paused then recovery
  else
    let (result, store) := refreshed recovery.store (moments site.id) cut site
    match result with
    | .error refusal => { recovery with store, error := some (.refused refusal) }
    | .ok site =>
      match site.next with
      | none => { recovery with store }
      | some next =>
        { recovery with
          store, orders := recovery.orders ++ [.install site.id next]
          installed := recovery.installed + 1 }

/-- Recovers a store at a moment; each site has its turn at a moment of its own. -/
def ofStore (store : Store) (moment : Moment) (moments : Int → Moment) (grace : Nat) : Recovery :=
  let failed := store.commit (store.ledger.failStale moment.now interrupted)
  match cutoff moment.now grace with
  | .error error => { store := failed, error := some error }
  | .ok cut =>
    match failed.ledger.allSites with
    | .error refusal => { store := failed, error := some (.refused refusal) }
    | .ok sites => sites.foldl (turn moments cut) { store := failed }

/-- The number of jobs installed, unless the recovery broke off. -/
def result (recovery : Recovery) : Except RecoveryError Nat :=
  match recovery.error with
  | some error => .error error
  | none => .ok recovery.installed

end Recovery

end KeepAlive
