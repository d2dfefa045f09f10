import KeepAlive.Ledger.Basic

/-!
# Operations on the history

An attempt enters a row when it begins and finishes that row, once, when it ends.  Each of these
draws the next run of its site, and announces one event.
-/

namespace KeepAlive.Ledger

open Time

/-- Adds an entry to the history of a site and draws the site's next run. -/
def insertHistory (ledger : Ledger) (moment : Moment) (siteId : Int) (new : NewHistory) :
    Except Refusal (Change History) := do
  let site ← ledger.site siteId
  let id := nextId (ledger.history.map (·.id))
  let after := { ledger with
    history := placed (·.id) (.ofNew id siteId new) ledger.history }
  let entry ← after.entry id
  return { result := entry, ledger := after.withNext site.id (drawn site moment)
           events := [.historyLogged siteId id] }

/-- Writes the finish of an entry that is not over and draws its site's next run. -/
def finish (ledger : Ledger) (moment : Moment) (id : Int) (how : Finish) :
    Except Refusal (History × Ledger) := do
  let current ← ledger.entry id
  if current.status.isTerminal then throw (.alreadyFinished id)
  else
    let written := ledger.withHistory id (·.finished moment.now how)
    let site ← written.site current.siteId
    let after := written.withNext site.id (drawn site moment)
    return (← after.entry id, after)

/-- Finishes an entry. -/
def finishHistory (ledger : Ledger) (moment : Moment) (id : Int) (how : Finish) :
    Except Refusal (Change History) := do
  let (entry, after) ← ledger.finish moment id how
  return { result := entry, ledger := after, events := [.historyChanged entry.siteId id] }

/-- The finish of an attempt that broke off. -/
def broken (message : Option String) : Finish :=
  .ofOutcome .unknownExecutionError message none

/-- Fails the first open entry of a site that started at the given instant, to the millisecond. -/
def failInProgress (ledger : Ledger) (moment : Moment) (siteId : Int) (started : Instant)
    (message : Option String) : Except Refusal (Change (Option History)) := do
  let isMeant (row : HistoryRow) : Bool :=
    row.siteId = siteId && row.started = millisText started && row.isOpen
  match ledger.history.find? isMeant with
  | none => return { result := none, ledger, events := [] }
  | some row =>
    let (entry, after) ← ledger.finish moment row.id (broken message)
    return { result := some entry, ledger := after, events := [.historyChanged siteId row.id] }

/-- Fails every open entry, without a look at the sites. -/
def failStale (ledger : Ledger) (now : Instant) (message : String) : Change Nat :=
  let stale := ledger.history.filter (·.isOpen)
  { result := stale.length
    ledger := { ledger with
      history := ledger.history.map fun row =>
        if row.isOpen then row.finished now (broken (some message)) else row }
    events := stale.map fun row => .historyChanged row.siteId row.id }

/-- An attempt that broke off: its site, its start and why. -/
structure Fault where
  siteId : Int
  started : Instant
  reason : String
  deriving DecidableEq, Repr

/-- What is noted about an attempt that broke off. -/
def Fault.message (fault : Fault) : String :=
  "Scheduled attempt failed: " ++ fault.reason

/-- Gives a broken attempt its one terminal entry: the one it entered itself, or else a new one. -/
def reconcile (ledger : Ledger) (moment : Moment) (fault : Fault) :
    Except Refusal (Change History) := do
  let change ← ledger.failInProgress moment fault.siteId fault.started (some fault.message)
  match change.result with
  | some entry => return { change with result := entry }
  | none =>
    ledger.insertHistory moment fault.siteId
      (.crashed fault.started moment.now (some fault.message))

end KeepAlive.Ledger
