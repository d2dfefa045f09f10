import KeepAlive.Jobs.Ending
import KeepAlive.Jobs.Table
import KeepAlive.Store

/-!
# Scheduled attempts

A scheduled attempt goes through stages: it loads its site, enters a row into the history, logs in,
finishes the row, loads the site again and notes the result.  Each stage touches the store at most
once, and other things may happen between two of them.
-/

namespace KeepAlive

open Browser Time

/-- What attempts work on: the store, a browser and the notes of results, latest first, at a time in
milliseconds. -/
structure Surroundings (σ : Type) where
  store : Store
  browser : σ
  notes : List (Site × History) := []
  time : Nat

/-- What attempts are given from outside. -/
structure Supply (σ : Type) where
  server : Server σ
  timing : Login.Timing
  moment : Moment
  /-- A name that no picture has yet. -/
  picture : String

/-- What an attempt does next. -/
inductive Stage
  /-- The job was too late: the site gets a new next run instead. -/
  | missed
  | load
  | enter (site : Site)
  | login (site : Site) (entry : Int) (rest : Dialogue (Except Stop Login.Outcome))
  | finish (site : Site) (entry : Int) (outcome : Login.Outcome)
  | reload (site : Site) (finished : History)
  | note (site : Site) (finished : History)

/-- What follows a stage. -/
inductive Outlook
  /-- The next stage, not before a time. -/
  | next (stage : Stage) (wakes : Nat)
  | closed (ending : Ending)

namespace Stage

variable {σ : Type}

/-- The end of an attempt that an operation on the store refuses. -/
def refused (refusal : Refusal) : Outlook :=
  .closed (.failed refusal.reasons)

/-- What a site that was loaded is good for. -/
def loaded : Except Refusal Site → Stage ⊕ Ending
  | .ok site => if site.paused then .inr .done else .inl (.enter site)
  | .error (.siteNotFound _) => .inr .done
  | .error refusal => .inr (.failed refusal.reasons)

/-- The login of an attempt up to its next pause. -/
def loggedIn (supply : Supply σ) (around : Surroundings σ) (site : Site) (entry : Int)
    (rest : Dialogue (Except Stop Login.Outcome)) : Outlook × Surroundings σ :=
  let (progress, browser) := rest.toPause supply.server around.browser around.time
  let after := { around with browser }
  match progress with
  | .paused milliseconds rest =>
    (.next (.login site entry rest) (around.time + milliseconds), after)
  | .finished (.ok outcome) => (.next (.finish site entry outcome) around.time, after)
  | .finished (.error (.crashed reason)) => (.closed (.crashed reason), after)
  | .finished (.error (.refused refusal)) => (.closed (.failed [refusal.message]), after)

/-- One stage of the attempt of a site that started at an instant. -/
def step (supply : Supply σ) (siteId : Int) (started : Instant) (around : Surroundings σ) :
    Stage → Outlook × Surroundings σ
  | missed =>
    let (_, store) := around.store.perform (·.reschedule supply.moment siteId)
    (.closed .done, { around with store })
  | load =>
    match loaded (around.store.ledger.site siteId) with
    | .inl stage => (.next stage around.time, around)
    | .inr ending => (.closed ending, around)
  | enter site =>
    let picture := if site.takeScreenshot then some supply.picture else none
    let (result, store) := around.store.perform
      (·.insertHistory supply.moment siteId (.inProgress started picture))
    match result with
    | .error refusal => (refused refusal, around)
    | .ok entry =>
      let rest := (Login.login supply.timing (site.request picture)).caught
      (.next (.login site entry.id rest) around.time, { around with store })
  | login site entry rest => loggedIn supply around site entry rest
  | finish site entry outcome =>
    let (result, store) := around.store.perform
      (·.finishHistory supply.moment entry (.ofOutcome outcome.status outcome.message none))
    match result with
    | .error refusal => (refused refusal, around)
    | .ok finished => (.next (.reload site finished) around.time, { around with store })
  | reload site finished =>
    let latest := match around.store.ledger.site siteId with
      | .ok latest => latest
      | .error _ => site
    (.next (.note latest finished) around.time, around)
  | note site finished =>
    (.closed .done, { around with notes := (site, finished) :: around.notes })

end Stage

/-- A scheduled attempt under way. -/
structure Attempt where
  site : Int
  started : Instant
  stage : Stage
  /-- The time from which on it goes on. -/
  wakes : Nat

/-- The attempt that a job starts. -/
def Attempt.ofStart (now : Instant) (time : Nat) (start : Start) : Attempt :=
  { site := start.site, started := now, wakes := time
    stage := match start.work with
      | .run => .load
      | .missed => .missed }

end KeepAlive
