import KeepAlive.Jobs.Ending
import KeepAlive.Jobs.Table

/-!
# Trials of the job table

A trial runs the job table with bodies that hold for a given time and end in a given way, and keeps a
log of what starts and ends when.  The time of a trial is counted in milliseconds; the clock by which
jobs are due is another one.
-/

namespace KeepAlive

open Time

/-- What the body of a site does in a trial. -/
structure TrialBody where
  hold : Nat := 0
  ending : Ending := .done
  deriving Repr

/-- What a trial notes. -/
inductive TrialNote
  | run
  | ended
  | missed (due : Instant)
  deriving DecidableEq, Repr

/-- An entry of the log of a trial. -/
structure TrialEntry where
  time : Nat
  site : Int
  note : TrialNote
  deriving DecidableEq, Repr

/-- The state of a trial.  Log and faults are in the order in which they came. -/
structure Trial where
  bodies : Int → TrialBody
  jobs : Jobs
  /-- The sites whose bodies hold, with the times at which they end, in the order of their starts. -/
  holding : List (Int × Nat) := []
  log : List TrialEntry := []
  faults : List (Int × String) := []
  /-- Whether there is somebody to whom faults can be told. -/
  heard : Bool := true
  mostActive : Nat := 0

namespace Trial

/-- The trial with one more entry in its log. -/
def noted (trial : Trial) (time : Nat) (site : Int) (note : TrialNote) : Trial :=
  { trial with log := trial.log ++ [⟨time, site, note⟩] }

/-- The body of a site ends. -/
def ended (trial : Trial) (time : Nat) (site : Int) : Trial :=
  let told := match (trial.bodies site).ending.fault? with
    | some reason => if trial.heard then [(site, reason)] else []
    | none => []
  { trial.noted time site .ended with
    jobs := trial.jobs.finish site, faults := trial.faults ++ told }

/-- A job starts: a missed one is over at once, and so is a body that does not hold. -/
def begun (trial : Trial) (time : Nat) (start : Start) : Trial :=
  match start.work with
  | .missed =>
    { trial.noted time start.site (.missed start.due) with jobs := trial.jobs.finish start.site }
  | .run =>
    let running := { trial.noted time start.site .run with
      mostActive := max trial.mostActive (trial.holding.length + 1) }
    let hold := (trial.bodies start.site).hold
    if hold = 0 then running.ended time start.site
    else { running with holding := running.holding ++ [(start.site, time + hold)] }

/-- Starts what is due, as often as there are waiting jobs. -/
def settled (now : Instant) (time : Nat) : (rounds : Nat) → Trial → Trial
  | 0, trial => trial
  | rounds + 1, trial =>
    let (jobs, starts) := trial.jobs.fire now
    if starts.isEmpty then trial
    else settled now time rounds (starts.foldl (begun · time) { trial with jobs })

/-- Everything at one time. -/
def settle (trial : Trial) (now : Instant) (time : Nat) : Trial :=
  settled now time trial.jobs.waiting.length trial

/-- The holding body that ends first, if one ends before the limit. -/
def nextEnd? (trial : Trial) (limit : Nat) : Option (Int × Nat) :=
  ((trial.holding.mergeSort fun a b => a.2 ≤ b.2).head?).filter fun (_, time) => time < limit

/-- Lets time pass until the limit, through at most so many ends of bodies. -/
def passed (now : Instant) (limit : Nat) : (ends : Nat) → Trial → Trial
  | 0, trial => trial
  | ends + 1, trial =>
    match trial.nextEnd? limit with
    | none => trial
    | some (site, time) =>
      let rest := trial.holding.filter fun (other, _) => other ≠ site
      passed now limit ends ((({ trial with holding := rest }).ended time site).settle now time)

/-- Lets time pass until the limit.  Each end of a body uses up a waiting job or a holding one. -/
def pass (trial : Trial) (now : Instant) (limit : Nat) : Trial :=
  passed now limit (trial.jobs.waiting.length + trial.holding.length) trial

end Trial

end KeepAlive
