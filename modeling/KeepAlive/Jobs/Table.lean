import KeepAlive.Jobs.Slots

/-!
# The job table

At most one job per site waits for its time.  When it is due, its body is started; while the body is
running the site starts no other one, and an instant that a running or finished body has covered is
not installed again.
-/

namespace KeepAlive

open Time

/-- The job table. -/
structure Jobs where
  /-- How late a job may start, in seconds; later ones count as missed. -/
  grace : Nat
  /-- The instants for which sites wait. -/
  waiting : Slots := []
  /-- The instants for which sites have a body running. -/
  running : Slots := []
  /-- The instants of the last finished bodies. -/
  covered : Slots := []
  deriving DecidableEq, Repr

/-- What starts when a job is due. -/
inductive Work
  | run
  /-- The job is too late. -/
  | missed
  deriving DecidableEq, Repr

/-- The start of a body. -/
structure Start where
  site : Int
  due : Instant
  work : Work
  deriving DecidableEq, Repr

namespace Jobs

/-- The most seconds that a span of time can have. -/
def longestSpan : Nat := 9223372036854775

/-- A hundred years, in seconds: what counts for a span that is too long. -/
def century : Nat := 36500 * 86400

/-- How late a job may start, in nanoseconds. -/
def lateness (jobs : Jobs) : Nat :=
  (if jobs.grace ≤ longestSpan then jobs.grace else century) * nanosPerSecond

/-- Whether an instant is not after the one in a slot, if there is one. -/
def isCovered (slots : Slots) (site : Int) (due : Instant) : Bool :=
  (slots.get? site).any fun instant => due.isUpTo instant

/-- Whether an instant may not be installed: a body that runs or has run covers it. -/
def refuses (jobs : Jobs) (site : Int) (due : Instant) : Bool :=
  isCovered jobs.running site due || isCovered jobs.covered site due

/-- Installs a job, in place of the one the site has. -/
def install (jobs : Jobs) (site : Int) (due : Instant) : Jobs :=
  if jobs.refuses site due then jobs
  else { jobs with waiting := jobs.waiting.insert site due }

/-- Removes the job of a site and forgets what its bodies have covered.  A running body goes on. -/
def remove (jobs : Jobs) (site : Int) : Jobs :=
  { jobs with covered := jobs.covered.erase site, waiting := jobs.waiting.erase site }

/-- Takes note of the end of a body. -/
def finish (jobs : Jobs) (site : Int) : Jobs :=
  match jobs.running.get? site with
  | none => jobs
  | some due =>
    { jobs with running := jobs.running.erase site, covered := jobs.covered.insert site due }

/-- The waiting jobs, the soonest first. -/
def pending (jobs : Jobs) : Slots :=
  jobs.waiting.soonestFirst

/-- The jobs that are due and whose sites have no body running. -/
def due (jobs : Jobs) (now : Instant) : Slots :=
  jobs.pending.filter fun (site, instant) =>
    instant.isUpTo now && (jobs.running.get? site).isNone

/-- What a job that is due starts. -/
def workAt (jobs : Jobs) (now due : Instant) : Work :=
  if jobs.lateness < now.toNanos - due.toNanos then .missed else .run

/-- The table with one job started. -/
def started (jobs : Jobs) (site : Int) (due : Instant) : Jobs :=
  { jobs with waiting := jobs.waiting.erase site, running := jobs.running.insert site due }

/-- Starts all jobs that are due. -/
def fire (jobs : Jobs) (now : Instant) : Jobs × List Start :=
  let due := jobs.due now
  (due.foldl (fun jobs (site, instant) => jobs.started site instant) jobs,
    due.map fun (site, instant) => ⟨site, instant, jobs.workAt now instant⟩)

end Jobs

/-- What can be asked of a job table from elsewhere. -/
inductive Order
  | install (site : Int) (due : Instant)
  | remove (site : Int)
  /-- Tell which jobs wait. -/
  | report
  deriving DecidableEq, Repr

/-- Carries out an order. -/
def Jobs.obey (jobs : Jobs) : Order → Jobs
  | .install site due => jobs.install site due
  | .remove site => jobs.remove site
  | .report => jobs

end KeepAlive
