import KeepAlive.Engine.Attempt

/-!
# The engine

The engine runs attempts by the job table and keeps the table in step with the store.  Its parts talk
through queues: a follower reads the feed and sends orders to the table, attempts tell that they are
over, and a reconciler gives broken attempts their terminal entry.  Each function here is one step of
one part; they may come in any order.
-/

namespace KeepAlive

open Browser Time

/-- The follower of a feed. -/
structure Follower where
  /-- How many events it has had. -/
  seen : Nat
  /-- When it next goes through all sites. -/
  nextResync : Nat
  /-- The sites as they were when it began to go through them. -/
  snapshot : Option (List Site) := none
  /-- The waiting jobs that it was told of since. -/
  report : Option Slots := none

/-- The state of an engine. -/
structure Engine where
  jobs : Jobs
  /-- The orders that the table has not yet carried out, in order. -/
  orders : List Order := []
  follower : Option Follower := none
  attempts : List Attempt := []
  /-- The sites whose attempts are over, as far as the table does not yet know. -/
  freed : List Int := []
  /-- The broken attempts that are not yet reconciled. -/
  faults : List Ledger.Fault := []

namespace Engine

variable {σ : Type}

/-- The engine with one more order on its way. -/
def ordered (engine : Engine) (orders : List Order) : Engine :=
  { engine with orders := engine.orders ++ orders }

/-- The table carries out the first order. -/
def obey (engine : Engine) : Engine :=
  match engine.orders with
  | [] => engine
  | order :: rest =>
    let told := match order, engine.follower with
      | .report, some follower => some { follower with report := some engine.jobs.pending }
      | _, follower => follower
    { engine with jobs := engine.jobs.obey order, orders := rest, follower := told }

/-- The table learns that an attempt is over. -/
def learn (engine : Engine) : Engine :=
  match engine.freed with
  | [] => engine
  | site :: rest => { engine with jobs := engine.jobs.finish site, freed := rest }

/-- The table starts the attempts that are due. -/
def fire (engine : Engine) (now : Instant) (time : Nat) : Engine :=
  let (jobs, starts) := engine.jobs.fire now
  { engine with
    jobs, attempts := engine.attempts ++ starts.map (Attempt.ofStart now time) }

/-- The order that brings the table in step with a site. -/
def orderFor (site : Site) : Option Order :=
  if site.paused then some (.remove site.id) else site.next.map (.install site.id)

/-- The order that brings the table in step with the store about one site.  A site that cannot be
read is left alone. -/
def syncOrder (ledger : Ledger) (siteId : Int) : Option Order :=
  match ledger.site siteId with
  | .ok site => orderFor site
  | .error (.siteNotFound _) => some (.remove siteId)
  | .error _ => none

/-- The order that follows from an event. -/
def orderAfter (ledger : Ledger) (event : Event) : Option Order :=
  match event with
  | .siteDeleted siteId | .sitePaused siteId true => some (.remove siteId)
  | _ => syncOrder ledger event.siteId

/-- The follower begins to go through all sites: it looks at them and asks which jobs wait. -/
def beginResync (engine : Engine) (follower : Follower) (ledger : Ledger) : Engine :=
  match ledger.allSites with
  | .error _ => { engine with follower := some follower }
  | .ok sites =>
    { engine with follower := some { follower with snapshot := some sites } }.ordered [.report]

/-- The orders that bring the table in step with the sites as they were. -/
def resyncOrders (sites : List Site) (waiting : Slots) : List Order :=
  let gone := waiting.filter fun (id, _) => !sites.any (·.id = id)
  gone.map (fun (id, _) => .remove id) ++ sites.filterMap orderFor

/-- The follower has been told which jobs wait and sends its orders. -/
def endResync (engine : Engine) : Engine :=
  match engine.follower with
  | some { snapshot := some sites, report := some waiting, seen, nextResync } =>
    { engine with follower := some { seen, nextResync } }.ordered (resyncOrders sites waiting)
  | _ => engine

/-- The follower takes the next event.  If it has missed some it goes through all sites. -/
def follow (engine : Engine) (store : Store) : Engine :=
  match engine.follower with
  | none => engine
  | some follower =>
    let (reading, seen) := store.feed.read follower.seen
    let after := { follower with seen }
    match reading with
    | .event event =>
      { engine with follower := some after }.ordered (orderAfter store.ledger event).toList
    | .lagged _ => engine.beginResync after store.ledger
    | .empty | .closed => engine

/-- The milliseconds between two rounds of the follower through all sites. -/
def resyncInterval : Nat := 30000

/-- The time has come for the follower to go through all sites. -/
def resync (engine : Engine) (ledger : Ledger) : Engine :=
  match engine.follower with
  | none => engine
  | some follower =>
    engine.beginResync
      { follower with nextResync := follower.nextResync + resyncInterval } ledger

/-- The engine after an attempt has ended. -/
def ended (engine : Engine) (attempt : Attempt) (ending : Ending) : Engine :=
  let faults := match ending.fault? with
    | none => []
    | some reason => [⟨attempt.site, attempt.started, reason⟩]
  { engine with freed := engine.freed ++ [attempt.site], faults := engine.faults ++ faults }

/-- The attempt at a place goes through one stage. -/
def proceed (engine : Engine) (supply : Supply σ) (around : Surroundings σ) (place : Nat) :
    Engine × Surroundings σ :=
  match engine.attempts[place]? with
  | none => (engine, around)
  | some attempt =>
    let (outlook, after) := attempt.stage.step supply attempt.site attempt.started around
    match outlook with
    | .next stage wakes =>
      ({ engine with attempts := engine.attempts.set place { attempt with stage, wakes } }, after)
    | .closed ending =>
      ({ engine with attempts := engine.attempts.eraseIdx place }.ended attempt ending, after)

/-- The reconciler deals with the first broken attempt.  What the store refuses is given up. -/
def reconcile (engine : Engine) (moment : Moment) (store : Store) : Engine × Store :=
  match engine.faults with
  | [] => (engine, store)
  | fault :: rest =>
    ({ engine with faults := rest }, (store.perform (·.reconcile moment fault)).2)

end Engine

end KeepAlive
