import KeepAlive.Engine.Recovery

/-!
# Workshops

A workshop is a store with the engines that work on it.  Its engines do what there is to do at one
time, in a fixed order, before time goes on to the next thing that is due.
-/

namespace KeepAlive

open Browser Time

/-- Something that an engine can do. -/
inductive Chore
  | endResync
  | obey
  | fire
  | resync
  | proceed (place : Nat)
  | follow
  | learn
  | reconcile
  deriving DecidableEq, Repr

namespace Engine

variable {σ : Type}

/-- Whether the follower is not in the middle of its round through all sites. -/
def isIdle (follower : Follower) : Bool :=
  follower.snapshot.isNone

/-- Whether there is something for the follower to read. -/
def hasNews (follower : Follower) (feed : Feed) : Bool :=
  match (feed.read follower.seen).1 with
  | .event _ | .lagged _ => true
  | .empty | .closed => false

/-- The first thing that an engine can do. -/
def chore? (engine : Engine) (feed : Feed) (now : Instant) (time : Nat) : Option Chore :=
  if engine.follower.any (·.report.isSome) then some .endResync
  else if !engine.orders.isEmpty then some .obey
  else if !(engine.jobs.due now).isEmpty then some .fire
  else if engine.follower.any fun f => isIdle f && f.nextResync ≤ time then some .resync
  else
    match engine.attempts.findIdx? (·.wakes ≤ time) with
    | some place => some (.proceed place)
    | none =>
      if engine.follower.any fun f => isIdle f && hasNews f feed then some .follow
      else if !engine.freed.isEmpty then some .learn
      else if !engine.faults.isEmpty then some .reconcile
      else none

/-- Does something. -/
def perform (engine : Engine) (supply : Supply σ) (around : Surroundings σ) :
    Chore → Engine × Surroundings σ
  | .endResync => (engine.endResync, around)
  | .obey => (engine.obey, around)
  | .fire => (engine.fire supply.moment.now around.time, around)
  | .resync => (engine.resync around.store.ledger, around)
  | .proceed place => engine.proceed supply around place
  | .follow => (engine.follow around.store, around)
  | .learn => (engine.learn, around)
  | .reconcile =>
    let (engine, store) := engine.reconcile supply.moment around.store
    (engine, { around with store })

/-- The times at which an engine has something to do. -/
def times (engine : Engine) : List Nat :=
  (engine.follower.map (·.nextResync)).toList ++ engine.attempts.map (·.wakes)

end Engine

/-- A store with its engines.  An engine from before the store was opened again has a feed of its
own, to which nobody else listens. -/
structure Workshop (σ : Type) where
  around : Surroundings σ
  engines : List (Option Feed × Engine) := []

namespace Workshop

variable {σ : Type}

/-- The feed that an engine reads and writes. -/
def feedOf (workshop : Workshop σ) (own : Option Feed) : Feed :=
  own.getD workshop.around.store.feed

/-- What the first engine that can do something can do, with its place. -/
def chore? (workshop : Workshop σ) (now : Instant) : Option (Nat × Chore) :=
  workshop.engines.zipIdx.findSome? fun ((own, engine), place) =>
    (engine.chore? (workshop.feedOf own) now workshop.around.time).map (place, ·)

/-- One engine does something. -/
def perform (workshop : Workshop σ) (supply : Supply σ) (place : Nat) (chore : Chore) :
    Workshop σ :=
  match workshop.engines[place]? with
  | none => workshop
  | some (none, engine) =>
    let (engine, around) := engine.perform supply workshop.around chore
    { around, engines := workshop.engines.set place (none, engine) }
  | some (some own, engine) =>
    let feed := workshop.around.store.feed
    let inner := { workshop.around with store := { workshop.around.store with feed := own } }
    let (engine, after) := engine.perform supply inner chore
    { around := { after with store := { after.store with feed } }
      engines := workshop.engines.set place (some after.store.feed, engine) }

/-- The next time before the limit at which an engine has something to do. -/
def nextTime? (workshop : Workshop σ) (limit : Nat) : Option Nat :=
  ((workshop.engines.flatMap fun (_, engine) => engine.times).filter fun time =>
    workshop.around.time < time && time < limit).min?

/-- The workshop at another time. -/
def atTime (workshop : Workshop σ) (time : Nat) : Workshop σ :=
  { workshop with around := { workshop.around with time } }

/-- Does everything that is due before the limit, in at most so many steps. -/
def worked (supply : Supply σ) (limit : Nat) : (steps : Nat) → Workshop σ → Workshop σ
  | 0, workshop => workshop
  | steps + 1, workshop =>
    match workshop.chore? supply.moment.now with
    | some (place, chore) => worked supply limit steps (workshop.perform supply place chore)
    | none =>
      match workshop.nextTime? limit with
      | some time => worked supply limit steps (workshop.atTime time)
      | none => workshop

/-- Lets time pass until the limit. -/
def pass (workshop : Workshop σ) (supply : Supply σ) (steps limit : Nat) : Workshop σ :=
  (worked supply limit steps workshop).atTime limit

/-- Performs an operation on the store. -/
def operate {α : Type} (workshop : Workshop σ)
    (operation : Ledger → Except Refusal (Change α)) : Except Refusal α × Workshop σ :=
  let (result, store) := workshop.around.store.perform operation
  (result, { workshop with around := { workshop.around with store } })

/-- The engines when the first of them no longer takes orders from outside.  It goes on if it follows
the feed; else only its attempts do. -/
def retired : List (Option Feed × Engine) → List (Option Feed × Engine)
  | [] => []
  | (own, engine) :: rest =>
    (own, if engine.follower.isSome then engine
      else { engine with jobs := { engine.jobs with waiting := [] }, orders := [] }) :: rest

/-- Puts a new engine at work, which neither recovers nor follows the feed. -/
def withEngine (workshop : Workshop σ) (grace : Nat) : Workshop σ :=
  { workshop with engines := (none, { jobs := { grace } }) :: retired workshop.engines }

/-- Gives orders to the engine at work. -/
def ordered (workshop : Workshop σ) (orders : List Order) : Workshop σ :=
  match workshop.engines with
  | [] => workshop
  | (own, engine) :: rest =>
    { workshop with engines := (own, engine.ordered orders) :: rest }

/-- The jobs that wait at the engine at work. -/
def pending (workshop : Workshop σ) : Slots :=
  match workshop.engines with
  | [] => []
  | (_, engine) :: _ => (engine.orders.foldl Jobs.obey engine.jobs).pending

/-- Recovers the store and hands the jobs to the engine at work. -/
def recover (workshop : Workshop σ) (moment : Moment) (moments : Int → Moment) (grace : Nat) :
    Except RecoveryError Nat × Workshop σ :=
  let recovery := Recovery.ofStore workshop.around.store moment moments grace
  (recovery.result,
    { workshop with around := { workshop.around with store := recovery.store } }.ordered
      recovery.orders)

/-- Starts an engine that has recovered the store and follows its feed. -/
def start (workshop : Workshop σ) (moment : Moment) (moments : Int → Moment) (grace : Nat) :
    Except RecoveryError Unit × Workshop σ :=
  let recovery := Recovery.ofStore workshop.around.store moment moments grace
  let after := { workshop with around := { workshop.around with store := recovery.store } }
  match recovery.error with
  | some error => (.error error, after)
  | none =>
    let follower : Follower := {
      seen := workshop.around.store.feed.sent
      nextResync := workshop.around.time + Engine.resyncInterval }
    let engine : Engine := { jobs := { grace }, follower := some follower }
    (.ok (), { after with
      engines := (none, engine.ordered recovery.orders) :: retired workshop.engines })

/-- Opens the store again, with a new feed.  Its engines go on with the old one. -/
def reopened (workshop : Workshop σ) (feed : Feed) : Workshop σ :=
  let old := workshop.around.store.feed
  { around := { workshop.around with store := { workshop.around.store with feed } }
    engines := (retired workshop.engines).map fun (own, engine) => (some (own.getD old), engine) }

end Workshop

end KeepAlive
