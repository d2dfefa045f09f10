import KeepAlive.Engine.Workshop
import KeepAlive.Proofs.Feed.Announced

/-!
# Courses of an engine

A course begins when an engine is started on a store.  From then on operations on the store, the
steps of the engine's parts and breaks of its attempts may come in any order, and time passes between
them.  Every step that looks at the clock sees it at least a millisecond after the step before.
-/

namespace KeepAlive

open Browser Time

/-- An answer of the store that is no complaint about a row that cannot be read. -/
def IsReadable {α : Type} (answer : Except Refusal α) : Prop :=
  ∀ cause, answer ≠ .error (.unreadable cause)

namespace Engine

variable {σ : Type}

/-- Whether a chore may be done: the follower takes nothing new while it goes through all sites. -/
def Allows (engine : Engine) : Chore → Prop
  | .follow | .resync => ∀ follower, engine.follower = some follower → isIdle follower = true
  | _ => True

/-- No call to the store that a chore needs meets a row that cannot be read. -/
def Reads (engine : Engine) (supply : Supply σ) (around : Surroundings σ) : Chore → Prop
  | .follow => ∀ follower, engine.follower = some follower →
    match (around.store.feed.read follower.seen).1 with
    | .event event => event.IsWithdrawal ∨ IsReadable (around.store.ledger.site event.siteId)
    | .lagged _ => IsReadable around.store.ledger.allSites
    | .empty | .closed => True
  | .resync => IsReadable around.store.ledger.allSites
  | .proceed place => ∀ attempt, engine.attempts[place]? = some attempt →
    attempt.stage = .missed →
      IsReadable (around.store.perform (·.reschedule supply.moment attempt.site)).1
  | .reconcile => ∀ fault, engine.faults.head? = some fault →
    IsReadable (around.store.perform (·.reconcile supply.moment fault)).1
  | _ => True

/-- The engine after the attempt at a place has broken off. -/
def broken (engine : Engine) (place : Nat) (ending : Ending) : Engine :=
  match engine.attempts[place]? with
  | none => engine
  | some attempt =>
    { engine with attempts := engine.attempts.eraseIdx place }.ended attempt ending

/-- Neither the table nor the follower knows of an attempt that breaks off. -/
theorem broken_same (engine : Engine) (place : Nat) (ending : Ending) :
    (engine.broken place ending).jobs = engine.jobs ∧
      (engine.broken place ending).orders = engine.orders ∧
      (engine.broken place ending).follower = engine.follower := by
  unfold broken
  split <;> exact ⟨rfl, rfl, rfl⟩

/-- What an engine and its surroundings can come to, and the last reading of the clock.  The store
comes about by operations before the engine is started on it, and nobody else writes to it. -/
inductive Course (offset : Int) : Instant → Engine → Surroundings σ → Prop
  | started {around after : Surroundings σ} {engine : Engine} {moment : Moment}
      {moments : Int → Moment} {grace : Nat} (hstore : around.store.Arises offset)
      (hat : moment.IsAt offset) (hats : ∀ siteId, (moments siteId).IsAt offset)
      (hstart : Workshop.start ⟨around, []⟩ moment moments grace =
        (.ok (), ⟨after, [(none, engine)]⟩)) :
      Course offset moment.now engine after
  /-- Somebody asks something of the store. -/
  | operated {clock : Instant} {engine : Engine} {around : Surroundings σ}
      (h : Course offset clock engine around) (operation : Operation)
      (hahead : operation.IsAhead) (moment : Moment) (hat : moment.IsAt offset)
      (hticks : clock.Ticks moment.now) :
      Course offset moment.now engine
        { around with store := operation.applied moment around.store }
  /-- A part of the engine goes on. -/
  | performed {clock : Instant} {engine : Engine} {around : Surroundings σ}
      (h : Course offset clock engine around) (chore : Chore) (supply : Supply σ)
      (hat : supply.moment.IsAt offset) (hticks : clock.Ticks supply.moment.now)
      (hallowed : engine.Allows chore) (hreads : engine.Reads supply around chore) :
      Course offset supply.moment.now (engine.perform supply around chore).1
        (engine.perform supply around chore).2
  /-- An attempt fails or crashes in the middle of a stage. -/
  | broke {clock : Instant} {engine : Engine} {around : Surroundings σ}
      (h : Course offset clock engine around) {place : Nat} {attempt : Attempt}
      (hattempt : engine.attempts[place]? = some attempt) (hstage : attempt.stage ≠ .missed)
      (ending : Ending) (hending : ending.fault? ≠ none) :
      Course offset clock (engine.broken place ending) around
  | passed {clock : Instant} {engine : Engine} {around : Surroundings σ}
      (h : Course offset clock engine around) (time : Nat) :
      Course offset clock engine { around with time }

/-- No event, order, fault, end or attempt is outstanding. -/
structure IsQuiet (engine : Engine) (feed : Feed) : Prop where
  orders : engine.orders = []
  attempts : engine.attempts = []
  freed : engine.freed = []
  faults : engine.faults = []
  seen : ∀ follower, engine.follower = some follower → follower.seen = feed.sent

theorem isQuiet_of_lengths {engine : Engine} {feed : Feed} (horders : engine.orders = [])
    (hattempts : engine.attempts.length = 0) (hfreed : engine.freed = [])
    (hfaults : engine.faults.length = 0)
    (hseen : engine.follower.map (·.seen) = some feed.sent) : engine.IsQuiet feed := by
  refine ⟨horders, List.length_eq_zero_iff.1 hattempts, hfreed, List.length_eq_zero_iff.1 hfaults,
    fun follower hfollower => ?_⟩
  rw [hfollower] at hseen
  exact Option.some.inj hseen

end Engine

end KeepAlive
