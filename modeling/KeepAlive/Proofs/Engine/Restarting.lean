import KeepAlive.Proofs.Engine.Course
import KeepAlive.Proofs.Engine.Lifetime
import KeepAlive.Proofs.Ledger.Writing

/-!
# What a process leaves behind

A process that works on a store may end after any change of the store, in the middle of any number
of attempts and even of the recovery with which an engine starts.  The next process opens the store
with a feed of its own and without engines.  Whatever has happened before, the ledger that it finds
is such as the library writes.
-/

namespace KeepAlive

open Time

namespace Recovery

/-- The recovery of a store after some of the sites have had their turns. -/
def partway (store : Store) (now : Instant) (moments : Int → Moment) (cut : Instant)
    (had : List Site) : Recovery :=
  had.foldl (turn moments cut) { store := store.commit (store.ledger.failStale now interrupted) }

theorem isWritten_turn {recovery : Recovery} (h : recovery.store.ledger.IsWritten)
    {moments : Int → Moment} (hnanos : ∀ siteId, (moments siteId).now.nano < nanosPerSecond)
    (cut : Instant) (site : Site) :
    (turn moments cut recovery site).store.ledger.IsWritten := by
  have hrefreshed : (refreshed recovery.store (moments site.id) cut site).2.ledger.IsWritten := by
    unfold refreshed
    split
    · cases hchange : recovery.store.ledger.reschedule (moments site.id) site.id with
      | error refusal =>
        rw [Store.perform_of_refused hchange]
        exact h
      | ok change =>
        rw [Store.perform_of_ok hchange]
        exact Ledger.isWritten_reschedule h (hnanos site.id) hchange
    · exact h
  unfold turn
  split
  · exact h
  · simp only
    split
    · exact hrefreshed
    · split <;> exact hrefreshed

theorem isWritten_partway {store : Store} (h : store.ledger.IsWritten) (now : Instant)
    {moments : Int → Moment} (hnanos : ∀ siteId, (moments siteId).now.nano < nanosPerSecond)
    (cut : Instant) (had : List Site) :
    (partway store now moments cut had).store.ledger.IsWritten := by
  have hturns (recovery : Recovery) (hrecovery : recovery.store.ledger.IsWritten) :
      (had.foldl (turn moments cut) recovery).store.ledger.IsWritten := by
    induction had generalizing recovery with
    | nil => exact hrecovery
    | cons site rest ih => exact ih _ (isWritten_turn hrecovery hnanos cut site)
  exact hturns _ (Ledger.isWritten_failStale h now interrupted)

theorem isWritten_ofStore {store : Store} (h : store.ledger.IsWritten) (moment : Moment)
    {moments : Int → Moment} (hnanos : ∀ siteId, (moments siteId).now.nano < nanosPerSecond)
    (grace : Nat) : (ofStore store moment moments grace).store.ledger.IsWritten := by
  have hnone := isWritten_partway h moment.now hnanos moment.now []
  unfold ofStore
  simp only
  split
  · exact hnone
  · rename_i cut _
    split
    · exact hnone
    · exact isWritten_partway h moment.now hnanos cut _

end Recovery

namespace Workshop

variable {σ : Type}

/-- The process has ended, and another one has opened the store. -/
def reentered (workshop : Workshop σ) (feed : Feed) : Workshop σ :=
  ⟨{ workshop.around with store := { workshop.around.store with feed } }, []⟩

/-- What a workshop can come to.  Somebody asks for operations on its store, and engines are started
on it and go on with their parts, in any order; nobody else writes to the store.  The clock never
shows a leap second. -/
inductive Course : Workshop σ → Prop
  | opened {around : Surroundings σ} (hempty : around.store.ledger = {}) : Course ⟨around, []⟩
  | operated {workshop : Workshop σ} (h : Course workshop) (operation : Operation) (moment : Moment)
      (hnano : moment.now.nano < nanosPerSecond) :
      Course { workshop with
        around := { workshop.around with
          store := operation.applied moment workshop.around.store } }
  | started {workshop : Workshop σ} (h : Course workshop) (moment : Moment) {moments : Int → Moment}
      (hnanos : ∀ siteId, (moments siteId).now.nano < nanosPerSecond) (grace : Nat) :
      Course (workshop.start moment moments grace).2
  | recovered {workshop : Workshop σ} (h : Course workshop) (moment : Moment)
      {moments : Int → Moment} (hnanos : ∀ siteId, (moments siteId).now.nano < nanosPerSecond)
      (grace : Nat) : Course ((workshop.withEngine grace).recover moment moments grace).2
  /-- A part of an engine goes on. -/
  | performed {workshop : Workshop σ} (h : Course workshop) (supply : Supply σ)
      (hnano : supply.moment.now.nano < nanosPerSecond) (place : Nat) (chore : Chore) :
      Course (workshop.perform supply place chore)
  /-- An attempt of an engine breaks off. -/
  | broke {workshop : Workshop σ} (h : Course workshop) {place : Nat} {own : Option Feed}
      {engine : Engine} (hengine : workshop.engines[place]? = some (own, engine)) (attempt : Nat)
      (ending : Ending) :
      Course { workshop with
        engines := workshop.engines.set place (own, engine.broken attempt ending) }
  | passed {workshop : Workshop σ} (h : Course workshop) (time : Nat) :
      Course (workshop.atTime time)
  | reentered {workshop : Workshop σ} (h : Course workshop) (feed : Feed) :
      Course (workshop.reentered feed)
  /-- The process ends while a recovery goes through the sites. -/
  | interrupted {workshop : Workshop σ} (h : Course workshop) {moment : Moment}
      {moments : Int → Moment} (hnanos : ∀ siteId, (moments siteId).now.nano < nanosPerSecond)
      {grace : Nat} {cut : Instant} (hcut : Recovery.cutoff moment.now grace = .ok cut)
      {had rest : List Site}
      (hsites : (Recovery.partway workshop.around.store moment.now moments cut
        []).store.ledger.allSites = .ok (had ++ rest)) (feed : Feed) :
      Course (Workshop.reentered { workshop with
        around := { workshop.around with
          store := (Recovery.partway workshop.around.store moment.now moments cut had).store } }
        feed)

theorem ledger_ordered (workshop : Workshop σ) (orders : List Order) :
    (workshop.ordered orders).around.store.ledger = workshop.around.store.ledger := by
  unfold ordered
  split <;> rfl

theorem ledger_start (workshop : Workshop σ) (moment : Moment) (moments : Int → Moment)
    (grace : Nat) :
    (workshop.start moment moments grace).2.around.store.ledger =
      (Recovery.ofStore workshop.around.store moment moments grace).store.ledger := by
  unfold start
  simp only
  split <;> rfl

/-- Whatever an engine does to the ledger of its workshop is an operation on it. -/
theorem isWritten_perform {workshop : Workshop σ} (h : workshop.around.store.ledger.IsWritten)
    {supply : Supply σ} (hnano : supply.moment.now.nano < nanosPerSecond) (place : Nat)
    (chore : Chore) : (workshop.perform supply place chore).around.store.ledger.IsWritten := by
  have hengine (engine : Engine) (around : Surroundings σ)
      (haround : around.store.ledger.IsWritten) :
      (engine.perform supply around chore).2.store.ledger.IsWritten := by
    rw [engine.store_perform supply around chore]
    cases engine.asked supply chore with
    | none => exact haround
    | some operation => exact Store.isWritten_applied haround hnano operation
  unfold perform
  split
  · exact h
  · rename_i engine _
    exact hengine engine workshop.around h
  · rename_i own engine _
    exact hengine engine _ h

/-- Whenever a process ends, it leaves a ledger such as the library writes. -/
theorem Course.isWritten {workshop : Workshop σ} (h : Course workshop) :
    workshop.around.store.ledger.IsWritten := by
  induction h with
  | opened hempty =>
    rw [hempty]
    exact .empty
  | operated _ operation moment hnano ih => exact Store.isWritten_applied ih hnano operation
  | started _ moment hnanos grace ih =>
    rw [ledger_start]
    exact Recovery.isWritten_ofStore ih moment hnanos grace
  | recovered _ moment hnanos grace ih =>
    rw [recover, ledger_ordered]
    exact Recovery.isWritten_ofStore ih moment hnanos grace
  | performed _ supply hnano place chore ih => exact isWritten_perform ih hnano place chore
  | broke _ _ attempt ending ih => exact ih
  | passed _ time ih => exact ih
  | reentered _ feed ih => exact ih
  | interrupted _ hnanos _ _ feed ih => exact Recovery.isWritten_partway ih _ hnanos _ _

end Workshop

end KeepAlive
