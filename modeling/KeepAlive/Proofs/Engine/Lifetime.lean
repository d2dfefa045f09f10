import KeepAlive.Engine.Workshop
import KeepAlive.Proofs.Feed.Announced
import KeepAlive.Proofs.Ledger.Entries

/-!
# The course of one attempt

An attempt goes through its stages, may break off at any point and is then reconciled.  Meanwhile
others ask for operations on the store; all that an engine does to its store is one of them.
-/

namespace KeepAlive

open Browser Time

theorem exists_ok_of_map {ε α β : Type} {answer : Except ε α} {f : α → β} {b : β}
    (h : answer.toOption.map f = some b) : ∃ a, answer = .ok a ∧ f a = b := by
  obtain ⟨a, ha, hb⟩ := Option.map_eq_some_iff.1 h
  cases answer with
  | error e => cases ha
  | ok value =>
    cases ha
    exact ⟨a, rfl, hb⟩

namespace Store

theorem perform_eq_ok {store after : Store} {α : Type}
    {operation : Ledger → Except Refusal (Change α)} {result : α}
    (h : store.perform operation = (.ok result, after)) :
    ∃ change, operation store.ledger = .ok change ∧ change.result = result ∧
      after = store.commit change := by
  cases hchange : operation store.ledger with
  | error refusal =>
    rw [perform_of_refused hchange] at h
    cases h
  | ok change =>
    rw [perform_of_ok hchange] at h
    cases h
    exact ⟨change, rfl, rfl, rfl⟩

theorem perform_eq_applied {α : Type} {asked : Ledger → Except Refusal (Change α)}
    {operation : Operation} {moment : Moment} {store : Store}
    (h : operation.change moment store.ledger = (asked store.ledger).map Change.bare) :
    (store.perform asked).2 = operation.applied moment store := by
  unfold Operation.applied
  cases hasked : asked store.ledger with
  | error refusal =>
    rw [hasked] at h
    rw [perform_of_refused hasked, perform_of_refused h]
  | ok change =>
    rw [hasked] at h
    rw [perform_of_ok hasked, perform_of_ok h]
    rfl

theorem eq_applied_of_refused {α : Type} {asked : Ledger → Except Refusal (Change α)}
    {operation : Operation} {moment : Moment} {store : Store}
    (h : operation.change moment store.ledger = (asked store.ledger).map Change.bare)
    {refusal : Refusal} (hrefused : (store.perform asked).1 = .error refusal) :
    store = operation.applied moment store := by
  rw [← perform_eq_applied h]
  cases hasked : asked store.ledger with
  | error cause => rw [perform_of_refused hasked]
  | ok change =>
    rw [perform_of_ok hasked] at hrefused
    cases hrefused

end Store

/-- How far an attempt has come. -/
inductive Phase
  | going (stage : Stage)
  /-- It has broken off and is still to be reconciled. -/
  | broken (reason : String)
  /-- It is over, and if it was reconciled, then perhaps too late: it had a finished row. -/
  | settled (late : Bool)

namespace Attempt

/-- What the attempt of a site with a start and the store can come to.  The site is there and not
paused when it is loaded, it is not deleted, and no other attempt of it has the same start. -/
inductive Course (siteId : Int) (started : Instant) : Phase → Store → Prop
  | fired {store : Store} (hkeyed : (store.ledger.history.map (·.id)).Nodup)
      (hfirst : store.ledger.rowsOf siteId started = []) :
      Course siteId started (.going .load) store
  /-- Somebody else asks something of the store. -/
  | operated {phase : Phase} {store : Store} (h : Course siteId started phase store)
      (operation : Operation) (hforeign : operation.IsForeign siteId started) (moment : Moment) :
      Course siteId started phase (operation.applied moment store)
  | proceeded {σ : Type} {supply : Supply σ} {around after : Surroundings σ} {stage next : Stage}
      {wakes : Nat} (h : Course siteId started (.going stage) around.store)
      (hstep : stage.step supply siteId started around = (.next next wakes, after)) :
      Course siteId started (.going next) after.store
  | done {σ : Type} {supply : Supply σ} {around after : Surroundings σ} {stage : Stage}
      {ending : Ending} (h : Course siteId started (.going stage) around.store)
      (hstep : stage.step supply siteId started around = (.closed ending, after))
      (hending : ending.fault? = none) (hloaded : stage ≠ .load) :
      Course siteId started (.settled false) after.store
  | failed {σ : Type} {supply : Supply σ} {around after : Surroundings σ} {stage : Stage}
      {ending : Ending} {reason : String} (h : Course siteId started (.going stage) around.store)
      (hstep : stage.step supply siteId started around = (.closed ending, after))
      (hending : ending.fault? = some reason) : Course siteId started (.broken reason) after.store
  /-- The attempt crashes before it goes on with a stage. -/
  | crashed {store : Store} {stage : Stage} (h : Course siteId started (.going stage) store)
      (reason : String) : Course siteId started (.broken reason) store
  | reconciled {store after : Store} {reason : String} {entry : History}
      (h : Course siteId started (.broken reason) store) (moment : Moment)
      (hreconcile : store.perform (·.reconcile moment ⟨siteId, started, reason⟩) =
        (.ok entry, after)) :
      Course siteId started (.settled ((store.ledger.rowsOf siteId started).any (!·.isOpen))) after

end Attempt

namespace Stage

variable {σ : Type} {supply : Supply σ} {siteId : Int} {started : Instant}
  {around after : Surroundings σ}

/-- What a stage that is followed by another has done to the store. -/
theorem step_eq_next {stage next : Stage} {wakes : Nat}
    (h : stage.step supply siteId started around = (.next next wakes, after)) :
    (stage = .load ∧ (∃ site, next = .enter site) ∧ after.store = around.store) ∨
    (∃ site entry rest picture, stage = .enter site ∧ next = .login site entry.id rest ∧
      around.store.perform
        (·.insertHistory supply.moment siteId (.inProgress started picture)) =
          (.ok entry, after.store)) ∨
    (∃ site entry rest, stage = .login site entry rest ∧
      ((∃ rest, next = .login site entry rest) ∨ ∃ outcome, next = .finish site entry outcome) ∧
      after.store = around.store) ∨
    (∃ site entry outcome finished how, stage = .finish site entry outcome ∧
      next = .reload site finished ∧ how.status.isTerminal = true ∧
      around.store.perform (·.finishHistory supply.moment entry how) =
        (.ok finished, after.store)) ∨
    ∃ site latest finished, stage = .reload site finished ∧ next = .note latest finished ∧
      after.store = around.store := by
  cases stage with
  | missed => cases h
  | load =>
    left
    simp only [step] at h
    split at h
    · rename_i loaded hloaded
      cases h
      refine ⟨rfl, ?_, rfl⟩
      unfold Stage.loaded at hloaded
      split at hloaded
      · split at hloaded
        · cases hloaded
        · exact ⟨_, (Sum.inl.inj hloaded).symm⟩
      · cases hloaded
      · cases hloaded
    · cases h
  | enter site =>
    right; left
    simp only [step] at h
    split at h
    · cases h
    · rename_i entry hentry
      cases h
      exact ⟨site, entry, _, _, rfl, rfl, Prod.ext hentry rfl⟩
  | login site entry rest =>
    right; right; left
    simp only [step, loggedIn] at h
    split at h
    · cases h
      exact ⟨site, entry, rest, rfl, Or.inl ⟨_, rfl⟩, rfl⟩
    · cases h
      exact ⟨site, entry, rest, rfl, Or.inr ⟨_, rfl⟩, rfl⟩
    · cases h
    · cases h
  | finish site entry outcome =>
    right; right; right; left
    simp only [step] at h
    split at h
    · cases h
    · rename_i finished hfinished
      cases h
      exact ⟨site, entry, outcome, finished, _, rfl, rfl, Finish.ofOutcome_isTerminal _ _ _,
        Prod.ext hfinished rfl⟩
  | reload site finished =>
    cases h
    exact Or.inr (Or.inr (Or.inr (Or.inr ⟨site, _, finished, rfl, rfl, rfl⟩)))
  | note site finished => cases h

/-- A stage that ends an attempt leaves the store alone, and without a fault it is the last one. -/
theorem step_eq_closed {stage : Stage} {ending : Ending} (hmissed : stage ≠ .missed)
    (h : stage.step supply siteId started around = (.closed ending, after)) :
    after.store = around.store ∧
      (ending.fault? = none → stage = .load ∨ ∃ site finished, stage = .note site finished) := by
  cases stage with
  | missed => exact absurd rfl hmissed
  | load =>
    simp only [step] at h
    split at h
    · cases h
    · cases h
      exact ⟨rfl, fun _ => Or.inl rfl⟩
  | enter site =>
    simp only [step] at h
    split at h
    · cases h
      exact ⟨rfl, fun hnone => by cases hnone⟩
    · cases h
  | login site entry rest =>
    simp only [step, loggedIn] at h
    split at h
    · cases h
    · cases h
    · cases h
      exact ⟨rfl, fun hnone => by cases hnone⟩
    · cases h
      exact ⟨rfl, fun hnone => by cases hnone⟩
  | finish site entry outcome =>
    simp only [step] at h
    split at h
    · cases h
      exact ⟨rfl, fun hnone => by cases hnone⟩
    · cases h
  | reload site finished => cases h
  | note site finished =>
    cases h
    exact ⟨rfl, fun _ => Or.inr ⟨site, finished, rfl⟩⟩

/-- What a stage asks of the store. -/
def asked (supply : Supply σ) (siteId : Int) (started : Instant) : Stage → Option Operation
  | missed => some (.reschedule siteId)
  | enter site =>
    some (.insertHistory siteId
      (.inProgress started (if site.takeScreenshot then some supply.picture else none)))
  | finish _ entry outcome =>
    some (.finishHistory entry (.ofOutcome outcome.status outcome.message none))
  | _ => none

/-- Whatever a stage does to the store is the operation that it asks for. -/
theorem store_step (supply : Supply σ) (siteId : Int) (started : Instant) (around : Surroundings σ)
    (stage : Stage) :
    (stage.step supply siteId started around).2.store =
      (stage.asked supply siteId started).elim around.store
        (·.applied supply.moment around.store) := by
  cases stage with
  | missed =>
    have hperform : (around.store.perform (·.reschedule supply.moment siteId)).2 =
        (Operation.reschedule siteId).applied supply.moment around.store :=
      Store.perform_eq_applied rfl
    exact hperform
  | load =>
    simp only [step]
    split <;> rfl
  | enter site =>
    simp only [step, asked, Option.elim_some]
    generalize (if site.takeScreenshot then some supply.picture else none) = picture
    split
    · rename_i hrefused
      exact Store.eq_applied_of_refused rfl hrefused
    · exact Store.perform_eq_applied rfl
  | login site entry rest =>
    simp only [step, loggedIn]
    split <;> rfl
  | finish site entry outcome =>
    simp only [step, asked, Option.elim_some]
    split
    · rename_i hrefused
      exact Store.eq_applied_of_refused rfl hrefused
    · exact Store.perform_eq_applied rfl
  | reload site finished => rfl
  | note site finished => rfl

end Stage

/-- What a chore of an engine asks of its store. -/
def Engine.asked {σ : Type} (engine : Engine) (supply : Supply σ) : Chore → Option Operation
  | .proceed place =>
    (engine.attempts[place]?).bind fun attempt =>
      attempt.stage.asked supply attempt.site attempt.started
  | .reconcile => engine.faults.head?.map .reconcile
  | _ => none

/-- Whatever an engine does to its store is the operation that its chore asks for. -/
theorem Engine.store_perform {σ : Type} (engine : Engine) (supply : Supply σ)
    (around : Surroundings σ) (chore : Chore) :
    (engine.perform supply around chore).2.store =
      (engine.asked supply chore).elim around.store (·.applied supply.moment around.store) := by
  cases chore with
  | proceed place =>
    simp only [perform, proceed, asked]
    cases hattempt : engine.attempts[place]? with
    | none => rfl
    | some attempt =>
      have hstep := attempt.stage.store_step supply attempt.site attempt.started around
      simp only [Option.bind_some]
      split <;> exact hstep
  | reconcile =>
    simp only [perform, reconcile, asked]
    cases engine.faults with
    | nil => rfl
    | cons fault rest => exact Store.perform_eq_applied rfl
  | _ => rfl

end KeepAlive
