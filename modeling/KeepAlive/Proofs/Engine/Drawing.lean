import KeepAlive.Proofs.Engine.InStep

/-!
# Attempts draw the next run of their site

An attempt that has not drawn the next run of its site goes on to do so, leaves it to the reconciler
by a fault, or ends where its site is paused or gone.  The reconciler draws it for every fault.  So
what attempts, the reconciler and operations do keeps the engine in step with its store.
-/

namespace KeepAlive

open Browser Time

namespace Store

/-- A store undergoes at most one change, which is announced. -/
def Moves (store : Store) (moment : Moment) (changed : Store) : Prop :=
  changed = store ∨
    ∃ change : Change Unit, store.ledger.Tracks moment change ∧ changed = store.commit change

theorem Moves.of_commit {store : Store} {moment : Moment} {α : Type} {change : Change α}
    (h : store.ledger.Tracks moment change) : store.Moves moment (store.commit change) :=
  Or.inr ⟨change.bare, h.bare, rfl⟩

theorem Moves.isSound {store changed : Store} {moment : Moment} (h : store.Moves moment changed)
    (hsound : store.IsSound) : changed.IsSound := by
  rcases h with rfl | ⟨change, htracks, rfl⟩
  · exact hsound
  · exact hsound.commit htracks

/-- A site that is redrawn has no plan, or is replanned. -/
theorem replans_of_redraws {store : Store} (hsound : store.IsSound) {moment : Moment} {α : Type}
    {change : Change α} {siteId : Int} (h : Ledger.Redraws moment change siteId) :
    (store.commit change).ledger.plan siteId = none ∨
      store.Replans moment (store.commit change) siteId := by
  refine h.announced.imp_right fun hevent => ⟨h.isPlannedAt, fun _ hseen => ?_⟩
  exact hsound.feed.awaits_publishAll hseen (Or.inl hevent)

end Store

/-- The next run of the site is drawn later, by the attempt or for its fault. -/
def Outlook.IsEarly : Outlook → Prop
  | .next stage _ => stage.IsEarly
  | .closed ending => ending.fault? ≠ none

namespace Stage

variable {σ : Type} {supply : Supply σ} {siteId : Int} {started : Instant}
  {around : Surroundings σ} {offset : Int}

/-- A stage changes the store at most once, and an early one ends early, or draws the next run of its
site, or finds the site without one. -/
def Draws (supply : Supply σ) (siteId : Int) (started : Instant) (around : Surroundings σ)
    (stage : Stage) : Prop :=
  around.store.Moves supply.moment (stage.step supply siteId started around).2.store ∧
    (stage.IsEarly → (stage.step supply siteId started around).1.IsEarly ∨
      (stage.step supply siteId started around).2.store.ledger.plan siteId = none ∨
        around.store.Replans supply.moment (stage.step supply siteId started around).2.store siteId)

theorem draws_missed (hsound : around.store.IsSound) (hat : supply.moment.IsAt offset)
    (hreads : IsReadable (around.store.perform (·.reschedule supply.moment siteId)).1) :
    missed.Draws supply siteId started around := by
  cases hchange : around.store.ledger.reschedule supply.moment siteId with
  | error refusal =>
    have hperform : around.store.perform (·.reschedule supply.moment siteId) =
        (.error refusal, around.store) := Store.perform_of_refused hchange
    rw [hperform] at hreads
    have hplan := Ledger.plan_eq_none_of_reschedule_refused hchange fun cause heq =>
      hreads cause (congrArg _ heq)
    unfold Draws
    simp only [step, hperform]
    exact ⟨Or.inl rfl, fun _ => Or.inr (Or.inl hplan)⟩
  | ok change =>
    have hperform : around.store.perform (·.reschedule supply.moment siteId) =
        (.ok change.result, around.store.commit change) := Store.perform_of_ok hchange
    unfold Draws
    simp only [step, hperform]
    exact ⟨.of_commit (Ledger.tracks_reschedule hsound.ledger hat hchange), fun _ =>
      Or.inr (Store.replans_of_redraws hsound (Ledger.redraws_reschedule hsound.ledger hat hchange))⟩

theorem draws_load (hsound : around.store.IsSound) : load.Draws supply siteId started around := by
  unfold Draws
  cases hsite : around.store.ledger.site siteId with
  | ok site =>
    cases hpaused : site.paused with
    | true =>
      simp only [step, hsite, loaded, hpaused, if_true]
      have hnone := hsound.ledger.isNone_plan hsite
      rw [hpaused, Option.isNone_iff_eq_none] at hnone
      exact ⟨Or.inl rfl, fun _ => Or.inr (Or.inl hnone)⟩
    | false =>
      simp only [step, hsite, loaded, hpaused, Bool.false_eq_true, if_false]
      exact ⟨Or.inl rfl, fun _ => Or.inl trivial⟩
  | error refusal =>
    simp only [step, hsite]
    rcases Ledger.site_eq_error hsite with ⟨rfl, hnone⟩ | ⟨cause, rfl⟩
    · exact ⟨Or.inl rfl, fun _ => Or.inr (Or.inl (Ledger.plan_eq_none_of_find? hnone))⟩
    · exact ⟨Or.inl rfl, fun _ => Or.inl (Option.some_ne_none _)⟩

theorem draws_enter (hsound : around.store.IsSound) (hat : supply.moment.IsAt offset) (site : Site) :
    (enter site).Draws supply siteId started around := by
  unfold Draws
  simp only [step]
  generalize (if site.takeScreenshot then some supply.picture else none) = picture
  cases hchange : around.store.ledger.insertHistory supply.moment siteId
      (.inProgress started picture) with
  | error refusal =>
    have hperform : around.store.perform
        (·.insertHistory supply.moment siteId (.inProgress started picture)) =
          (.error refusal, around.store) := Store.perform_of_refused hchange
    simp only [hperform]
    exact ⟨Or.inl rfl, fun _ => Or.inl (Option.some_ne_none _)⟩
  | ok change =>
    have hperform : around.store.perform
        (·.insertHistory supply.moment siteId (.inProgress started picture)) =
          (.ok change.result, around.store.commit change) := Store.perform_of_ok hchange
    simp only [hperform]
    exact ⟨.of_commit (Ledger.tracks_insertHistory hsound.ledger hat hchange), fun _ =>
      Or.inr (Store.replans_of_redraws hsound
        (Ledger.redraws_insertHistory hsound.ledger hat hchange))⟩

theorem draws_login (site : Site) (entry : Int) (rest : Dialogue (Except Stop Login.Outcome)) :
    (login site entry rest).Draws supply siteId started around := by
  refine ⟨Or.inl ?_, fun h => h.elim⟩
  simp only [step, loggedIn]
  split <;> rfl

theorem draws_finish (hsound : around.store.IsSound) (hat : supply.moment.IsAt offset) (site : Site)
    (entry : Int) (outcome : Login.Outcome) :
    (finish site entry outcome).Draws supply siteId started around := by
  refine ⟨?_, fun h => h.elim⟩
  simp only [step]
  generalize Finish.ofOutcome outcome.status outcome.message none = how
  cases hchange : around.store.ledger.finishHistory supply.moment entry how with
  | error refusal =>
    have hperform : around.store.perform (·.finishHistory supply.moment entry how) =
        (.error refusal, around.store) := Store.perform_of_refused hchange
    simp only [hperform]
    exact Or.inl rfl
  | ok change =>
    have hperform : around.store.perform (·.finishHistory supply.moment entry how) =
        (.ok change.result, around.store.commit change) := Store.perform_of_ok hchange
    simp only [hperform]
    obtain ⟨hfinish, hevents⟩ := Ledger.finishHistory_eq_ok hchange
    exact .of_commit (Ledger.tracks_finish hsound.ledger hat hfinish hevents)

theorem draws (hsound : around.store.IsSound) (hat : supply.moment.IsAt offset) {stage : Stage}
    (hreads : stage = .missed →
      IsReadable (around.store.perform (·.reschedule supply.moment siteId)).1) :
    stage.Draws supply siteId started around := by
  cases stage with
  | missed => exact draws_missed hsound hat (hreads rfl)
  | load => exact draws_load hsound
  | enter site => exact draws_enter hsound hat site
  | login site entry rest => exact draws_login site entry rest
  | finish site entry outcome => exact draws_finish hsound hat site entry outcome
  | reload site finished => exact ⟨Or.inl rfl, fun h => h.elim⟩
  | note site finished => exact ⟨Or.inl rfl, fun h => h.elim⟩

end Stage

namespace Engine

theorem mem_set_of_ne {α : Type} {a b c : α} {l : List α} {place : Nat} (hmem : a ∈ l)
    (hplace : l[place]? = some b) (hne : a ≠ b) : a ∈ l.set place c := by
  obtain ⟨i, hi⟩ := List.mem_iff_getElem?.1 hmem
  have hother : place ≠ i := by
    rintro rfl
    rw [hplace] at hi
    exact hne (Option.some.inj hi).symm
  exact List.mem_iff_getElem?.2 ⟨i, by rw [List.getElem?_set_ne hother, hi]⟩

theorem mem_eraseIdx_of_ne {α : Type} {a b : α} {l : List α} {place : Nat} (hmem : a ∈ l)
    (hplace : l[place]? = some b) (hne : a ≠ b) : a ∈ l.eraseIdx place := by
  obtain ⟨i, hi⟩ := List.mem_iff_getElem?.1 hmem
  refine List.mem_eraseIdx_iff_getElem?.2 ⟨i, ?_, hi⟩
  rintro rfl
  rw [hplace] at hi
  exact hne (Option.some.inj hi).symm

/-- Without one of the attempts a site is still to be drawn, unless that attempt was to draw it. -/
theorem IsEarly.of_others {engine after : Engine} {attempt : Attempt} {siteId : Int}
    (h : engine.IsEarly siteId)
    (hothers : ∀ other ∈ engine.attempts, other ≠ attempt → other ∈ after.attempts)
    (hfaults : ∀ fault ∈ engine.faults, fault ∈ after.faults) :
    (attempt.site = siteId ∧ attempt.stage.IsEarly) ∨ after.IsEarly siteId := by
  rcases h with ⟨other, hother, hearly⟩ | ⟨fault, hfault, hsite⟩
  · by_cases hsame : other = attempt
    · exact Or.inl (hsame ▸ hearly)
    · exact Or.inr (Or.inl ⟨other, hothers other hother hsame, hearly⟩)
  · exact Or.inr (Or.inr ⟨fault, hfaults fault hfault, hsite⟩)

theorem Advances.of_moves {moment : Moment} {engine after : Engine} {store changed : Store}
    (hmoves : store.Moves moment changed) (hsound : store.IsSound)
    (hjobs : after.jobs = engine.jobs) (horders : after.orders = engine.orders)
    (hfollower : after.follower = engine.follower)
    (hearly : ∀ siteId, engine.IsEarly siteId → after.IsEarly siteId ∨
      changed.ledger.plan siteId = none ∨ store.Replans moment changed siteId) :
    Advances moment engine after store changed := by
  refine ⟨hjobs, horders, hfollower, hmoves.isSound hsound, ?_, ?_, ?_, hearly⟩
  · rcases hmoves with rfl | ⟨change, -, rfl⟩
    · exact Nat.le_refl _
    · exact hsound.feed.sent_le_publishAll change.events
  · intro seen siteId hseen hawaits
    rcases hmoves with rfl | ⟨change, -, rfl⟩
    · exact hawaits
    · exact hsound.awaits_commit change hseen hawaits
  · intro siteId
    rcases hmoves with rfl | ⟨change, htracks, rfl⟩
    · exact Or.inl rfl
    · exact hsound.plan_commit htracks siteId

theorem IsEarly.of_ended {engine : Engine} {siteId : Int} (h : engine.IsEarly siteId) {place : Nat}
    {attempt : Attempt} (hattempt : engine.attempts[place]? = some attempt) (ending : Ending) :
    (attempt.site = siteId ∧ attempt.stage.IsEarly) ∨
      ({ engine with attempts := engine.attempts.eraseIdx place }.ended attempt ending).IsEarly
        siteId :=
  h.of_others (fun _ hmem hne => mem_eraseIdx_of_ne hmem hattempt hne)
    fun _ hmem => List.mem_append_left _ hmem

/-- An attempt that ends with a fault leaves its site to the reconciler. -/
theorem isEarly_ended {engine : Engine} {attempt : Attempt} {ending : Ending}
    (h : ending.fault? ≠ none) : (engine.ended attempt ending).IsEarly attempt.site := by
  obtain ⟨reason, hreason⟩ := Option.ne_none_iff_exists'.1 h
  refine Or.inr ⟨⟨attempt.site, attempt.started, reason⟩, ?_, rfl⟩
  simp only [ended, hreason]
  exact List.mem_append_right _ (List.mem_singleton_self _)

section

variable {σ : Type} {clock : Instant} {engine : Engine} {offset : Int}

theorem proceed_of_next {supply : Supply σ} {around after : Surroundings σ} {place : Nat}
    {attempt : Attempt} (hattempt : engine.attempts[place]? = some attempt) {stage : Stage}
    {wakes : Nat} (hstep : attempt.stage.step supply attempt.site attempt.started around =
      (.next stage wakes, after)) :
    engine.proceed supply around place =
      ({ engine with attempts := engine.attempts.set place { attempt with stage, wakes } },
        after) := by
  unfold proceed
  rw [hattempt]
  simp only [hstep]

theorem proceed_of_closed {supply : Supply σ} {around after : Surroundings σ} {place : Nat}
    {attempt : Attempt} (hattempt : engine.attempts[place]? = some attempt) {ending : Ending}
    (hstep : attempt.stage.step supply attempt.site attempt.started around =
      (.closed ending, after)) :
    engine.proceed supply around place =
      ({ engine with attempts := engine.attempts.eraseIdx place }.ended attempt ending, after) := by
  unfold proceed
  rw [hattempt]
  simp only [hstep]

theorem advances_proceed {supply : Supply σ} {around : Surroundings σ}
    (hsound : around.store.IsSound) (hat : supply.moment.IsAt offset) {place : Nat}
    (hreads : engine.Reads supply around (.proceed place)) :
    Advances supply.moment engine (engine.proceed supply around place).1 around.store
      (engine.proceed supply around place).2.store := by
  cases hattempt : engine.attempts[place]? with
  | none =>
    have hsame : engine.proceed supply around place = (engine, around) := by
      unfold proceed
      rw [hattempt]
    rw [hsame]
    exact .of_moves (Or.inl rfl) hsound rfl rfl rfl fun _ => Or.inl
  | some attempt =>
    have hdraws : attempt.stage.Draws supply attempt.site attempt.started around :=
      Stage.draws hsound hat (hreads attempt hattempt)
    unfold Stage.Draws at hdraws
    cases hstep : attempt.stage.step supply attempt.site attempt.started around with
    | mk outlook after =>
    rw [hstep] at hdraws
    obtain ⟨hmoves, hearly⟩ := hdraws
    cases outlook with
    | next stage wakes =>
      rw [proceed_of_next hattempt hstep]
      refine .of_moves hmoves hsound rfl rfl rfl fun siteId hbefore => ?_
      have hothers : (attempt.site = siteId ∧ attempt.stage.IsEarly) ∨
          ({ engine with
            attempts := engine.attempts.set place { attempt with stage, wakes } }).IsEarly siteId :=
        hbefore.of_others (fun _ hmem hne => mem_set_of_ne hmem hattempt hne) fun _ => id
      rcases hothers with ⟨rfl, hstage⟩ | hstill
      · refine (hearly hstage).imp_left fun hnext => ?_
        have hplace := (List.getElem?_eq_some_iff.1 hattempt).1
        exact Or.inl ⟨{ attempt with stage, wakes }, List.mem_set hplace _, rfl, hnext⟩
      · exact Or.inl hstill
    | closed ending =>
      rw [proceed_of_closed hattempt hstep]
      refine .of_moves hmoves hsound rfl rfl rfl fun siteId hbefore => ?_
      rcases hbefore.of_ended hattempt ending with ⟨rfl, hstage⟩ | hstill
      · exact (hearly hstage).imp_left fun hfault => isEarly_ended hfault
      · exact Or.inl hstill

/-- The site of an attempt that breaks off is left to the reconciler. -/
theorem IsEarly.broken {siteId : Int} (h : engine.IsEarly siteId) (place : Nat) {ending : Ending}
    (hending : ending.fault? ≠ none) : (engine.broken place ending).IsEarly siteId := by
  unfold Engine.broken
  cases hattempt : engine.attempts[place]? with
  | none => exact h
  | some attempt =>
    rcases h.of_ended hattempt ending with ⟨rfl, -⟩ | hstill
    · exact isEarly_ended hending
    · exact hstill

theorem IsInStep.broken {store : Store} (h : engine.IsInStep clock store) (place : Nat)
    {ending : Ending} (hending : ending.fault? ≠ none) :
    (engine.broken place ending).IsInStep clock store := by
  have hearly (siteId : Int) (h : engine.IsEarly siteId) := h.broken place hending
  obtain ⟨follower, hfollower, hseen, hturn, hknows⟩ := h.follower
  obtain ⟨hjobs, horders, hsame⟩ := engine.broken_same place ending
  refine ⟨h.sound, hjobs ▸ h.keyed, h.timely.of_spent (fun _ _ => by rw [hjobs]; exact id) hearly,
    follower, hsame.trans hfollower, hseen, hturn.of_waiting horders fun siteId hnone => ?_,
    hknows.of_isSettled rfl rfl fun siteId hsettled => ?_⟩
  · rw [hjobs]
    exact hnone
  · exact hsettled.of_waiting (by rw [horders]) (by rw [hjobs]) (hearly siteId)

/-- The reconciler draws the next run of the site of a fault. -/
theorem advances_reconcile {supply : Supply σ} {around : Surroundings σ}
    (hsound : around.store.IsSound) (hat : supply.moment.IsAt offset)
    (hreads : engine.Reads supply around .reconcile) :
    Advances supply.moment engine (engine.reconcile supply.moment around.store).1 around.store
      (engine.reconcile supply.moment around.store).2 := by
  unfold reconcile
  cases hfaults : engine.faults with
  | nil => exact .of_moves (Or.inl rfl) hsound rfl rfl rfl fun _ => Or.inl
  | cons fault rest =>
    have hreads := hreads fault (by rw [hfaults]; rfl)
    have hearly (siteId : Int) (h : engine.IsEarly siteId) : fault.siteId = siteId ∨
        { engine with faults := rest }.IsEarly siteId := by
      rcases h with hattempt | ⟨other, hother, hsite⟩
      · exact Or.inr (Or.inl hattempt)
      · rw [hfaults] at hother
        rcases List.mem_cons.1 hother with rfl | hother
        · exact Or.inl hsite
        · exact Or.inr (Or.inr ⟨other, hother, hsite⟩)
    cases hchange : around.store.ledger.reconcile supply.moment fault with
    | error refusal =>
      have hperform : around.store.perform (·.reconcile supply.moment fault) =
          (.error refusal, around.store) := Store.perform_of_refused hchange
      rw [hperform] at hreads
      simp only [hperform]
      refine .of_moves (Or.inl rfl) hsound rfl rfl rfl fun siteId h => ?_
      rcases hearly siteId h with rfl | hstill
      · exact Or.inr (Or.inl (Ledger.plan_eq_none_of_reconcile_refused hsound.ledger hchange
          fun cause heq => hreads cause (congrArg _ heq)))
      · exact Or.inl hstill
    | ok change =>
      have hperform : around.store.perform (·.reconcile supply.moment fault) =
          (.ok change.result, around.store.commit change) := Store.perform_of_ok hchange
      simp only [hperform]
      refine .of_moves (.of_commit (Ledger.tracks_reconcile hsound.ledger hat hchange)) hsound
        rfl rfl rfl fun siteId h => ?_
      rcases hearly siteId h with rfl | hstill
      · exact Or.inr (Store.replans_of_redraws hsound
          (Ledger.redraws_reconcile hsound.ledger hat hchange))
      · exact Or.inl hstill

end

end Engine

end KeepAlive
