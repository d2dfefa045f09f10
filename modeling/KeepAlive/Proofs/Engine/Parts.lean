import KeepAlive.Proofs.Engine.InStep

/-!
# The table and the follower keep in step

The steps of the job table and those of the follower leave the store alone.  Each of them keeps the
engine in step with it.
-/

namespace KeepAlive

open Time

namespace Standing

theorem IsSpent.of_installed {standing : Standing} {due other : Instant}
    (h : (standing.installed due).IsSpent other) : standing.IsSpent other := by
  unfold installed at h
  split at h <;> exact h

theorem IsSpent.of_removed {standing : Standing} {due : Instant}
    (h : standing.removed.IsSpent due) : standing.IsSpent due := by
  rcases h with hrunning | hcovered
  · exact Or.inl hrunning
  · cases hcovered

theorem IsSpent.of_finished {standing : Standing} {due : Instant}
    (h : standing.finished.IsSpent due) : standing.IsSpent due := by
  unfold finished at h
  split at h
  · exact h
  · rename_i running hrunning
    rcases h with hnone | hcovered
    · cases hnone
    · exact Or.inl (hrunning.trans hcovered)

theorem waiting_finished (standing : Standing) : standing.finished.waiting = standing.waiting := by
  unfold finished
  split <;> rfl

/-- What is spent after a start was spent before, or has just been started and was due. -/
theorem IsSpent.of_fired {standing : Standing} {now due : Instant}
    (h : (standing.fired now).IsSpent due) :
    standing.IsSpent due ∨ standing.ready? now = some due := by
  unfold fired at h
  split at h
  · exact Or.inl h
  · rename_i started hready
    rcases h with hrunning | hcovered
    · exact Or.inr (hready.trans hrunning)
    · exact Or.inl (Or.inr hcovered)

theorem waiting_fired_of_not_ready {standing : Standing} {now : Instant}
    (h : standing.ready? now = none) : (standing.fired now).waiting = standing.waiting := by
  unfold fired
  rw [h]

/-- A job that may be installed for good is installed, unless a body covers it. -/
theorem waiting_installed (standing : Standing) (due : Instant) :
    (standing.installed due).waiting = some due ∨
      ∃ spent, standing.IsSpent spent ∧ due.isUpTo spent = true := by
  unfold installed
  cases hrefused : standing.refuses due with
  | false => exact Or.inl rfl
  | true =>
    right
    rcases refuses_iff.1 hrefused with ⟨running, hrunning, hle⟩ | ⟨covered, hcovered, hle⟩
    · exact ⟨running, Or.inl hrunning, hle⟩
    · exact ⟨covered, Or.inr hcovered, hle⟩

end Standing

namespace Engine

theorem isSpent_of_obey {jobs : Jobs} {order : Order} {siteId : Int} {due : Instant}
    (h : ((jobs.obey order).standing siteId).IsSpent due) :
    (jobs.standing siteId).IsSpent due := by
  cases order with
  | install site next =>
    simp only [Jobs.obey, Jobs.standing_install] at h
    split at h
    · exact h.of_installed
    · exact h
  | remove site =>
    simp only [Jobs.obey, Jobs.standing_remove] at h
    split at h
    · exact h.of_removed
    · exact h
  | report => exact h

theorem standing_obey_of_ne (jobs : Jobs) {order : Order} {siteId : Int}
    (h : order.siteId? ≠ some siteId) :
    (jobs.obey order).standing siteId = jobs.standing siteId := by
  cases order with
  | install site next =>
    rw [Jobs.obey, Jobs.standing_install, if_neg fun heq => h (by rw [heq]; rfl)]
  | remove site =>
    rw [Jobs.obey, Jobs.standing_remove, if_neg fun heq => h (by rw [heq]; rfl)]
  | report => rfl

/-- Where the ledger does not ask for what a body covers, the last order about a site takes effect. -/
theorem fits_obey {clock : Instant} {engine after : Engine} {ledger : Ledger} {siteId : Int}
    {order : Order} (htimely : engine.IsTimely clock ledger) (hasks : ledger.Asks siteId order)
    (hjobs : after.jobs = engine.jobs.obey order)
    (hearly : engine.IsEarly siteId → after.IsEarly siteId) : after.Fits siteId order := by
  rcases hasks with ⟨-, rfl⟩ | ⟨text, next, hplan, hnext, rfl⟩
  · simp only [Fits, hjobs, Jobs.obey, Jobs.standing_remove, if_pos, Standing.removed]
  · simp only [Fits, hjobs, Jobs.obey, Jobs.standing_install, if_pos]
    rcases (engine.jobs.standing siteId).waiting_installed next with
      hwaiting | ⟨spent, hspent, hle⟩
    · exact Or.inl hwaiting
    · right
      refine hearly ((htimely.later siteId text next hplan hnext).resolve_right fun hlater => ?_)
      have hbefore := hlater spent hspent
      rw [Instant.isUpTo, hbefore] at hle
      cases hle

theorem isSettled_obey {clock : Instant} {engine after : Engine} {ledger : Ledger} {siteId : Int}
    {order : Order} {rest : List Order} (htimely : engine.IsTimely clock ledger)
    (horders : engine.orders = order :: rest) (hafter : after.orders = rest)
    (hjobs : after.jobs = engine.jobs.obey order)
    (hearly : engine.IsEarly siteId → after.IsEarly siteId)
    (h : engine.IsSettled ledger siteId) : after.IsSettled ledger siteId := by
  obtain ⟨asked, hasks, hlast⟩ := h
  refine ⟨asked, hasks, ?_⟩
  rw [horders, lastAbout_cons] at hlast
  rw [hafter]
  cases hrest : lastAbout rest siteId with
  | some last => simpa [hrest] using hlast
  | none =>
    rw [hrest, Option.none_or, lastAbout_singleton] at hlast
    right
    refine ⟨rfl, ?_⟩
    split at hlast
    · rcases hlast with hsame | ⟨hnone, -⟩
      · cases hsame
        exact fits_obey htimely hasks hjobs hearly
      · cases hnone
    · rename_i hother
      rcases hlast with hnone | ⟨-, hfits⟩
      · cases hnone
      · have hstanding := standing_obey_of_ne engine.jobs hother
        rcases hasks with ⟨-, rfl⟩ | ⟨text, next, -, -, rfl⟩
        · simpa [Fits, hjobs, hstanding] using hfits
        · simp only [Fits, hjobs, hstanding] at hfits ⊢
          exact hfits.imp_right hearly

theorem obey_of_nil {engine : Engine} (h : engine.orders = []) : engine.obey = engine := by
  unfold Engine.obey
  rw [h]

theorem obey_eq {engine : Engine} {order : Order} {rest : List Order} {follower : Follower}
    (horders : engine.orders = order :: rest) (hfollower : engine.follower = some follower) :
    engine.obey = { engine with
      jobs := engine.jobs.obey order, orders := rest
      follower := some (if order = .report then
        { follower with report := some engine.jobs.pending } else follower) } := by
  unfold Engine.obey
  rw [horders, hfollower]
  cases order <;> rfl

/-- The report is the last order before the follower has its answer. -/
theorem isInTurn_obey {engine after : Engine} {order : Order} {rest : List Order}
    {follower : Follower} (hturn : follower.IsInTurn engine)
    (hkeyed : engine.jobs.waiting.IsKeyed) (horders : engine.orders = order :: rest)
    (hafter : after.orders = rest) (hjobs : after.jobs = engine.jobs.obey order) :
    (if order = .report then { follower with report := some engine.jobs.pending }
      else follower : Follower).IsInTurn after := by
  unfold Follower.IsInTurn at hturn
  rw [horders] at hturn
  split at hturn
  · rename_i hsnapshot hreport
    have hne : order ≠ .report := fun heq => hturn (heq ▸ List.mem_cons_self)
    rw [if_neg hne]
    simp only [Follower.IsInTurn, hsnapshot, hreport, hafter]
    exact fun hmem => hturn (List.mem_cons_of_mem order hmem)
  · exact hturn.elim
  · rename_i sites hsnapshot hreport
    obtain ⟨before, hbefore, hfirst⟩ := hturn
    cases before with
    | nil =>
      obtain ⟨hlast, hnothing⟩ := List.cons.inj hbefore
      rw [if_pos hlast]
      simp only [Follower.IsInTurn, hsnapshot, hafter, hjobs, hlast, Jobs.obey]
      refine ⟨hnothing, ?_⟩
      intro siteId hwaiting
      obtain ⟨next, hnext⟩ := Option.ne_none_iff_exists'.1 hwaiting
      refine ⟨(siteId, next), ?_, rfl⟩
      exact List.mem_mergeSort.2 ((Slots.mem_iff_get?_eq_some hkeyed).2 hnext)
    | cons first others =>
      obtain ⟨hsame, hothers⟩ := List.cons.inj hbefore
      have hne : order ≠ .report := by
        rintro rfl
        exact hfirst (hsame ▸ List.mem_cons_self)
      rw [if_neg hne]
      simp only [Follower.IsInTurn, hsnapshot, hreport, hafter]
      exact ⟨others, hothers, fun hmem => hfirst (List.mem_cons_of_mem first hmem)⟩
  · cases hturn.1

theorem IsInStep.obey {clock : Instant} {engine : Engine} {store : Store}
    (h : engine.IsInStep clock store) : engine.obey.IsInStep clock store := by
  cases horders : engine.orders with
  | nil =>
    rw [obey_of_nil horders]
    exact h
  | cons order rest =>
    obtain ⟨follower, hfollower, hseen, hturn, hknows⟩ := h.follower
    rw [obey_eq horders hfollower]
    refine ⟨h.sound, Jobs.isKeyed_waiting_obey h.keyed order,
      h.timely.of_spent (fun _ _ => isSpent_of_obey) fun _ => id, _, rfl, ?_,
      isInTurn_obey hturn h.keyed horders rfl rfl, ?_⟩
    · split <;> exact hseen
    · refine hknows.of_isSettled (by split <;> rfl) (by split <;> rfl) fun siteId hsettled => ?_
      exact isSettled_obey h.timely horders rfl rfl id hsettled

/-! ### The table starts what is due and learns what is over -/

theorem isEarly_fire {engine : Engine} (hkeyed : engine.jobs.waiting.IsKeyed) {now : Instant}
    (time : Nat) {siteId : Int}
    (h : engine.IsEarly siteId ∨ ∃ due, (engine.jobs.standing siteId).ready? now = some due) :
    (engine.fire now time).IsEarly siteId := by
  rcases h with (⟨attempt, hattempt, hearly⟩ | hfault) | ⟨due, hready⟩
  · exact Or.inl ⟨attempt, List.mem_append_left _ hattempt, hearly⟩
  · exact Or.inr hfault
  · have hstarts := Jobs.starts_fire hkeyed now siteId
    rw [hready] at hstarts
    have hmem : (⟨siteId, due, engine.jobs.workAt now due⟩ : Start) ∈ (engine.jobs.fire now).2 := by
      have : (⟨siteId, due, engine.jobs.workAt now due⟩ : Start) ∈
          (engine.jobs.fire now).2.filter (·.site = siteId) := by
        rw [hstarts]
        exact List.mem_singleton_self _
      exact (List.mem_filter.1 this).1
    refine Or.inl ⟨Attempt.ofStart now time ⟨siteId, due, engine.jobs.workAt now due⟩,
      List.mem_append_right _ (List.mem_map_of_mem hmem), rfl, ?_⟩
    simp only [Attempt.ofStart]
    split <;> trivial

theorem standing_engine_fire {engine : Engine} (hkeyed : engine.jobs.waiting.IsKeyed)
    (now : Instant) (time : Nat) (siteId : Int) :
    (engine.fire now time).jobs.standing siteId = (engine.jobs.standing siteId).fired now :=
  Jobs.standing_fire hkeyed now siteId

theorem isSettled_fire {engine : Engine} (hkeyed : engine.jobs.waiting.IsKeyed) {now : Instant}
    (time : Nat) {ledger : Ledger} {siteId : Int} (h : engine.IsSettled ledger siteId) :
    (engine.fire now time).IsSettled ledger siteId := by
  obtain ⟨order, hasks, hlast⟩ := h
  refine ⟨order, hasks, hlast.imp_right fun ⟨hnone, hfits⟩ => ⟨hnone, ?_⟩⟩
  have hstanding := standing_engine_fire hkeyed now time siteId
  rcases hasks with ⟨-, rfl⟩ | ⟨text, next, -, -, rfl⟩
  · simp only [Fits, hstanding] at hfits ⊢
    rw [Standing.waiting_fired_of_not_ready]
    · exact hfits
    · simp [Standing.ready?, hfits]
  · simp only [Fits, hstanding] at hfits ⊢
    cases hready : (engine.jobs.standing siteId).ready? now with
    | none =>
      rw [Standing.waiting_fired_of_not_ready hready]
      exact hfits.imp_right fun hearly => isEarly_fire hkeyed time (Or.inl hearly)
    | some due => exact Or.inr (isEarly_fire hkeyed time (Or.inr ⟨due, hready⟩))

theorem IsInStep.fire {clock now : Instant} {engine : Engine} {store : Store}
    (h : engine.IsInStep clock store) (hclock : clock.isUpTo now = true) (time : Nat) :
    (engine.fire now time).IsInStep now store := by
  have hstanding := standing_engine_fire h.keyed now time
  have htimely := h.timely.later_clock hclock
  obtain ⟨follower, hfollower, hseen, hturn, hknows⟩ := h.follower
  refine ⟨h.sound, Jobs.isKeyed_waiting_fire h.keyed now, ⟨?_, ?_⟩, follower, hfollower, hseen, ?_,
    hknows.of_isSettled rfl rfl fun _ => isSettled_fire h.keyed time⟩
  · intro siteId due hspent
    rw [hstanding] at hspent
    rcases hspent.of_fired with hbefore | hready
    · exact htimely.spent siteId due hbefore
    · exact (Standing.ready?_eq_some_iff.1 hready).2.1
  · intro siteId text next hplan hnext
    rcases hready : (engine.jobs.standing siteId).ready? now with - | due
    · refine (htimely.later siteId text next hplan hnext).imp
        (fun hearly => isEarly_fire h.keyed time (Or.inl hearly)) fun hlater due hspent => ?_
      rw [hstanding] at hspent
      rcases hspent.of_fired with hbefore | hnow
      · exact hlater due hbefore
      · rw [hready] at hnow
        cases hnow
    · exact Or.inl (isEarly_fire h.keyed time (Or.inr ⟨due, hready⟩))
  · refine hturn.of_waiting rfl fun siteId hnone => ?_
    rw [hstanding, Standing.waiting_fired_of_not_ready (by simp [Standing.ready?, hnone])]
    exact hnone

theorem learn_of_nil {engine : Engine} (h : engine.freed = []) : engine.learn = engine := by
  unfold Engine.learn
  rw [h]

theorem learn_of_cons {engine : Engine} {site : Int} {rest : List Int}
    (h : engine.freed = site :: rest) :
    engine.learn = { engine with jobs := engine.jobs.finish site, freed := rest } := by
  unfold Engine.learn
  rw [h]

theorem standing_learn {engine : Engine} {site : Int} {rest : List Int}
    (hfreed : engine.freed = site :: rest) (siteId : Int) :
    (engine.learn.jobs.standing siteId).waiting = (engine.jobs.standing siteId).waiting ∧
      ∀ due, (engine.learn.jobs.standing siteId).IsSpent due →
        (engine.jobs.standing siteId).IsSpent due := by
  rw [learn_of_cons hfreed, Jobs.standing_finish]
  split
  · exact ⟨Standing.waiting_finished _, fun _ hspent => hspent.of_finished⟩
  · exact ⟨rfl, fun _ => id⟩

theorem IsInStep.learn {clock : Instant} {engine : Engine} {store : Store}
    (h : engine.IsInStep clock store) : engine.learn.IsInStep clock store := by
  cases hfreed : engine.freed with
  | nil =>
    rw [learn_of_nil hfreed]
    exact h
  | cons site rest =>
    have hstanding := standing_learn hfreed
    obtain ⟨follower, hfollower, hseen, hturn, hknows⟩ := h.follower
    rw [learn_of_cons hfreed] at hstanding ⊢
    refine ⟨h.sound, Jobs.isKeyed_waiting_finish h.keyed site,
      h.timely.of_spent (fun siteId => (hstanding siteId).2) fun _ => id, follower, hfollower, hseen,
      hturn.of_waiting rfl fun siteId hnone => (hstanding siteId).1.trans hnone, ?_⟩
    exact hknows.of_isSettled rfl rfl fun siteId hsettled =>
      hsettled.of_waiting rfl (hstanding siteId).1 id

end Engine

end KeepAlive
