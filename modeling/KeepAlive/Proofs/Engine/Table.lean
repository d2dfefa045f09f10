import KeepAlive.Proofs.Engine.Drawing
import KeepAlive.Proofs.Engine.Following
import KeepAlive.Proofs.Engine.Parts
import KeepAlive.Proofs.Engine.Starting

/-!
# The table of a quiet engine

An engine is in step with its store in the whole course of its work, whatever the order of its steps.
When nothing is outstanding, its table therefore holds just the next runs of the sites that are not
paused.
-/

namespace KeepAlive

open Browser Time

namespace Engine

variable {σ : Type} {engine : Engine} {offset : Int} {clock : Instant}

theorem IsInStep.later {store : Store} (h : engine.IsInStep clock store) {now : Instant}
    (hclock : clock.isUpTo now = true) : engine.IsInStep now store :=
  ⟨h.sound, h.keyed, h.timely.later_clock hclock, h.follower⟩

/-- Whatever part of the engine goes on, the engine stays in step. -/
theorem IsInStep.perform {supply : Supply σ} {around : Surroundings σ}
    (h : engine.IsInStep clock around.store) (hat : supply.moment.IsAt offset)
    (hticks : clock.Ticks supply.moment.now) {chore : Chore} (hallowed : engine.Allows chore)
    (hreads : engine.Reads supply around chore) :
    (engine.perform supply around chore).1.IsInStep supply.moment.now
      (engine.perform supply around chore).2.store := by
  have hclock := hticks.isUpTo
  cases chore with
  | endResync => exact h.endResync.later hclock
  | obey => exact h.obey.later hclock
  | fire => exact h.fire hclock around.time
  | resync => exact (h.resync hallowed hreads).later hclock
  | proceed place => exact h.advance hticks (advances_proceed h.sound hat hreads)
  | follow => exact (h.follow hallowed hreads).later hclock
  | learn => exact h.learn.later hclock
  | reconcile => exact h.advance hticks (advances_reconcile h.sound hat hreads)

/-- Nothing is on its way to a quiet engine about any site. -/
theorem IsInStep.isSettled_of_isQuiet {store : Store} (h : engine.IsInStep clock store)
    (hquiet : engine.IsQuiet store.feed) (siteId : Int) :
    engine.IsSettled store.ledger siteId := by
  obtain ⟨follower, hfollower, -, -, hknows⟩ := h.follower
  have hseen := hquiet.seen follower hfollower
  unfold Follower.Knows at hknows
  rw [hseen] at hknows
  split at hknows
  · exact (hknows siteId).resolve_left (store.feed.not_awaits_sent siteId)
  · obtain ⟨-, -, hsettled⟩ := hknows
    exact hsettled.resolve_left (Nat.lt_irrefl _) siteId

/-- A quiet engine has done what the ledger asks for. -/
theorem IsInStep.get?_of_isQuiet {store : Store} (h : engine.IsInStep clock store)
    (hquiet : engine.IsQuiet store.feed) (siteId : Int) :
    (store.ledger.plan siteId = none ∧ engine.jobs.waiting.get? siteId = none) ∨
      ∃ text next, store.ledger.plan siteId = some text ∧ storedInstant? 13 text = .ok next ∧
        engine.jobs.waiting.get? siteId = some next := by
  obtain ⟨order, hasks, hlast⟩ := h.isSettled_of_isQuiet hquiet siteId
  rw [hquiet.orders] at hlast
  obtain ⟨-, hfits⟩ := hlast.resolve_left fun hsome => by cases hsome
  rcases hasks with ⟨hplan, rfl⟩ | ⟨text, next, hplan, hnext, rfl⟩
  · exact Or.inl ⟨hplan, hfits⟩
  · refine Or.inr ⟨text, next, hplan, hnext, hfits.resolve_right ?_⟩
    rintro (⟨attempt, hattempt, -⟩ | ⟨fault, hfault, -⟩)
    · rw [hquiet.attempts] at hattempt
      cases hattempt
    · rw [hquiet.faults] at hfault
      cases hfault

/-- Every site of the store of a quiet engine can be read. -/
theorem IsInStep.exists_allSites {store : Store} (h : engine.IsInStep clock store)
    (hquiet : engine.IsQuiet store.feed) : ∃ sites, store.ledger.allSites = .ok sites := by
  have hrows : ∀ row ∈ store.ledger.sites, ∃ site, row.site? = .ok site := by
    intro row hrow
    have hfound := Ledger.find?_of_nodup h.sound.ledger.sites_nodup hrow
    have hplan : store.ledger.plan row.id = row.next := by
      rw [Ledger.plan, hfound]
      rfl
    rcases h.get?_of_isQuiet hquiet row.id with ⟨hnone, -⟩ | ⟨text, next, hsome, hnext, -⟩
    · exact (h.sound.ledger.rows row hrow).exists_site? (by rw [← hplan, hnone]; rfl)
    · have hread : storedInstantOrNone? 13 row.next = .ok (some next) := by
        rw [← hplan, hsome, storedInstantOrNone?, hnext]
        rfl
      exact (h.sound.ledger.rows row hrow).exists_site? hread
  obtain ⟨sites, hsites⟩ := Ledger.exists_mapM_eq_ok hrows
  exact ⟨sites, Ledger.mapError_unreadable_eq_ok.2 hsites⟩

end Engine

end KeepAlive
