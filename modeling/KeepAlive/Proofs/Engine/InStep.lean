import KeepAlive.Proofs.Engine.Orders
import KeepAlive.Proofs.Jobs.Standing

/-!
# An engine in step with its store

An engine is in step with its store when, for every site, the follower is still to be told of the site
or the last order about it is the one that the ledger asks for, and when that order will not be
refused for good.  The job table may refuse the plan of a site only as long as an attempt, or the
reconciler, is going to draw a new one.
-/

namespace KeepAlive

open Time

/-- A stage in which an attempt has yet to draw the next run of its site. -/
def Stage.IsEarly : Stage → Prop
  | .missed | .load | .enter _ => True
  | _ => False

/-- An instant for which a body of the site runs or has run. -/
def Standing.IsSpent (standing : Standing) (due : Instant) : Prop :=
  standing.running = some due ∨ standing.covered = some due

namespace Engine

/-- The next run of a site is still to be drawn, by an attempt or by the reconciler. -/
def IsEarly (engine : Engine) (siteId : Int) : Prop :=
  (∃ attempt ∈ engine.attempts, attempt.site = siteId ∧ attempt.stage.IsEarly) ∨
    ∃ fault ∈ engine.faults, fault.siteId = siteId

/-- The table is as an order about a site wants it, or will be asked for something else. -/
def Fits (engine : Engine) (siteId : Int) : Order → Prop
  | .install _ next =>
    (engine.jobs.standing siteId).waiting = some next ∨ engine.IsEarly siteId
  | .remove _ => (engine.jobs.standing siteId).waiting = none
  | .report => False

/-- What the ledger asks for about a site is on its way or done. -/
def IsSettled (engine : Engine) (ledger : Ledger) (siteId : Int) : Prop :=
  ∃ order, ledger.Asks siteId order ∧
    (lastAbout engine.orders siteId = some order ∨
      (lastAbout engine.orders siteId = none ∧ engine.Fits siteId order))

theorem IsSettled.of_waiting {engine after : Engine} {ledger : Ledger} {siteId : Int}
    (h : engine.IsSettled ledger siteId)
    (horders : lastAbout after.orders siteId = lastAbout engine.orders siteId)
    (hwaiting : (after.jobs.standing siteId).waiting = (engine.jobs.standing siteId).waiting)
    (hearly : engine.IsEarly siteId → after.IsEarly siteId) : after.IsSettled ledger siteId := by
  obtain ⟨order, hasks, hlast⟩ := h
  refine ⟨order, hasks, ?_⟩
  rw [horders]
  refine hlast.imp_right fun ⟨hnone, hfits⟩ => ⟨hnone, ?_⟩
  cases order with
  | install site next => exact hfits.imp (fun h => hwaiting.trans h) hearly
  | remove site => exact hwaiting.trans hfits
  | report => exact hfits

/-- What runs or has run was due by the last reading of the clock, and a plan that is to last lies
later. -/
structure IsTimely (clock : Instant) (engine : Engine) (ledger : Ledger) : Prop where
  spent : ∀ siteId due, (engine.jobs.standing siteId).IsSpent due → due.isUpTo clock = true
  later : ∀ siteId text next, ledger.plan siteId = some text →
    storedInstant? 13 text = .ok next → engine.IsEarly siteId ∨
      ∀ due, (engine.jobs.standing siteId).IsSpent due → due.isBefore next = true

end Engine

namespace Follower

/-- The follower's question about the waiting jobs is on its way, answered, or not asked. -/
def IsInTurn (follower : Follower) (engine : Engine) : Prop :=
  match follower.snapshot, follower.report with
  | none, none => .report ∉ engine.orders
  | none, some _ => False
  | some _, none => ∃ orders, engine.orders = orders ++ [.report] ∧ .report ∉ orders
  | some _, some waiting => engine.orders = [] ∧
    ∀ siteId, (engine.jobs.standing siteId).waiting ≠ none → ∃ slot ∈ waiting, slot.1 = siteId

/-- What the follower has done about a site, or is going to do with what it has seen of all sites, is
what the ledger asks for, unless it is still to be told of the site. -/
def Knows (follower : Follower) (engine : Engine) (store : Store) : Prop :=
  match follower.snapshot with
  | none => ∀ siteId, store.feed.Awaits follower.seen siteId ∨
    engine.IsSettled store.ledger siteId
  | some sites => (sites.map (·.id)).Nodup ∧
    (∀ siteId, store.feed.Awaits follower.seen siteId ∨ store.ledger.Records sites siteId) ∧
    (follower.seen < store.feed.sent ∨ ∀ siteId, engine.IsSettled store.ledger siteId)

theorem IsInTurn.of_waiting {follower : Follower} {engine after : Engine}
    (h : follower.IsInTurn engine) (horders : after.orders = engine.orders)
    (hwaiting : ∀ siteId, (engine.jobs.standing siteId).waiting = none →
      (after.jobs.standing siteId).waiting = none) : follower.IsInTurn after := by
  unfold Follower.IsInTurn at h ⊢
  rw [horders]
  split at h
  · exact h
  · exact h
  · exact h
  · refine h.imp_right fun htold siteId hafter => ?_
    exact htold siteId fun hnone => hafter (hwaiting siteId hnone)

/-- What a follower knows holds on as long as settled sites stay settled. -/
theorem Knows.of_isSettled {follower told : Follower} {engine after : Engine}
    {store : Store} (h : follower.Knows engine store)
    (hsnapshot : told.snapshot = follower.snapshot) (hseen : told.seen = follower.seen)
    (hsettled : ∀ siteId, engine.IsSettled store.ledger siteId →
      after.IsSettled store.ledger siteId) : told.Knows after store := by
  unfold Follower.Knows at h ⊢
  rw [hsnapshot, hseen]
  split at h
  · exact fun siteId => (h siteId).imp_right (hsettled siteId)
  · obtain ⟨hnodup, hrecords, hall⟩ := h
    exact ⟨hnodup, hrecords, hall.imp_right fun hall siteId => hsettled siteId (hall siteId)⟩

end Follower

namespace Engine

/-- The engine is in step with the store, at the last reading of the clock. -/
structure IsInStep (clock : Instant) (engine : Engine) (store : Store) : Prop where
  sound : store.IsSound
  keyed : engine.jobs.waiting.IsKeyed
  timely : engine.IsTimely clock store.ledger
  follower : ∃ follower, engine.follower = some follower ∧
    follower.seen ≤ store.feed.sent ∧ follower.IsInTurn engine ∧ follower.Knows engine store

theorem IsTimely.later_clock {clock now : Instant} {engine : Engine} {ledger : Ledger}
    (h : engine.IsTimely clock ledger) (hclock : clock.isUpTo now = true) :
    engine.IsTimely now ledger :=
  ⟨fun siteId due hspent => Instant.isUpTo_trans (h.spent siteId due hspent) hclock, h.later⟩

theorem IsTimely.of_spent {clock : Instant} {engine after : Engine} {ledger : Ledger}
    (h : engine.IsTimely clock ledger)
    (hspent : ∀ siteId due, (after.jobs.standing siteId).IsSpent due →
      (engine.jobs.standing siteId).IsSpent due)
    (hearly : ∀ siteId, engine.IsEarly siteId → after.IsEarly siteId) :
    after.IsTimely clock ledger := by
  refine ⟨fun siteId due hdue => h.spent siteId due (hspent siteId due hdue), ?_⟩
  intro siteId text next hplan hnext
  exact (h.later siteId text next hplan hnext).imp (hearly siteId)
    fun hlater due hdue => hlater due (hspent siteId due hdue)

/-- A step that changes the store and the attempts.  Where it changes the plan of a site, and where an
attempt no longer has to draw one, the site has been planned anew and the follower will be told. -/
structure Advances (moment : Moment) (engine after : Engine) (store changed : Store) : Prop where
  jobs : after.jobs = engine.jobs
  orders : after.orders = engine.orders
  follower : after.follower = engine.follower
  sound : changed.IsSound
  sent_le : store.feed.sent ≤ changed.feed.sent
  awaits : ∀ seen siteId, seen ≤ store.feed.sent → store.feed.Awaits seen siteId →
    changed.feed.Awaits seen siteId
  plan : ∀ siteId, changed.ledger.plan siteId = store.ledger.plan siteId ∨
    store.Replans moment changed siteId
  early : ∀ siteId, engine.IsEarly siteId → after.IsEarly siteId ∨
    changed.ledger.plan siteId = none ∨ store.Replans moment changed siteId

/-- Where nothing has been announced since, a settled site stays settled. -/
theorem Advances.isSettled {moment : Moment} {engine after : Engine} {store changed : Store}
    (h : Advances moment engine after store changed) {siteId : Int}
    (hquiet : ¬store.Replans moment changed siteId)
    (hsettled : engine.IsSettled store.ledger siteId) :
    after.IsSettled changed.ledger siteId := by
  obtain ⟨order, hasks, hlast⟩ := hsettled
  have hplan := (h.plan siteId).resolve_right hquiet
  refine ⟨order, hasks.of_plan_eq hplan, ?_⟩
  rw [h.orders]
  refine hlast.imp_right fun ⟨hnone, hfits⟩ => ⟨hnone, ?_⟩
  rcases hasks with ⟨-, rfl⟩ | ⟨text, next, htext, -, rfl⟩
  · simp only [Fits, h.jobs] at hfits ⊢
    exact hfits
  · simp only [Fits, h.jobs] at hfits ⊢
    refine hfits.imp_right fun hearly => ?_
    refine (h.early siteId hearly).resolve_right fun hdone => ?_
    rcases hdone with hnone | hreplans
    · rw [hplan, htext] at hnone
      cases hnone
    · exact hquiet hreplans

theorem Advances.isTimely {clock : Instant} {moment : Moment} {engine after : Engine}
    {store changed : Store} (h : Advances moment engine after store changed)
    (hticks : clock.Ticks moment.now) (htimely : engine.IsTimely clock store.ledger) :
    after.IsTimely moment.now changed.ledger := by
  have hnow := htimely.later_clock hticks.isUpTo
  refine ⟨by rw [h.jobs]; exact hnow.spent, ?_⟩
  intro siteId text next hplan hnext
  rw [h.jobs]
  -- A plan that was given at this moment lies after everything that was due before.
  have hreplans : store.Replans moment changed siteId →
      ∀ due, (engine.jobs.standing siteId).IsSpent due → due.isBefore next = true := by
    rintro ⟨hplanned, -⟩ due hspent
    obtain ⟨given, hgives, rfl⟩ := hplanned text hplan
    rw [eq_truncated_of_storedInstant? hgives.1 hnext]
    exact hgives.isBefore hticks (htimely.spent siteId due hspent)
  rcases h.plan siteId with hsame | hnew
  · rw [hsame] at hplan
    rcases htimely.later siteId text next hplan hnext with hearly | hlater
    · rcases h.early siteId hearly with hstill | hnone | hnew
      · exact Or.inl hstill
      · rw [hsame, hplan] at hnone
        cases hnone
      · exact Or.inr (hreplans hnew)
    · exact Or.inr hlater
  · exact Or.inr (hreplans hnew)

theorem IsInStep.advance {clock : Instant} {moment : Moment} {engine after : Engine}
    {store changed : Store} (hstep : engine.IsInStep clock store)
    (hticks : clock.Ticks moment.now) (h : Advances moment engine after store changed) :
    after.IsInStep moment.now changed := by
  obtain ⟨follower, hfollower, hseen, hturn, hknows⟩ := hstep.follower
  refine ⟨h.sound, by rw [h.jobs]; exact hstep.keyed, h.isTimely hticks hstep.timely, follower,
    by rw [h.follower, hfollower], Nat.le_trans hseen h.sent_le, ?_, ?_⟩
  · unfold Follower.IsInTurn at hturn ⊢
    rw [h.orders, h.jobs]
    exact hturn
  · unfold Follower.Knows at hknows ⊢
    cases hsnapshot : follower.snapshot with
    | none =>
      rw [hsnapshot] at hknows
      intro siteId
      by_cases hnew : store.Replans moment changed siteId
      · exact Or.inl (hnew.2 follower.seen hseen)
      · exact (hknows siteId).imp (h.awaits follower.seen siteId hseen) (h.isSettled hnew)
    | some sites =>
      rw [hsnapshot] at hknows
      obtain ⟨hnodup, hrecords, hsettled⟩ := hknows
      refine ⟨hnodup, ?_, ?_⟩
      · intro siteId
        rcases h.plan siteId with hsame | hnew
        · exact (hrecords siteId).imp (h.awaits follower.seen siteId hseen)
            fun hrecord => hrecord.of_plan_eq hsame
        · exact Or.inl (hnew.2 follower.seen hseen)
      · by_cases hlt : follower.seen < changed.feed.sent
        · exact Or.inl hlt
        · right
          intro siteId
          have hsame : follower.seen = store.feed.sent := by have := h.sent_le; omega
          have hquiet : ¬store.Replans moment changed siteId := by
            intro hnew
            have hawaits := hnew.2 follower.seen hseen
            have hall : follower.seen = changed.feed.sent := by have := h.sent_le; omega
            rw [hall] at hawaits
            exact changed.feed.not_awaits_sent siteId hawaits
          exact h.isSettled hquiet (hsettled.resolve_left (by omega) siteId)

end Engine

end KeepAlive
