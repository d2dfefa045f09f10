import KeepAlive.Proofs.Engine.InStep

/-!
# The follower keeps in step

The follower takes the next event, or it goes through all sites.  It sends the orders that the ledger
asked for when it looked; what has changed since is announced, and the follower is still to be told.
-/

namespace KeepAlive

open Time

/-- A follower that is not going through all sites has asked nothing of the table. -/
theorem Follower.IsInTurn.of_idle {follower : Follower} {engine : Engine}
    (h : follower.IsInTurn engine) (hidle : Engine.isIdle follower = true) :
    follower.snapshot = none ∧ follower.report = none ∧ .report ∉ engine.orders := by
  have hsnapshot : follower.snapshot = none := by simpa [Engine.isIdle] using hidle
  unfold IsInTurn at h
  rw [hsnapshot] at h
  cases hanswer : follower.report with
  | none => exact ⟨hsnapshot, rfl, by simpa [hanswer] using h⟩
  | some waiting =>
    rw [hanswer] at h
    exact h.elim

namespace Engine

theorem isSettled_ordered {engine : Engine} {ledger : Ledger} {siteId : Int} {orders : List Order}
    (h : engine.IsSettled ledger siteId) (hothers : lastAbout orders siteId = none) :
    (engine.ordered orders).IsSettled ledger siteId := by
  refine h.of_waiting ?_ rfl id
  rw [ordered, lastAbout_append, hothers, Option.none_or]

theorem isSettled_of_last {engine : Engine} {ledger : Ledger} {siteId : Int} {orders : List Order}
    {order : Order} (hasks : ledger.Asks siteId order)
    (hlast : lastAbout orders siteId = some order) :
    (engine.ordered orders).IsSettled ledger siteId := by
  refine ⟨order, hasks, Or.inl ?_⟩
  rw [ordered, lastAbout_append, hlast, Option.some_or]

/-- The follower looks at all sites. -/
theorem IsInStep.beginResync {clock : Instant} {engine : Engine} {store : Store}
    (h : engine.IsInStep clock store) (hreport : .report ∉ engine.orders) {follower : Follower}
    (hnone : follower.report = none) (hseen : follower.seen ≤ store.feed.sent)
    (hsettled : follower.seen < store.feed.sent ∨ ∀ siteId, engine.IsSettled store.ledger siteId)
    (hreads : IsReadable store.ledger.allSites) :
    (engine.beginResync follower store.ledger).IsInStep clock store := by
  unfold Engine.beginResync
  cases hall : store.ledger.allSites with
  | error refusal =>
    obtain ⟨cause, hcause⟩ := Ledger.allSites_eq_error hall
    exact absurd (hall.trans (congrArg _ hcause)) (hreads cause)
  | ok sites =>
    change ({ engine with
      follower := some { follower with snapshot := some sites } }.ordered [.report]).IsInStep _ _
    have hledger := h.sound.ledger
    refine ⟨h.sound, h.keyed, h.timely.of_spent (fun _ _ => id) fun _ => id, _, rfl, hseen, ?_,
      hledger.nodup_allSites hall, fun siteId => Or.inr (hledger.records_allSites hall siteId), ?_⟩
    · simp only [Follower.IsInTurn, hnone]
      exact ⟨engine.orders, rfl, hreport⟩
    · refine hsettled.imp_right fun hall siteId => ?_
      exact isSettled_ordered (hall siteId) rfl

theorem IsInStep.resync {clock : Instant} {engine : Engine} {store : Store}
    (h : engine.IsInStep clock store) (hallowed : engine.Allows .resync)
    (hreads : IsReadable store.ledger.allSites) :
    (engine.resync store.ledger).IsInStep clock store := by
  obtain ⟨follower, hfollower, hseen, hturn, hknows⟩ := h.follower
  obtain ⟨hidle, hanswer, hreport⟩ := hturn.of_idle (hallowed follower hfollower)
  unfold Engine.resync
  rw [hfollower]
  refine h.beginResync hreport hanswer hseen ?_ hreads
  by_cases hlt : follower.seen < store.feed.sent
  · exact Or.inl hlt
  · right
    intro siteId
    unfold Follower.Knows at hknows
    have hall : follower.seen = store.feed.sent := by omega
    rw [hidle, hall] at hknows
    exact (hknows siteId).resolve_left (store.feed.not_awaits_sent siteId)

section

variable {engine : Engine} {store : Store} {follower : Follower}

theorem follow_of_event (hfollower : engine.follower = some follower) {event : Event} {seen : Nat}
    (hread : store.feed.read follower.seen = (.event event, seen)) :
    engine.follow store = { engine with follower := some { follower with seen } }.ordered
      (orderAfter store.ledger event).toList := by
  unfold Engine.follow
  rw [hfollower]
  simp only [hread]

theorem follow_of_lagged (hfollower : engine.follower = some follower) {missed seen : Nat}
    (hread : store.feed.read follower.seen = (.lagged missed, seen)) :
    engine.follow store = engine.beginResync { follower with seen } store.ledger := by
  unfold Engine.follow
  rw [hfollower]
  simp only [hread]

theorem follow_of_empty (hfollower : engine.follower = some follower) {seen : Nat}
    (hread : store.feed.read follower.seen = (.empty, seen)) : engine.follow store = engine := by
  unfold Engine.follow
  rw [hfollower]
  simp only [hread]

/-- An event that is taken settles its site, unless there is more to come about it. -/
theorem isSettled_event {event : Event} (hsound : store.IsSound)
    (htake : store.feed.kept.take (store.feed.sent - follower.seen) =
      store.feed.kept.take (store.feed.sent - (follower.seen + 1)) ++ [event])
    (hreads : event.IsWithdrawal ∨ IsReadable (store.ledger.site event.siteId))
    (hmore : ¬store.feed.Awaits (follower.seen + 1) event.siteId) :
    (engine.ordered (orderAfter store.ledger event).toList).IsSettled store.ledger
      event.siteId := by
  rcases hsound.ledger.asks_orderAfter hreads with ⟨hwithdrawal, horder⟩ | ⟨order, horder, hasks⟩
  · -- With no later event about the site, the withdrawal still holds.
    have hlatest := Feed.find?_kept_of_take htake rfl hmore
    have hplan := hsound.withdrawn event.siteId event hlatest hwithdrawal
    rw [horder]
    refine isSettled_of_last (Ledger.asks_remove hplan) ?_
    rw [Option.toList_some, lastAbout_singleton]
    exact if_pos rfl
  · rw [horder]
    refine isSettled_of_last hasks ?_
    rw [Option.toList_some, lastAbout_singleton, if_pos hasks.siteId?_eq]

theorem exists_orderAfter {event : Event} (hsound : store.IsSound)
    (hreads : event.IsWithdrawal ∨ IsReadable (store.ledger.site event.siteId)) :
    ∃ order, orderAfter store.ledger event = some order ∧
      order.siteId? = some event.siteId := by
  rcases hsound.ledger.asks_orderAfter hreads with ⟨-, horder⟩ | ⟨order, horder, hasks⟩
  · exact ⟨_, horder, rfl⟩
  · exact ⟨order, horder, hasks.siteId?_eq⟩

/-- The follower takes the next event. -/
theorem IsInStep.follow {clock : Instant} (h : engine.IsInStep clock store)
    (hallowed : engine.Allows .follow)
    (hreads : ∀ follower, engine.follower = some follower →
      match (store.feed.read follower.seen).1 with
      | .event event => event.IsWithdrawal ∨ IsReadable (store.ledger.site event.siteId)
      | .lagged _ => IsReadable store.ledger.allSites
      | .empty | .closed => True) :
    (engine.follow store).IsInStep clock store := by
  obtain ⟨follower, hfollower, hseen, hturn, hknows⟩ := h.follower
  obtain ⟨hidle, hanswer, hreport⟩ := hturn.of_idle (hallowed follower hfollower)
  have hreads := hreads follower hfollower
  have hfeed := h.sound.feed
  by_cases hlost : follower.seen + store.feed.capacity < store.feed.sent
  · -- Some events are lost, so the follower looks at all sites.
    have hread := Feed.read_of_lost hlost
    simp only [hread] at hreads
    rw [follow_of_lagged hfollower hread]
    have hpos := hfeed.capacity_pos
    exact h.beginResync hreport hanswer (Nat.sub_le _ _) (Or.inl (by simp only; omega)) hreads
  by_cases hlt : follower.seen < store.feed.sent
  · obtain ⟨event, hread, htake⟩ := hfeed.read_of_lt hlost hlt
    simp only [hread] at hreads
    obtain ⟨order, horder, hid⟩ := exists_orderAfter h.sound hreads
    rw [follow_of_event hfollower hread]
    unfold Follower.Knows at hknows
    rw [hidle] at hknows
    refine ⟨h.sound, h.keyed, h.timely.of_spent (fun _ _ => id) fun _ => id, _, rfl, hlt, ?_, ?_⟩
    · simp only [Follower.IsInTurn, hidle, hanswer]
      intro hmem
      rcases List.mem_append.1 hmem with hmem | hmem
      · exact hreport hmem
      · rw [horder, Option.toList_some, List.mem_singleton] at hmem
        rw [← hmem] at hid
        cases hid
    · unfold Follower.Knows
      simp only [hidle]
      intro siteId
      by_cases hmore : store.feed.Awaits (follower.seen + 1) siteId
      · exact Or.inl hmore
      right
      by_cases hsite : event.siteId = siteId
      · subst hsite
        exact isSettled_event h.sound htake hreads hmore
      · have hother : lastAbout (orderAfter store.ledger event).toList siteId = none := by
          rw [horder, Option.toList_some, lastAbout_singleton, hid,
            if_neg fun heq => hsite (Option.some.inj heq)]
        refine isSettled_ordered ((hknows siteId).resolve_left ?_) hother
        rintro (hlagging | ⟨other, hother, hid⟩)
        · exact hlost hlagging
        · rw [htake] at hother
          rcases List.mem_append.1 hother with hother | hother
          · exact hmore (Or.inr ⟨other, hother, hid⟩)
          · rw [List.mem_singleton.1 hother] at hid
            exact hsite hid
  · -- There is nothing to read.
    rw [follow_of_empty hfollower (hfeed.read_of_sent hlost hlt)]
    exact h

/-- The follower has its answer and sends its orders. -/
theorem IsInStep.endResync {clock : Instant} (h : engine.IsInStep clock store) :
    engine.endResync.IsInStep clock store := by
  obtain ⟨follower, hfollower, hseen, hturn, hknows⟩ := h.follower
  obtain ⟨seen, nextResync, snapshot, report⟩ := follower
  unfold Engine.endResync
  rw [hfollower]
  cases snapshot with
  | none => exact h
  | some sites =>
  cases report with
  | none => exact h
  | some waiting =>
    obtain ⟨horders, htold⟩ := hturn
    obtain ⟨hnodup, hrecords, -⟩ := hknows
    refine ⟨h.sound, h.keyed, h.timely.of_spent (fun _ _ => id) fun _ => id, _, rfl, hseen, ?_, ?_⟩
    · simp only [Follower.IsInTurn, ordered, horders, List.nil_append]
      exact report_not_mem_resyncOrders sites waiting
    · intro siteId
      refine (hrecords siteId).imp_right fun ⟨order, hasks, hrecord⟩ => ?_
      rcases hrecord with ⟨site, hsite, rfl, horder⟩ | ⟨hgone, rfl⟩
      · exact isSettled_of_last hasks (lastAbout_resyncOrders_of_mem hnodup waiting hsite horder)
      have hlast : lastAbout (resyncOrders sites waiting) siteId = _ :=
        lastAbout_resyncOrders_of_gone hgone
      split at hlast
      · exact isSettled_of_last hasks hlast
      · rename_i hnone
        refine ⟨_, hasks, Or.inr ⟨?_, ?_⟩⟩
        · change lastAbout (engine.orders ++ resyncOrders sites waiting) siteId = none
          rw [lastAbout_append, hlast, horders]
          rfl
        · change (engine.jobs.standing siteId).waiting = none
          cases hwaiting : (engine.jobs.standing siteId).waiting with
          | none => rfl
          | some next =>
            have hsome : (engine.jobs.standing siteId).waiting ≠ none := by
              rw [hwaiting]
              exact Option.some_ne_none _
            exact absurd (htold siteId hsome) hnone

end

end Engine

end KeepAlive
