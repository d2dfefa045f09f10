import KeepAlive.Proofs.Engine.Following
import KeepAlive.Proofs.Engine.Parts
import KeepAlive.Proofs.Engine.Restarting
import KeepAlive.Proofs.Engine.Starting

/-!
# Runs of an engine

A run begins when an engine is started on a store.  Whatever the time zone, the policies and the
clock are, the engine stays orderly: its follower has had no event that was not sent and asks the
table one question at a time, and the rows of the store are such as the library writes.
-/

namespace KeepAlive

open Browser Time

namespace Engine

variable {σ : Type}

/-- What an engine and its surroundings can come to.  Somebody asks for operations on the store, the
parts of the engine go on, and attempts break off, in any order.  The clock never shows a leap
second. -/
inductive Run : Engine → Surroundings σ → Prop
  | started {around after : Surroundings σ} {engine : Engine} {moment : Moment}
      {moments : Int → Moment} {grace : Nat} (hcourse : Workshop.Course ⟨around, []⟩)
      (hwhole : around.store.feed.IsWhole)
      (hnanos : ∀ siteId, (moments siteId).now.nano < nanosPerSecond)
      (hstart : Workshop.start ⟨around, []⟩ moment moments grace =
        (.ok (), ⟨after, [(none, engine)]⟩)) : Run engine after
  | operated {engine : Engine} {around : Surroundings σ} (h : Run engine around)
      (operation : Operation) (moment : Moment) (hnano : moment.now.nano < nanosPerSecond) :
      Run engine { around with store := operation.applied moment around.store }
  | performed {engine : Engine} {around : Surroundings σ} (h : Run engine around) (chore : Chore)
      (supply : Supply σ) (hnano : supply.moment.now.nano < nanosPerSecond)
      (hallowed : engine.Allows chore) :
      Run (engine.perform supply around chore).1 (engine.perform supply around chore).2
  | broke {engine : Engine} {around : Surroundings σ} (h : Run engine around) (place : Nat)
      (ending : Ending) : Run (engine.broken place ending) around
  | passed {engine : Engine} {around : Surroundings σ} (h : Run engine around) (time : Nat) :
      Run engine { around with time }

/-- The rows of the store are such as the library writes, its feed is whole, and the follower of the
engine takes its turns. -/
structure IsOrderly (engine : Engine) (store : Store) (follower : Follower) : Prop where
  written : store.ledger.IsWritten
  whole : store.feed.IsWhole
  keyed : engine.jobs.waiting.IsKeyed
  follows : engine.follower = some follower
  seen_le : follower.seen ≤ store.feed.sent
  turn : follower.IsInTurn engine
  nodup : ∀ sites, follower.snapshot = some sites → (sites.map (·.id)).Nodup

/-! ### What a chore does besides the store -/

/-- The bodies that a chore starts. -/
def starts (engine : Engine) (supply : Supply σ) : Chore → List Start
  | .fire => (engine.jobs.fire supply.moment.now).2
  | _ => []

/-- What an engine with a follower can go over to, and the bodies that start meanwhile. -/
inductive Moves (engine : Engine) (store : Store) (follower : Follower) :
    Engine → Follower → List Start → Prop
  | rested {after : Engine} (hjobs : after.jobs = engine.jobs)
      (horders : after.orders = engine.orders) (hfollower : after.follower = some follower) :
      Moves engine store follower after follower []
  | obeyed {order : Order} {rest : List Order} (horders : engine.orders = order :: rest) :
      Moves engine store follower engine.obey
        (if order = .report then { follower with report := some engine.jobs.pending }
          else follower) []
  | fired (now : Instant) (time : Nat) :
      Moves engine store follower (engine.fire now time) follower (engine.jobs.fire now).2
  | learned {site : Int} {rest : List Int} (hfreed : engine.freed = site :: rest) :
      Moves engine store follower engine.learn follower []
  /-- The follower looks at all sites, because it is time to or because it has lost events. -/
  | surveyed {seen nextResync : Nat} {sites : List Site} (hidle : isIdle follower = true)
      (hseen : seen = follower.seen ∨ seen < store.feed.sent)
      (hsites : store.ledger.allSites = .ok sites) :
      Moves engine store follower
        ({ engine with
          follower := some ⟨seen, nextResync, some sites, none⟩ }.ordered [.report])
        ⟨seen, nextResync, some sites, none⟩ []
  /-- It would look at all sites, but not all of them can be read. -/
  | strayed {seen nextResync : Nat} {refusal : Refusal} (hidle : isIdle follower = true)
      (hseen : seen = follower.seen ∨
        (follower.seen + store.feed.capacity < store.feed.sent ∧ seen < store.feed.sent))
      (hsites : store.ledger.allSites = .error refusal) :
      Moves engine store follower { engine with follower := some ⟨seen, nextResync, none, none⟩ }
        ⟨seen, nextResync, none, none⟩ []
  | told {event : Event} (hidle : isIdle follower = true)
      (hlost : ¬follower.seen + store.feed.capacity < store.feed.sent)
      (hlt : follower.seen < store.feed.sent)
      (htake : store.feed.kept.take (store.feed.sent - follower.seen) =
        store.feed.kept.take (store.feed.sent - (follower.seen + 1)) ++ [event]) :
      Moves engine store follower
        ({ engine with
          follower := some ⟨follower.seen + 1, follower.nextResync, none, none⟩ }.ordered
            (orderAfter store.ledger event).toList)
        ⟨follower.seen + 1, follower.nextResync, none, none⟩ []
  /-- It has its answer and sends its orders. -/
  | answered {sites : List Site} {waiting : Slots} (hsnapshot : follower.snapshot = some sites)
      (hreport : follower.report = some waiting) :
      Moves engine store follower
        ({ engine with
          follower := some ⟨follower.seen, follower.nextResync, none, none⟩ }.ordered
            (resyncOrders sites waiting))
        ⟨follower.seen, follower.nextResync, none, none⟩ []

section

variable {engine after : Engine} {store : Store} {follower told : Follower}

theorem siteId?_orderAfter {ledger : Ledger} {event : Event} {order : Order}
    (h : orderAfter ledger event = some order) : order.siteId? = some event.siteId := by
  have hsync (horder : syncOrder ledger event.siteId = some order) :
      order.siteId? = some event.siteId := by
    unfold syncOrder at horder
    split at horder
    · rename_i site hsite
      rw [siteId?_orderFor horder, Ledger.id_of_site hsite]
    · cases horder
      rfl
    · cases horder
  unfold orderAfter at h
  split at h
  · cases h
    rfl
  · cases h
    rfl
  · exact hsync h

theorem moves_beginResync (hidle : isIdle follower = true) (hanswer : follower.report = none)
    {seen nextResync : Nat} (hseen : seen = follower.seen ∨
      (follower.seen + store.feed.capacity < store.feed.sent ∧ seen < store.feed.sent)) :
    ∃ told, engine.Moves store follower
      (engine.beginResync { follower with seen, nextResync } store.ledger) told [] ∧
        told.seen = seen := by
  have hsnapshot : follower.snapshot = none := by simpa [isIdle] using hidle
  unfold beginResync
  rw [hsnapshot, hanswer]
  cases hsites : store.ledger.allSites with
  | error refusal => exact ⟨_, .strayed hidle hseen hsites, rfl⟩
  | ok sites => exact ⟨_, .surveyed hidle (hseen.imp_right And.right) hsites, rfl⟩

theorem IsOrderly.moves_follow (h : engine.IsOrderly store follower)
    (hidle : isIdle follower = true) :
    ∃ told, engine.Moves store follower (engine.follow store) told [] := by
  obtain ⟨hsnapshot, hanswer, -⟩ := h.turn.of_idle hidle
  by_cases hlost : follower.seen + store.feed.capacity < store.feed.sent
  · rw [follow_of_lagged h.follows (Feed.read_of_lost hlost)]
    have hpos := h.whole.capacity_pos
    obtain ⟨told, hmoves, -⟩ := @moves_beginResync engine store follower hidle hanswer
      (store.feed.sent - store.feed.capacity) follower.nextResync (Or.inr ⟨hlost, by omega⟩)
    exact ⟨told, hmoves⟩
  by_cases hlt : follower.seen < store.feed.sent
  · obtain ⟨event, hread, htake⟩ := h.whole.read_of_lt hlost hlt
    rw [follow_of_event h.follows hread, hsnapshot, hanswer]
    exact ⟨_, .told hidle hlost hlt htake⟩
  · rw [follow_of_empty h.follows (h.whole.read_of_sent hlost hlt)]
    exact ⟨_, .rested rfl rfl h.follows⟩

theorem IsOrderly.moves_endResync (h : engine.IsOrderly store follower) :
    ∃ told, engine.Moves store follower engine.endResync told [] ∧ told.seen = follower.seen := by
  unfold endResync
  rw [h.follows]
  obtain ⟨seen, nextResync, snapshot, report⟩ := follower
  cases snapshot with
  | none => exact ⟨_, .rested rfl rfl h.follows, rfl⟩
  | some sites =>
    cases report with
    | none => exact ⟨_, .rested rfl rfl h.follows, rfl⟩
    | some waiting => exact ⟨_, .answered rfl rfl, rfl⟩

/-- Whatever chore an engine does, this is what it does besides the store.  Only a follower that
follows the feed comes to have had more events. -/
theorem IsOrderly.moves {supply : Supply σ} {around : Surroundings σ}
    (h : engine.IsOrderly around.store follower) {chore : Chore} (hallowed : engine.Allows chore) :
    ∃ told, engine.Moves around.store follower (engine.perform supply around chore).1 told
      (engine.starts supply chore) ∧ (chore = .follow ∨ told.seen = follower.seen) := by
  cases chore with
  | endResync =>
    obtain ⟨told, hmoves, hseen⟩ := h.moves_endResync
    exact ⟨told, hmoves, Or.inr hseen⟩
  | obey =>
    cases horders : engine.orders with
    | nil =>
      refine ⟨follower, ?_, Or.inr rfl⟩
      rw [perform, obey_of_nil horders]
      exact .rested rfl rfl h.follows
    | cons order rest => exact ⟨_, .obeyed horders, Or.inr (by split <;> rfl)⟩
  | fire => exact ⟨_, .fired supply.moment.now around.time, Or.inr rfl⟩
  | resync =>
    have hidle := hallowed follower h.follows
    rw [perform, resync, h.follows]
    obtain ⟨told, hmoves, hseen⟩ := @moves_beginResync engine around.store follower hidle
      (h.turn.of_idle hidle).2.1 follower.seen _ (Or.inl rfl)
    exact ⟨told, hmoves, Or.inr hseen⟩
  | proceed place =>
    refine ⟨follower, ?_, Or.inr rfl⟩
    simp only [perform, proceed]
    cases engine.attempts[place]? with
    | none => exact .rested rfl rfl h.follows
    | some attempt =>
      simp only
      split <;> exact .rested rfl rfl h.follows
  | follow =>
    obtain ⟨told, hmoves⟩ := h.moves_follow (hallowed follower h.follows)
    exact ⟨told, hmoves, Or.inl rfl⟩
  | learn =>
    cases hfreed : engine.freed with
    | nil =>
      refine ⟨follower, ?_, Or.inr rfl⟩
      rw [perform, learn_of_nil hfreed]
      exact .rested rfl rfl h.follows
    | cons site rest => exact ⟨_, .learned hfreed, Or.inr rfl⟩
  | reconcile =>
    refine ⟨follower, ?_, Or.inr rfl⟩
    simp only [perform, reconcile]
    cases engine.faults with
    | nil => exact .rested rfl rfl h.follows
    | cons fault rest => exact .rested rfl rfl h.follows

theorem moves_broken (h : engine.follower = some follower) (place : Nat) (ending : Ending) :
    engine.Moves store follower (engine.broken place ending) follower [] := by
  obtain ⟨hjobs, horders, hfollower⟩ := engine.broken_same place ending
  exact .rested hjobs horders (hfollower.trans h)

/-! ### An engine stays orderly -/

/-- An engine that is out of its round has asked nothing, and goes on with what it is told. -/
theorem IsOrderly.of_told (h : engine.IsOrderly store follower) {seen nextResync : Nat}
    (hseen : seen ≤ store.feed.sent) {orders : List Order} (hreport : .report ∉ engine.orders)
    (horders : .report ∉ orders) :
    ({ engine with follower := some ⟨seen, nextResync, none, none⟩ }.ordered orders).IsOrderly store
      ⟨seen, nextResync, none, none⟩ := by
  refine ⟨h.written, h.whole, h.keyed, rfl, hseen, ?_, nofun⟩
  intro hmem
  rcases List.mem_append.1 hmem with hmem | hmem
  · exact hreport hmem
  · exact horders hmem

theorem IsOrderly.move {starts : List Start} (h : engine.IsOrderly store follower)
    (hmoves : engine.Moves store follower after told starts) : after.IsOrderly store told := by
  cases hmoves with
  | rested hjobs horders hfollower =>
    refine ⟨h.written, h.whole, hjobs ▸ h.keyed, hfollower, h.seen_le, ?_, h.nodup⟩
    exact h.turn.of_waiting horders fun siteId hnone => by rw [hjobs]; exact hnone
  | obeyed horders =>
    -- The report is the one order that the follower hears of.
    rename_i order rest
    have hturn := @isInTurn_obey engine engine.obey order rest follower h.turn h.keyed horders
    rw [obey_eq horders h.follows] at hturn ⊢
    refine ⟨h.written, h.whole, Jobs.isKeyed_waiting_obey h.keyed order, rfl, ?_, hturn rfl rfl, ?_⟩
    · split <;> exact h.seen_le
    · intro sites hsites
      split at hsites <;> exact h.nodup sites hsites
  | fired now time =>
    refine ⟨h.written, h.whole, Jobs.isKeyed_waiting_fire h.keyed now, h.follows, h.seen_le, ?_,
      h.nodup⟩
    refine h.turn.of_waiting rfl fun siteId hnone => ?_
    rw [standing_engine_fire h.keyed, Standing.waiting_fired_of_not_ready
      (by simp [Standing.ready?, hnone])]
    exact hnone
  | learned hfreed =>
    rename_i site rest
    have hstanding := standing_learn hfreed
    rw [learn_of_cons hfreed] at hstanding ⊢
    refine ⟨h.written, h.whole, Jobs.isKeyed_waiting_finish h.keyed site, h.follows, h.seen_le, ?_,
      h.nodup⟩
    exact h.turn.of_waiting rfl fun siteId hnone => (hstanding siteId).1.trans hnone
  | surveyed hidle hseen hsites =>
    obtain ⟨-, -, hreport⟩ := h.turn.of_idle hidle
    have hle := h.seen_le
    refine ⟨h.written, h.whole, h.keyed, rfl, ?_, ⟨engine.orders, rfl, hreport⟩, ?_⟩
    · simp only
      omega
    · rintro _ ⟨rfl⟩
      exact h.written.nodup_allSites hsites
  | strayed hidle hseen =>
    rename_i seen nextResync refusal hsites
    have hle := h.seen_le
    have hsame : { engine with follower := some ⟨seen, nextResync, none, none⟩ } =
        { engine with follower := some ⟨seen, nextResync, none, none⟩ }.ordered [] := by
      rw [ordered, List.append_nil]
    rw [hsame]
    exact h.of_told (by omega) (h.turn.of_idle hidle).2.2 List.not_mem_nil
  | told hidle hlost hlt =>
    refine h.of_told hlt (h.turn.of_idle hidle).2.2 fun hmem => ?_
    cases siteId?_orderAfter (Option.mem_toList.1 hmem)
  | answered hsnapshot hreport =>
    have hturn := h.turn
    unfold Follower.IsInTurn at hturn
    rw [hsnapshot, hreport] at hturn
    exact h.of_told h.seen_le (hturn.1 ▸ List.not_mem_nil) (report_not_mem_resyncOrders _ _)

theorem IsOrderly.applied (h : engine.IsOrderly store follower) {moment : Moment}
    (hnano : moment.now.nano < nanosPerSecond) (operation : Operation) :
    engine.IsOrderly (operation.applied moment store) follower := by
  obtain ⟨hwhole, hsent⟩ := Store.isWhole_applied h.whole operation moment
  exact ⟨Store.isWritten_applied h.written hnano operation, hwhole, h.keyed, h.follows,
    Nat.le_trans h.seen_le hsent, h.turn, h.nodup⟩

end

end Engine

/-! ### An engine is orderly from its start -/

namespace Recovery

/-- The feed has gone on from where it was, and the orders are such as a recovery gives. -/
structure IsFollowed (seen : Nat) (recovery : Recovery) : Prop where
  whole : recovery.store.feed.IsWhole
  seen_le : seen ≤ recovery.store.feed.sent
  report : .report ∉ recovery.orders

theorem IsFollowed.turn {seen : Nat} {recovery : Recovery} (h : recovery.IsFollowed seen)
    (moments : Int → Moment) (cut : Instant) (site : Site) :
    (turn moments cut recovery site).IsFollowed seen := by
  have hrefreshed : (refreshed recovery.store (moments site.id) cut site).2.feed.IsWhole ∧
      seen ≤ (refreshed recovery.store (moments site.id) cut site).2.feed.sent := by
    unfold refreshed
    split
    · cases hchange : recovery.store.ledger.reschedule (moments site.id) site.id with
      | error refusal =>
        rw [Store.perform_of_refused hchange]
        exact ⟨h.whole, h.seen_le⟩
      | ok change =>
        rw [Store.perform_of_ok hchange]
        exact ⟨h.whole.publishAll _, Nat.le_trans h.seen_le (h.whole.sent_le_publishAll _)⟩
    · exact ⟨h.whole, h.seen_le⟩
  unfold Recovery.turn
  split
  · exact h
  · simp only
    split
    · exact ⟨hrefreshed.1, hrefreshed.2, h.report⟩
    · split
      · exact ⟨hrefreshed.1, hrefreshed.2, h.report⟩
      · refine ⟨hrefreshed.1, hrefreshed.2, fun hmem => ?_⟩
        rcases List.mem_append.1 hmem with hmem | hmem
        · exact h.report hmem
        · cases List.mem_singleton.1 hmem

theorem isFollowed_ofStore {store : Store} (h : store.feed.IsWhole) (moment : Moment)
    (moments : Int → Moment) (grace : Nat) :
    (ofStore store moment moments grace).IsFollowed store.feed.sent := by
  have hfailed {error : Option RecoveryError} : IsFollowed store.feed.sent
      { store := store.commit (store.ledger.failStale moment.now interrupted), error } :=
    ⟨h.publishAll _, h.sent_le_publishAll _, List.not_mem_nil⟩
  have hturns (cut : Instant) (sites : List Site) {recovery : Recovery}
      (hrecovery : recovery.IsFollowed store.feed.sent) :
      (sites.foldl (turn moments cut) recovery).IsFollowed store.feed.sent := by
    induction sites generalizing recovery with
    | nil => exact hrecovery
    | cons site rest ih => exact ih (hrecovery.turn moments cut site)
  unfold ofStore
  simp only
  split
  · exact hfailed
  · split
    · exact hfailed
    · exact hturns _ _ hfailed

end Recovery

namespace Engine

variable {σ : Type} {engine : Engine}

theorem isOrderly_start {around after : Surroundings σ} {moment : Moment} {moments : Int → Moment}
    {grace : Nat} (hwritten : around.store.ledger.IsWritten) (hwhole : around.store.feed.IsWhole)
    (hnanos : ∀ siteId, (moments siteId).now.nano < nanosPerSecond)
    (hstart : Workshop.start ⟨around, []⟩ moment moments grace =
      (.ok (), ⟨after, [(none, engine)]⟩)) :
    ∃ follower, engine.IsOrderly after.store follower := by
  cases herror : (Recovery.ofStore around.store moment moments grace).error with
  | some error =>
    unfold Workshop.start at hstart
    simp only [herror] at hstart
    cases hstart
  | none =>
    have hfollowed := Recovery.isFollowed_ofStore hwhole moment moments grace
    rw [start_of_recovered rfl herror] at hstart
    cases hstart
    exact ⟨_, Recovery.isWritten_ofStore hwritten moment hnanos grace, hfollowed.whole, .nil, rfl,
      hfollowed.seen_le, hfollowed.report, nofun⟩

theorem IsOrderly.perform {supply : Supply σ} {around : Surroundings σ} {follower told : Follower}
    {starts : List Start} {chore : Chore} (h : engine.IsOrderly around.store follower)
    (hnano : supply.moment.now.nano < nanosPerSecond)
    (hmoves : engine.Moves around.store follower (engine.perform supply around chore).1 told
      starts) :
    (engine.perform supply around chore).1.IsOrderly (engine.perform supply around chore).2.store
      told := by
  have hmove := h.move hmoves
  rw [store_perform]
  cases engine.asked supply chore with
  | none => exact hmove
  | some operation => exact hmove.applied hnano operation

/-- An engine is orderly in the whole course of its run. -/
theorem Run.exists_isOrderly {around : Surroundings σ} (h : Run engine around) :
    ∃ follower, engine.IsOrderly around.store follower := by
  induction h with
  | started hcourse hwhole hnanos hstart =>
    exact isOrderly_start hcourse.isWritten hwhole hnanos hstart
  | operated _ operation moment hnano ih =>
    obtain ⟨follower, horderly⟩ := ih
    exact ⟨follower, horderly.applied hnano operation⟩
  | performed _ chore supply hnano hallowed ih =>
    obtain ⟨follower, horderly⟩ := ih
    obtain ⟨told, hmoves, -⟩ := horderly.moves hallowed
    exact ⟨told, horderly.perform hnano hmoves⟩
  | broke _ place ending ih =>
    obtain ⟨follower, horderly⟩ := ih
    exact ⟨follower, horderly.move (moves_broken horderly.follows place ending)⟩
  | passed _ time ih => exact ih

end Engine

end KeepAlive
