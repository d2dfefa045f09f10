import KeepAlive.Proofs.Engine.Drawing
import KeepAlive.Proofs.Engine.Orderly
import KeepAlive.Proofs.Ledger.Sparing

/-!
# Triggered sites

Triggering a site makes the present its next run.  The follower is told of it, or finds out when it
goes through all sites, and the table gets the job.  Nothing takes the job away before an attempt
starts, except a draw of the next run of the site.  An attempt that is in flight draws when it
enters its row and again when it finishes it, and so it takes the trigger back.
-/

namespace KeepAlive

open Browser Time

namespace Engine

variable {σ : Type}

/-- What the chore of an engine draws for a site. -/
def drawn? (engine : Engine) (supply : Supply σ) (ledger : Ledger) (siteId : Int) (chore : Chore) :
    Option Instant :=
  (engine.asked supply chore).bind (·.drawn? supply.moment ledger siteId)

/-- A follower that has lost events is able to look at all sites. -/
def Catches (engine : Engine) (store : Store) : Prop :=
  ∀ follower, engine.follower = some follower →
    follower.seen + store.feed.capacity < store.feed.sent → IsReadable store.ledger.allSites

/-- What an engine and its surroundings can come to when a site has been triggered at an instant,
with the bodies of the site that have started since, and what has been drawn for the site last.  No
body that ran before was due in the same millisecond.  Since then nobody pauses, deletes or triggers
the site, nor gives it another policy.  Any attempt may break off; what follows on a missed job does
not. -/
inductive Triggered (siteId : Int) (instant : Instant) :
    List Start → Option Instant → Engine → Surroundings σ → Prop
  | triggered {engine : Engine} {around : Surroundings σ} (h : Run engine around) {moment : Moment}
      (hinstant : moment.now = instant) (hnano : instant.nano < nanosPerSecond)
      (hyear : instant.HasPlainYear)
      (hfree : ∀ due, (engine.jobs.standing siteId).IsSpent due →
        due.isBefore instant.truncated = true) {site : Site} {store : Store}
      (htrigger : around.store.perform (·.triggerNow moment siteId) = (.ok site, store)) :
      Triggered siteId instant [] none engine { around with store }
  | operated {since : List Start} {drawn : Option Instant} {engine : Engine}
      {around : Surroundings σ} (h : Triggered siteId instant since drawn engine around)
      (operation : Operation) (hspares : operation.Spares around.store.ledger siteId)
      (moment : Moment) (hnano : moment.now.nano < nanosPerSecond) :
      Triggered siteId instant since
        ((operation.drawn? moment around.store.ledger siteId).or drawn) engine
        { around with store := operation.applied moment around.store }
  | performed {since : List Start} {drawn : Option Instant} {engine : Engine}
      {around : Surroundings σ} (h : Triggered siteId instant since drawn engine around)
      (chore : Chore) (supply : Supply σ) (hnano : supply.moment.now.nano < nanosPerSecond)
      (hallowed : engine.Allows chore)
      (hcatches : chore = .follow → engine.Catches around.store) :
      Triggered siteId instant
        (since ++ (engine.starts supply chore).filter (·.site = siteId))
        ((engine.drawn? supply around.store.ledger siteId chore).or drawn)
        (engine.perform supply around chore).1 (engine.perform supply around chore).2
  | broke {since : List Start} {drawn : Option Instant} {engine : Engine}
      {around : Surroundings σ} (h : Triggered siteId instant since drawn engine around)
      (place : Nat) {attempt : Attempt} (hattempt : engine.attempts[place]? = some attempt)
      (hstage : attempt.stage ≠ .missed) (ending : Ending) :
      Triggered siteId instant since drawn (engine.broken place ending) around
  | passed {since : List Start} {drawn : Option Instant} {engine : Engine}
      {around : Surroundings σ} (h : Triggered siteId instant since drawn engine around)
      (time : Nat) : Triggered siteId instant since drawn engine { around with time }

/-- The table has the job of a site at an instant, or is about to get it. -/
def Holds (engine : Engine) (siteId : Int) (next : Instant) : Prop :=
  lastAbout engine.orders siteId = some (.install siteId next) ∨
    (lastAbout engine.orders siteId = none ∧
      (engine.jobs.standing siteId).waiting = some next)

/-- The follower is still to be told of a site, or the table holds its job at an instant. -/
def Minds (engine : Engine) (store : Store) (follower : Follower) (siteId : Int) (next : Instant) :
    Prop :=
  match follower.snapshot with
  | none => store.feed.Awaits follower.seen siteId ∨ engine.Holds siteId next
  | some sites =>
    (store.feed.Awaits follower.seen siteId ∨ store.ledger.Records sites siteId) ∧
      (follower.seen < store.feed.sent ∨ engine.Holds siteId next)

/-- The plan of a site is an instant, which the table will not refuse, and the engine minds it. -/
structure IsBent (engine : Engine) (store : Store) (follower : Follower) (siteId : Int)
    (instant : Instant) : Prop where
  plan : store.ledger.plan siteId = some (millisText instant)
  free : ∀ due, (engine.jobs.standing siteId).IsSpent due →
    due.isBefore instant.truncated = true
  latest : ∀ event, store.feed.kept.find? (·.siteId = siteId) = some event → ¬event.IsWithdrawal
  minds : engine.Minds store follower siteId instant.truncated

section

variable {engine after : Engine} {store : Store} {follower told : Follower} {siteId : Int}
  {instant next : Instant}

theorem Holds.ordered (h : engine.Holds siteId next) {orders : List Order}
    (horders : lastAbout orders siteId = none) : (engine.ordered orders).Holds siteId next := by
  unfold Holds
  rw [Engine.ordered, lastAbout_append, horders, Option.none_or]
  exact h

theorem holds_of_last {orders : List Order}
    (h : lastAbout orders siteId = some (.install siteId next)) :
    (engine.ordered orders).Holds siteId next := by
  left
  rw [Engine.ordered, lastAbout_append, h, Option.some_or]

theorem Holds.obey (h : engine.Holds siteId next) {order : Order} {rest : List Order}
    (hfree : ∀ due, (engine.jobs.standing siteId).IsSpent due → due.isBefore next = true)
    (horders : engine.orders = order :: rest) (hafter : after.orders = rest)
    (hjobs : after.jobs = engine.jobs.obey order) : after.Holds siteId next := by
  unfold Holds at h ⊢
  rw [horders, lastAbout_cons] at h
  rw [hafter, hjobs]
  cases hrest : lastAbout rest siteId with
  | some last =>
    left
    simpa [hrest] using h
  | none =>
    right
    refine ⟨rfl, ?_⟩
    rw [hrest, Option.none_or, lastAbout_singleton] at h
    by_cases hsite : order.siteId? = some siteId
    · rw [if_pos hsite] at h
      have horder : order = .install siteId next := by simpa using h
      rw [horder, Jobs.obey, Jobs.standing_install, if_pos rfl]
      refine ((engine.jobs.standing siteId).waiting_installed next).resolve_right ?_
      rintro ⟨spent, hspent, hle⟩
      rw [Instant.isUpTo, hfree spent hspent] at hle
      cases hle
    · rw [if_neg hsite] at h
      rw [standing_obey_of_ne engine.jobs hsite]
      simpa using h

/-- What the table is about to get or has stays so as long as the follower minds nothing else. -/
theorem Minds.of_holds (h : engine.Minds store follower siteId next)
    (hsnapshot : told.snapshot = follower.snapshot) (hseen : told.seen = follower.seen)
    (hholds : engine.Holds siteId next → after.Holds siteId next) :
    after.Minds store told siteId next := by
  unfold Minds at h ⊢
  rw [hsnapshot, hseen]
  split at h
  · exact h.imp_right hholds
  · exact ⟨h.1, h.2.imp_right hholds⟩

theorem IsBent.exists_site (h : engine.IsBent store follower siteId instant)
    (hwritten : store.ledger.IsWritten) (hnano : instant.nano < nanosPerSecond)
    (hyear : instant.HasPlainYear) :
    ∃ site, store.ledger.site siteId = .ok site ∧ site.next = some instant.truncated := by
  obtain ⟨site, hsite, -, hnext⟩ :=
    hwritten.exists_site_of_plan h.plan (storedInstant?_millisText hnano hyear 13)
  exact ⟨site, hsite, hnext⟩

/-- Whatever the ledger asks for about the site, it is the job at the instant. -/
theorem IsBent.eq_install (h : engine.IsBent store follower siteId instant)
    (hnano : instant.nano < nanosPerSecond) {order : Order}
    (hasks : store.ledger.Asks siteId order) : order = .install siteId instant.truncated := by
  rcases hasks with ⟨hnone, -⟩ | ⟨text, stored, htext, hstored, rfl⟩
  · rw [h.plan] at hnone
    cases hnone
  · rw [h.plan] at htext
    rw [← Option.some.inj htext] at hstored
    rw [eq_truncated_of_storedInstant? hnano hstored]

/-- The order that follows from the latest event about the site gives it its job. -/
theorem IsBent.orderAfter_eq (h : engine.IsBent store follower siteId instant)
    (hwritten : store.ledger.IsWritten) (hnano : instant.nano < nanosPerSecond)
    (hyear : instant.HasPlainYear) {event : Event} (hevent : event.siteId = siteId)
    (hlatest : ¬event.IsWithdrawal) :
    orderAfter store.ledger event = some (.install siteId instant.truncated) := by
  obtain ⟨site, hsite, -⟩ := h.exists_site hwritten hnano hyear
  have hreads : IsReadable (store.ledger.site event.siteId) := by
    intro cause herror
    rw [hevent, hsite] at herror
    cases herror
  rcases hwritten.asks_orderAfter (Or.inr hreads) with ⟨hwithdrawal, -⟩ | ⟨order, horder, hasks⟩
  · exact absurd hwithdrawal hlatest
  · rw [hevent] at hasks
    rw [horder, h.eq_install hnano hasks]

/-- The follower takes the next event, be it about the site or not. -/
theorem IsBent.minds_told (h : engine.IsBent store follower siteId instant)
    (hwritten : store.ledger.IsWritten) (hnano : instant.nano < nanosPerSecond)
    (hyear : instant.HasPlainYear) (hidle : isIdle follower = true)
    (hlost : ¬follower.seen + store.feed.capacity < store.feed.sent) {event : Event}
    (htake : store.feed.kept.take (store.feed.sent - follower.seen) =
      store.feed.kept.take (store.feed.sent - (follower.seen + 1)) ++ [event]) :
    store.feed.Awaits (follower.seen + 1) siteId ∨
      (engine.ordered (orderAfter store.ledger event).toList).Holds siteId instant.truncated := by
  have hminds := h.minds
  have hsnapshot : follower.snapshot = none := by simpa [isIdle] using hidle
  unfold Minds at hminds
  rw [hsnapshot] at hminds
  by_cases hmore : store.feed.Awaits (follower.seen + 1) siteId
  · exact Or.inl hmore
  right
  by_cases hsite : event.siteId = siteId
  · -- With nothing more to come about the site, this is the latest event about it.
    have hlatest := h.latest event (Feed.find?_kept_of_take htake hsite hmore)
    refine holds_of_last ?_
    rw [h.orderAfter_eq hwritten hnano hyear hsite hlatest, Option.toList_some, lastAbout_singleton]
    exact if_pos rfl
  · refine (hminds.resolve_left ?_).ordered ?_
    · rintro (hlagging | ⟨other, hother, hid⟩)
      · exact hlost hlagging
      · rw [htake] at hother
        rcases List.mem_append.1 hother with hother | hother
        · exact hmore (Or.inr ⟨other, hother, hid⟩)
        · rw [List.mem_singleton.1 hother] at hid
          exact hsite hid
    · refine lastAbout_eq_none_iff.2 fun order horder hid => ?_
      rw [siteId?_orderAfter (Option.mem_toList.1 horder)] at hid
      exact hsite (Option.some.inj hid)

/-- As long as no body of the site starts, the engine minds the instant. -/
theorem IsBent.move {starts : List Start} (h : engine.IsBent store follower siteId instant)
    (horderly : engine.IsOrderly store follower) (hnano : instant.nano < nanosPerSecond)
    (hyear : instant.HasPlainYear) (hcatches : engine.Catches store ∨ told.seen = follower.seen)
    (hmoves : engine.Moves store follower after told starts)
    (hnone : starts.filter (·.site = siteId) = []) : after.IsBent store told siteId instant := by
  cases hmoves with
  | rested hjobs horders =>
    refine ⟨h.plan, hjobs ▸ h.free, h.latest, h.minds.of_holds rfl rfl fun hholds => ?_⟩
    unfold Holds
    rw [hjobs, horders]
    exact hholds
  | obeyed horders =>
    rename_i order rest
    rw [obey_eq horders horderly.follows]
    refine ⟨h.plan, fun due hspent => h.free due (isSpent_of_obey hspent), h.latest, ?_⟩
    exact h.minds.of_holds (by split <;> rfl) (by split <;> rfl)
      fun hholds => hholds.obey h.free horders rfl rfl
  | fired now time =>
    have hready : (engine.jobs.standing siteId).ready? now = none := by
      rw [Jobs.starts_fire horderly.keyed] at hnone
      simpa using hnone
    have hsame : (engine.fire now time).jobs.standing siteId = engine.jobs.standing siteId := by
      rw [standing_engine_fire horderly.keyed, Standing.fired, hready]
    refine ⟨h.plan, hsame ▸ h.free, h.latest, h.minds.of_holds rfl rfl fun hholds => ?_⟩
    unfold Holds
    rw [hsame]
    exact hholds
  | learned hfreed =>
    obtain ⟨hwaiting, hspent⟩ := standing_learn hfreed siteId
    refine ⟨h.plan, fun due hdue => h.free due (hspent due hdue), h.latest, ?_⟩
    have horders : engine.learn.orders = engine.orders := by rw [learn_of_cons hfreed]
    refine h.minds.of_holds rfl rfl fun hholds => ?_
    unfold Holds
    rw [horders, hwaiting]
    exact hholds
  | surveyed hidle hseen hsites =>
    refine ⟨h.plan, h.free, h.latest, Or.inr (horderly.written.records_allSites hsites siteId), ?_⟩
    have hminds := h.minds
    have hsnapshot : follower.snapshot = none := by simpa [isIdle] using hidle
    unfold Minds at hminds
    rw [hsnapshot] at hminds
    rcases hseen with rfl | hlt
    · exact hminds.imp (Feed.lt_of_awaits horderly.seen_le) fun hholds => hholds.ordered rfl
    · exact Or.inl hlt
  | strayed hidle hseen hsites =>
    have hsnapshot : follower.snapshot = none := by simpa [isIdle] using hidle
    refine ⟨h.plan, h.free, h.latest, h.minds.of_holds hsnapshot.symm ?_ id⟩
    -- Only a follower that has lost events would drop what it is still to be told.
    rcases hcatches with hcatches | hsame
    · obtain ⟨cause, rfl⟩ := Ledger.allSites_eq_error hsites
      refine hseen.resolve_right fun hlost => ?_
      exact hcatches follower horderly.follows hlost.1 cause hsites
    · exact hsame
  | told hidle hlost hlt htake =>
    exact ⟨h.plan, h.free, h.latest,
      h.minds_told horderly.written hnano hyear hidle hlost htake⟩
  | answered hsnapshot hreport =>
    refine ⟨h.plan, h.free, h.latest, ?_⟩
    have hminds := h.minds
    unfold Minds at hminds
    rw [hsnapshot] at hminds
    refine hminds.1.imp_right fun hrecords => ?_
    obtain ⟨order, hasks, hrecord⟩ := hrecords
    rw [h.eq_install hnano hasks] at hrecord
    rcases hrecord with ⟨site, hsite, rfl, horder⟩ | ⟨-, hremove⟩
    · exact holds_of_last
        (lastAbout_resyncOrders_of_mem (horderly.nodup _ hsnapshot) _ hsite horder)
    · cases hremove

/-- A change that leaves the plan of the site alone. -/
theorem IsBent.commit (h : engine.IsBent store follower siteId instant)
    (horderly : engine.IsOrderly store follower) {change : Change Unit}
    (hplan : change.ledger.plan siteId = store.ledger.plan siteId)
    (hevents : ∀ event ∈ change.events, event.siteId = siteId → ¬event.IsWithdrawal) :
    engine.IsBent (store.commit change) follower siteId instant := by
  have hawaits (hbefore : store.feed.Awaits follower.seen siteId) :
      (store.commit change).feed.Awaits follower.seen siteId :=
    horderly.whole.awaits_publishAll horderly.seen_le (Or.inr hbefore)
  refine ⟨hplan.trans h.plan, h.free, ?_, ?_⟩
  · intro event hevent
    rcases horderly.whole.find?_kept_publishAll hevent with hmem | ⟨-, hkept⟩
    · exact hevents event hmem (by simpa using List.find?_some hevent)
    · exact h.latest event hkept
  · have hminds := h.minds
    unfold Minds at hminds ⊢
    split at hminds
    · exact hminds.imp_left hawaits
    · refine ⟨hminds.1.imp hawaits fun hrecords => hrecords.of_plan_eq hplan, ?_⟩
      refine hminds.2.imp_left fun hlt => ?_
      exact Nat.lt_of_lt_of_le hlt (horderly.whole.sent_le_publishAll change.events)

theorem isBent_of_trigger (horderly : engine.IsOrderly store follower) {moment : Moment}
    (hfree : ∀ due, (engine.jobs.standing siteId).IsSpent due →
      due.isBefore moment.now.truncated = true) {change : Change Site}
    (hchange : store.ledger.triggerNow moment siteId = .ok change) :
    engine.IsBent (store.commit change) follower siteId moment.now := by
  obtain ⟨site, hsite, -, hledger, hevents⟩ := Ledger.triggerNow_eq_ok hchange
  have hmem : .siteRescheduled siteId ∈ change.events := by
    rw [hevents]
    exact List.mem_singleton_self _
  have hawaits : (store.commit change).feed.Awaits follower.seen siteId := by
    refine horderly.whole.awaits_publishAll horderly.seen_le (Or.inl ⟨_, hmem, rfl⟩)
  refine ⟨?_, hfree, ?_, ?_⟩
  · change change.ledger.plan siteId = _
    rw [hledger, Ledger.plan_withNext_self hsite]
    rfl
  · intro event hevent
    rcases horderly.whole.find?_kept_publishAll hevent with hlast | ⟨hothers, -⟩
    · rw [hevents, List.mem_singleton] at hlast
      rw [hlast]
      exact fun hwithdrawal => hwithdrawal
    · exact absurd rfl (hothers _ hmem)
  · have hle := Nat.le_trans horderly.seen_le (horderly.whole.sent_le_publishAll change.events)
    unfold Minds
    split
    · exact Or.inl hawaits
    · exact ⟨Or.inl hawaits, Or.inl (Feed.lt_of_awaits hle hawaits)⟩

end

/-- What holds of an engine and its surroundings since a site has been triggered. -/
structure IsTriggered (siteId : Int) (instant : Instant) (since : List Start)
    (drawn : Option Instant) (engine : Engine) (store : Store) (follower : Follower) : Prop where
  orderly : engine.IsOrderly store follower
  nano : instant.nano < nanosPerSecond
  year : instant.HasPlainYear
  nano_drawn : ∀ next, drawn = some next → next.nano < nanosPerSecond
  plan : store.ledger.plan siteId = some (millisText (drawn.getD instant))
  bent : since = [] → drawn = none → engine.IsBent store follower siteId instant

section

variable {engine after : Engine} {store : Store} {follower told : Follower} {siteId : Int}
  {instant : Instant} {since : List Start} {drawn : Option Instant}

theorem IsTriggered.move {starts : List Start}
    (h : IsTriggered siteId instant since drawn engine store follower)
    (hcatches : engine.Catches store ∨ told.seen = follower.seen)
    (hmoves : engine.Moves store follower after told starts) :
    IsTriggered siteId instant (since ++ starts.filter (·.site = siteId)) drawn after store
      told := by
  refine ⟨h.orderly.move hmoves, h.nano, h.year, h.nano_drawn, h.plan, fun hsince hdrawn => ?_⟩
  obtain ⟨hbefore, hnone⟩ := List.append_eq_nil_iff.1 hsince
  exact (h.bent hbefore hdrawn).move h.orderly h.nano h.year hcatches hmoves hnone

theorem IsTriggered.applied (h : IsTriggered siteId instant since drawn engine store follower)
    {operation : Operation} (hspares : operation.Spares store.ledger siteId) {moment : Moment}
    (hnano : moment.now.nano < nanosPerSecond) :
    IsTriggered siteId instant since ((operation.drawn? moment store.ledger siteId).or drawn) engine
      (operation.applied moment store) follower := by
  have horderly := h.orderly.applied hnano operation
  have hplan : store.ledger.plan siteId ≠ none := by
    rw [h.plan]
    exact Option.some_ne_none _
  rcases operation.drawn?_cases h.orderly.written hplan hspares moment with
    ⟨next, hdrawn, hnew⟩ | ⟨hnone, change, happlied, hsame, hevents⟩
  · rw [hdrawn, Option.some_or]
    refine ⟨horderly, h.nano, h.year, ?_, hnew, nofun⟩
    rintro _ ⟨rfl⟩
    exact Operation.nano_drawn?_lt hnano hdrawn
  · rw [hnone, Option.none_or]
    refine ⟨horderly, h.nano, h.year, h.nano_drawn, ?_, fun hsince hdrawn => ?_⟩
    · rw [happlied]
      exact hsame.trans h.plan
    · rw [happlied]
      exact (h.bent hsince hdrawn).commit h.orderly hsame hevents

/-- What an engine asks of its store by itself spares all sites. -/
theorem spares_of_asked {supply : Supply σ} {chore : Chore} {operation : Operation}
    (h : engine.asked supply chore = some operation) (ledger : Ledger) (siteId : Int) :
    operation.Spares ledger siteId := by
  unfold asked at h
  split at h
  · obtain ⟨attempt, -, hasked⟩ := Option.bind_eq_some_iff.1 h
    unfold Stage.asked at hasked
    split at hasked <;> cases hasked <;> trivial
  · obtain ⟨fault, -, rfl⟩ := Option.map_eq_some_iff.1 h
    trivial
  · cases h

/-- Whatever has happened since, what the site has for its next run was drawn last, or is the
instant of the trigger; and as long as no body has started and nothing was drawn, the engine minds
it. -/
theorem Triggered.exists_isTriggered {around : Surroundings σ}
    (h : Triggered siteId instant since drawn engine around) :
    ∃ follower, IsTriggered siteId instant since drawn engine around.store follower := by
  induction h with
  | triggered hrun hinstant hnano hyear hfree htrigger =>
    subst hinstant
    obtain ⟨follower, horderly⟩ := hrun.exists_isOrderly
    obtain ⟨change, hchange, -, rfl⟩ := Store.perform_eq_ok htrigger
    have hbent := isBent_of_trigger horderly hfree hchange
    have hwritten := Ledger.isWritten_triggerNow horderly.written hnano hchange
    refine ⟨follower, ⟨hwritten, horderly.whole.publishAll _, horderly.keyed, horderly.follows,
      Nat.le_trans horderly.seen_le (horderly.whole.sent_le_publishAll _), horderly.turn,
      horderly.nodup⟩, hnano, hyear, nofun, hbent.plan, fun _ _ => hbent⟩
  | operated _ operation hspares moment hnano ih =>
    obtain ⟨follower, htriggered⟩ := ih
    exact ⟨follower, htriggered.applied hspares hnano⟩
  | performed _ chore supply hnano hallowed hcatches ih =>
    obtain ⟨follower, htriggered⟩ := ih
    obtain ⟨told, hmoves, hseen⟩ := htriggered.orderly.moves hallowed
    have hmove := htriggered.move (hseen.imp_left hcatches) hmoves
    -- Besides its own move, the chore asks the store for one operation at most.
    refine ⟨told, ?_⟩
    rw [store_perform, drawn?]
    cases hasked : Engine.asked _ supply chore with
    | none => exact hmove
    | some operation => exact hmove.applied (spares_of_asked hasked _ siteId) hnano
  | broke _ place hattempt hstage ending ih =>
    obtain ⟨follower, htriggered⟩ := ih
    have hmove := htriggered.move (Or.inr rfl)
      (moves_broken htriggered.orderly.follows place ending)
    rw [List.filter_nil, List.append_nil] at hmove
    exact ⟨follower, hmove⟩
  | passed _ time ih => exact ih

/-! ### Missed jobs -/

/-- An attempt stays as it is until it goes on itself. -/
theorem mem_attempts_perform {attempt : Attempt} (h : attempt ∈ engine.attempts)
    (supply : Supply σ) (around : Surroundings σ) (chore : Chore) :
    attempt ∈ (engine.perform supply around chore).1.attempts ∨
      ∃ place, chore = .proceed place ∧ engine.attempts[place]? = some attempt := by
  cases chore with
  | endResync =>
    left
    simp only [perform, endResync]
    split <;> exact h
  | obey =>
    left
    simp only [perform, obey]
    split <;> exact h
  | fire => exact Or.inl (List.mem_append_left _ h)
  | resync =>
    left
    simp only [perform, resync, beginResync]
    split
    · exact h
    · split <;> exact h
  | proceed place =>
    cases hplace : engine.attempts[place]? with
    | none =>
      left
      simp only [perform, proceed, hplace]
      exact h
    | some other =>
      by_cases hsame : attempt = other
      · exact Or.inr ⟨place, rfl, hsame ▸ hplace⟩
      left
      cases hstep : other.stage.step supply other.site other.started around with
      | mk outlook after =>
        cases outlook with
        | next stage wakes =>
          rw [perform, proceed_of_next hplace hstep]
          exact mem_set_of_ne h hplace hsame
        | closed ending =>
          rw [perform, proceed_of_closed hplace hstep]
          exact mem_eraseIdx_of_ne h hplace hsame
  | follow =>
    left
    simp only [perform, follow, beginResync]
    split
    · exact h
    · split
      · exact h
      · split <;> exact h
      · exact h
      · exact h
  | learn =>
    left
    simp only [perform, learn]
    split <;> exact h
  | reconcile =>
    left
    simp only [perform, reconcile]
    split <;> exact h

/-- What follows on a missed job draws the next run of the site. -/
theorem drawn?_of_missed {supply : Supply σ} {place : Nat} {attempt : Attempt}
    (hattempt : engine.attempts[place]? = some attempt) (hstage : attempt.stage = .missed)
    {ledger : Ledger} {site : Site} (hsite : ledger.site attempt.site = .ok site)
    (hactive : site.paused = false) :
    engine.drawn? supply ledger attempt.site (.proceed place) ≠ none := by
  have hchange : (Operation.reschedule attempt.site).change supply.moment ledger =
      (ledger.reschedule supply.moment attempt.site).map Change.bare := rfl
  rw [drawn?, asked, hattempt, Option.bind_some, hstage, Stage.asked, Option.bind_some,
    Operation.drawn?, hchange, Ledger.reschedule, hsite]
  simp [Operation.draws, Except.toOption, Except.map, Ledger.drawn, hactive, bind, Except.bind,
    pure, Except.pure]

theorem Triggered.site_of_mem {around : Surroundings σ}
    (h : Triggered siteId instant since drawn engine around) {start : Start}
    (hstart : start ∈ since) : start.site = siteId := by
  induction h with
  | triggered => cases hstart
  | performed _ chore supply hnano hallowed hcatches ih =>
    rcases List.mem_append.1 hstart with hbefore | hnew
    · exact ih hbefore
    · simpa using (List.mem_filter.1 hnew).2
  | operated _ operation hspares moment hnano ih => exact ih hstart
  | broke _ place hattempt hstage ending ih => exact ih hstart
  | passed _ time ih => exact ih hstart

/-- As long as nothing is drawn for the site, what follows on a missed job of it is to come. -/
theorem Triggered.exists_missed {around : Surroundings σ}
    (h : Triggered siteId instant since drawn engine around) (hdrawn : drawn = none) {start : Start}
    (hstart : start ∈ since) (hmissed : start.work = .missed) :
    ∃ attempt ∈ engine.attempts, attempt.site = siteId ∧ attempt.stage = .missed := by
  induction h with
  | triggered => cases hstart
  | operated _ operation hspares moment hnano ih =>
    exact ih (Option.or_eq_none_iff.1 hdrawn).2 hstart
  | performed hbefore chore supply hnano hallowed hcatches ih =>
    rename_i since drawn engine around
    obtain ⟨hnew, hold⟩ := Option.or_eq_none_iff.1 hdrawn
    rcases List.mem_append.1 hstart with hstart | hstart
    · obtain ⟨attempt, hmem, hsite, hstage⟩ := ih hold hstart
      rcases mem_attempts_perform hmem supply around chore with hstill | ⟨place, rfl, hplace⟩
      · exact ⟨attempt, hstill, hsite, hstage⟩
      · -- It is the missed job that goes on, and the site can be read, since nothing was drawn.
        obtain ⟨follower, htriggered⟩ := hbefore.exists_isTriggered
        have hplan := htriggered.plan
        rw [hold, Option.getD_none] at hplan
        obtain ⟨site, hread, hactive, -⟩ := htriggered.orderly.written.exists_site_of_plan hplan
          (storedInstant?_millisText htriggered.nano htriggered.year 13)
        subst hsite
        exact absurd hnew (drawn?_of_missed hplace hstage hread hactive)
    · obtain ⟨hstart, hsite⟩ := List.mem_filter.1 hstart
      cases chore with
      | fire =>
        have hmem := List.mem_map_of_mem (f := Attempt.ofStart supply.moment.now around.time) hstart
        refine ⟨_, List.mem_append_right _ hmem, of_decide_eq_true hsite, ?_⟩
        simp only [Attempt.ofStart, hmissed]
      | _ => cases hstart
  | broke _ place hattempt hstage ending ih =>
    rename_i engine around broken
    obtain ⟨attempt, hmem, hsite, hmissed⟩ := ih hdrawn hstart
    have hne : attempt ≠ broken := fun hsame => hstage (hsame ▸ hmissed)
    refine ⟨attempt, ?_, hsite, hmissed⟩
    rw [Engine.broken, hattempt]
    exact mem_eraseIdx_of_ne hmem hattempt hne
  | passed _ time ih => exact ih hdrawn hstart

/-! ### A trigger is kept or taken back -/

/-- The next run that is stored for a site is at an instant or earlier, and so is its job. -/
structure IsDueBy (engine : Engine) (ledger : Ledger) (siteId : Int) (instant : Instant) :
    Prop where
  stored : ∃ site next, ledger.site siteId = .ok site ∧ site.next = some next ∧
    next.isUpTo instant = true
  waiting : ∃ due, engine.jobs.waiting.filter (·.1 = siteId) = [(siteId, due)] ∧
    due.isUpTo instant = true

/-- A quiet engine that minds an instant has the job. -/
theorem IsBent.isDueBy (h : engine.IsBent store follower siteId instant)
    (horderly : engine.IsOrderly store follower) (hnano : instant.nano < nanosPerSecond)
    (hyear : instant.HasPlainYear) (hquiet : engine.IsQuiet store.feed) :
    engine.IsDueBy store.ledger siteId instant := by
  have hupTo := instant.truncated_isUpTo
  obtain ⟨site, hsite, hnext⟩ := h.exists_site horderly.written hnano hyear
  have hseen := hquiet.seen follower horderly.follows
  have hholds : engine.Holds siteId instant.truncated := by
    have hminds := h.minds
    unfold Minds at hminds
    rw [hseen] at hminds
    split at hminds
    · exact hminds.resolve_left (store.feed.not_awaits_sent siteId)
    · exact hminds.2.resolve_left (Nat.lt_irrefl _)
  unfold Holds at hholds
  rw [hquiet.orders] at hholds
  obtain ⟨-, hwaiting⟩ := hholds.resolve_left nofun
  refine ⟨⟨site, _, hsite, hnext, hupTo⟩, instant.truncated, ?_, hupTo⟩
  have hget : engine.jobs.waiting.get? siteId = some instant.truncated := hwaiting
  rw [Slots.filter_site horderly.keyed, hget]
  rfl

/-- When nothing is outstanding any more and nothing has been drawn for the site since the trigger,
an attempt of the site has started since, or its next run and its job are at the instant of the
trigger.  Once a later instant has been drawn, its next run is that one, and the trigger is lost. -/
theorem Triggered.isDueBy_unless_drawn {around : Surroundings σ}
    (h : Triggered siteId instant since drawn engine around)
    (hquiet : engine.IsQuiet around.store.feed) :
    (drawn = none → (∃ start ∈ since, start.site = siteId ∧ start.work = .run) ∨
        engine.IsDueBy around.store.ledger siteId instant) ∧
      ∀ next, drawn = some next → instant.isBefore next.truncated = true →
        ¬engine.IsDueBy around.store.ledger siteId instant := by
  obtain ⟨follower, htriggered⟩ := h.exists_isTriggered
  constructor
  · intro hdrawn
    by_cases hsince : since = []
    · have hbent := htriggered.bent hsince hdrawn
      exact Or.inr (hbent.isDueBy htriggered.orderly htriggered.nano htriggered.year hquiet)
    · obtain ⟨start, hstart⟩ := List.exists_mem_of_ne_nil since hsince
      refine Or.inl ⟨start, hstart, h.site_of_mem hstart, ?_⟩
      cases hwork : start.work with
      | run => rfl
      | missed =>
        obtain ⟨attempt, hmem, -⟩ := h.exists_missed hdrawn hstart hwork
        rw [hquiet.attempts] at hmem
        cases hmem
  · intro next hdrawn hlater hdue
    obtain ⟨site, stored, hsite, hnext, hupTo⟩ := hdue.stored
    obtain ⟨text, htext, hread⟩ := Ledger.exists_plan_of_site hsite hnext
    have hplan := htriggered.plan
    rw [hdrawn, Option.getD_some, htext] at hplan
    rw [Option.some.inj hplan] at hread
    rw [eq_truncated_of_storedInstant? (htriggered.nano_drawn next hdrawn) hread, Instant.isUpTo,
      hlater] at hupTo
    cases hupTo

end

/-- A site is added, an engine starts and the site is triggered.  The follower is told, and the
table has the job at the instant of the trigger. -/
theorem due_after_trigger :
    let moment (second : Int) : Moment := ⟨⟨second, 0⟩, .utc, []⟩
    let store := (Operation.addSite .sample).applied (moment 10) { feed := { capacity := 4 } }
    let recovery := Recovery.ofStore store (moment 20) (fun _ => moment 20) 60
    let engine : Engine := {
      jobs := { grace := 60 }, orders := recovery.orders
      follower := some { seen := store.feed.sent, nextResync := 0 + resyncInterval } }
    let triggered := recovery.store.perform (·.triggerNow (moment 30) 1)
    let around : Surroundings Unit := { store := triggered.2, browser := (), time := 0 }
    let after := (engine.follow triggered.2).obey.obey
    Triggered 1 ⟨30, 0⟩ [] none after around ∧ after.IsQuiet around.store.feed ∧
      after.IsDueBy around.store.ledger 1 ⟨30, 0⟩ := by
  intro moment store recovery engine triggered around after
  have hnano (second : Int) : (moment second).now.nano < nanosPerSecond := Nat.zero_lt_succ _
  let server : Server Unit := fun _ _ => ⟨.error (.crashed "no browser"), (), 0⟩
  let supply (second : Int) : Supply Unit :=
    { server, timing := ⟨0, 0, 0, 0, 0, 0⟩, moment := moment second, picture := "" }
  obtain ⟨herror, hsite, hroom, hsent⟩ : recovery.error = none ∧
      triggered.1.toOption.map (·.id) = some 1 ∧ triggered.2.feed.capacity = 4 ∧
      triggered.2.feed.sent = 2 := by decide +kernel
  obtain ⟨horders, hattempts, hfreed, hfaults, hseen⟩ : after.orders = [] ∧
      after.attempts.length = 0 ∧ after.freed = [] ∧ after.faults.length = 0 ∧
      after.follower.map (·.seen) = some 2 := by decide +kernel
  have hquiet : after.IsQuiet triggered.2.feed :=
    isQuiet_of_lengths horders hattempts hfreed hfaults (hseen.trans (congrArg some hsent.symm))
  have hrecovery : Recovery.ofStore store (moment 20) (fun _ => moment 20) 60 = recovery := rfl
  have htriggered : recovery.store.perform (·.triggerNow (moment 30) 1) = triggered := rfl
  have hwhole : store.feed.IsWhole :=
    (Store.isWhole_applied (.new (Nat.zero_lt_succ 3)) (.addSite .sample) (moment 10)).1
  have hcourse : Workshop.Course
      ⟨({ store, browser := (), time := 0 } : Surroundings Unit), []⟩ :=
    (Workshop.Course.opened rfl : Workshop.Course
      ⟨({ store := { feed := { capacity := 4 } }, browser := (), time := 0 } : Surroundings Unit),
        []⟩).operated (.addSite .sample) (moment 10) (hnano 10)
  clear_value triggered recovery store
  obtain ⟨site, hsite, -⟩ := exists_ok_of_map hsite
  have hrun :
      Run engine ({ store := recovery.store, browser := (), time := 0 } : Surroundings Unit) :=
    .started hcourse hwhole (fun _ => hnano 20) (start_of_recovered hrecovery herror)
  have hcatches : engine.Catches triggered.2 := by
    intro follower _ hlost
    rw [hroom, hsent] at hlost
    omega
  have hstart : Triggered 1 ⟨30, 0⟩ [] none engine around :=
    .triggered hrun rfl (hnano 30) (by decide) nofun (htriggered.trans (Prod.ext hsite rfl))
  have hfollowed : Triggered 1 ⟨30, 0⟩ [] none (engine.follow triggered.2) around :=
    hstart.performed .follow (supply 31) (hnano 31) (fun _ hfollower => by cases hfollower; rfl)
      fun _ => hcatches
  have hobeyed : Triggered 1 ⟨30, 0⟩ [] none (engine.follow triggered.2).obey around :=
    hfollowed.performed .obey (supply 32) (hnano 32) trivial nofun
  have hafter : Triggered 1 ⟨30, 0⟩ [] none after around :=
    hobeyed.performed .obey (supply 33) (hnano 33) trivial nofun
  have hkept := (hafter.isDueBy_unless_drawn hquiet).1 rfl
  exact ⟨hafter, hquiet, hkept.resolve_left nofun⟩

/-- The attempt of a site is in flight when the site is triggered.  It enters its row, fails and
finishes the row, and draws the next run of the site both times: when nothing is outstanding any
more, no other attempt has started and the job waits ten minutes after the end of this one. -/
theorem trigger_lost_to_attempt_in_flight :
    let moment (second : Int) : Moment := ⟨⟨second, 0⟩, .utc, []⟩
    let supply (second : Int) : Supply Unit := {
      server := fun _ _ => ⟨.error (.refused (.notFound "form")), (), 0⟩
      timing := ⟨0, 0, 0, 0, 0, 0⟩, moment := moment second, picture := "" }
    let run (state : Engine × Surroundings Unit) (chores : List (Int × Chore)) :=
      chores.foldl (fun state chore => state.1.perform (supply chore.1) state.2 chore.2) state
    let store := (Operation.addSite .sample).applied (moment 10) { feed := { capacity := 4 } }
    let recovery := Recovery.ofStore store (moment 20) (fun _ => moment 20) 60
    let engine : Engine := {
      jobs := { grace := 60 }, orders := recovery.orders
      follower := some { seen := store.feed.sent, nextResync := 0 + resyncInterval } }
    let flight := run (engine, { store := recovery.store, browser := (), time := 0 })
      [(21, .obey), (22, .fire), (23, .proceed 0)]
    let triggered := flight.2.store.perform (·.triggerNow (moment 30) 1)
    let after := run (flight.1, { flight.2 with store := triggered.2 })
      [(31, .proceed 0), (32, .proceed 0), (33, .proceed 0), (34, .proceed 0), (35, .proceed 0),
        (36, .learn), (37, .follow), (38, .obey), (39, .follow), (40, .obey), (41, .follow),
        (42, .obey)]
    triggered.1.toOption.bind (·.next) = some ⟨30, 0⟩ ∧ after.1.IsQuiet after.2.store.feed ∧
      after.2.store.ledger.plan 1 = some (millisText ⟨633, 0⟩) ∧
      after.1.jobs.waiting = [(1, ⟨633, 0⟩)] ∧
      ¬after.1.IsDueBy after.2.store.ledger 1 ⟨30, 0⟩ := by
  intro moment supply run store recovery engine flight triggered after
  obtain ⟨hnext, hplan, hwaiting, horders, hattempts, hfreed, hfaults, hseen⟩ :
      triggered.1.toOption.bind (·.next) = some ⟨30, 0⟩ ∧
      after.2.store.ledger.plan 1 = some (millisText ⟨633, 0⟩) ∧
      after.1.jobs.waiting = [(1, ⟨633, 0⟩)] ∧ after.1.orders = [] ∧
      after.1.attempts.length = 0 ∧ after.1.freed = [] ∧ after.1.faults.length = 0 ∧
      after.1.follower.map (·.seen) = some after.2.store.feed.sent := by decide +kernel
  clear_value after triggered
  refine ⟨hnext, isQuiet_of_lengths horders hattempts hfreed hfaults hseen, hplan, hwaiting, ?_⟩
  rintro ⟨-, due, hdue, hupTo⟩
  rw [hwaiting] at hdue
  cases hdue
  cases hupTo

end Engine

end KeepAlive
