import KeepAlive.Engine.Workshop
import KeepAlive.Proofs.Ledger.Withheld
import KeepAlive.Proofs.Login.Secrets

/-!
# Engines that differ only in credentials

The attempts of an engine carry the credentials of their sites, and so does its follower while it goes
through all sites.  Two engines that differ in nothing else do the same, whatever they are told to do,
and what they enter into their stores is the same.
-/

namespace KeepAlive

open Browser Time

/-- The surroundings without credentials and without what has been typed. -/
def Surroundings.withoutCredentials (around : Surroundings Page) : Surroundings Page :=
  { around with
    store := around.store.withoutCredentials
    browser := around.browser.shown
    notes := around.notes.map fun (site, entry) => (site.withoutCredentials, entry) }

/-- Whether two stages are the same but for credentials. -/
inductive Stage.SameButCredentials : Stage → Stage → Prop
  | missed : SameButCredentials .missed .missed
  | load : SameButCredentials .load .load
  | enter {site other : Site} (h : site.withoutCredentials = other.withoutCredentials) :
      SameButCredentials (.enter site) (.enter other)
  | login {site other : Site} (h : site.withoutCredentials = other.withoutCredentials) (entry : Int)
      {rest more : Dialogue (Except Stop Login.Outcome)} (hrest : rest.SameButTyped more) :
      SameButCredentials (.login site entry rest) (.login other entry more)
  | finish {site other : Site} (h : site.withoutCredentials = other.withoutCredentials) (entry : Int)
      (outcome : Login.Outcome) :
      SameButCredentials (.finish site entry outcome) (.finish other entry outcome)
  | reload {site other : Site} (h : site.withoutCredentials = other.withoutCredentials)
      (finished : History) :
      SameButCredentials (.reload site finished) (.reload other finished)
  | note {site other : Site} (h : site.withoutCredentials = other.withoutCredentials)
      (finished : History) :
      SameButCredentials (.note site finished) (.note other finished)

theorem Stage.SameButCredentials.refl (stage : Stage) : stage.SameButCredentials stage := by
  cases stage with
  | missed => exact .missed
  | load => exact .load
  | enter site => exact .enter rfl
  | login site entry rest => exact .login rfl entry (.refl rest)
  | finish site entry outcome => exact .finish rfl entry outcome
  | reload site finished => exact .reload rfl finished
  | note site finished => exact .note rfl finished

/-- Whether two outlooks are the same but for credentials. -/
inductive Outlook.SameButCredentials : Outlook → Outlook → Prop
  | next {stage other : Stage} (h : stage.SameButCredentials other) (wakes : Nat) :
      SameButCredentials (.next stage wakes) (.next other wakes)
  | closed (ending : Ending) : SameButCredentials (.closed ending) (.closed ending)

theorem Site.request_of_same {site other : Site}
    (h : site.withoutCredentials = other.withoutCredentials) (picture : Option String) :
    other.request picture = (site.request picture).withCredentials other.credentials := by
  cases site
  cases other
  cases h
  rfl

/-- What attempts on fixed pages are given from outside. -/
def Supply.onPages (timing : Login.Timing) (moment : Moment) (picture : String) : Supply Page :=
  { server := Page.handle, timing, moment, picture }

namespace Surroundings

variable {around other : Surroundings Page}

theorem store_of_same (h : around.withoutCredentials = other.withoutCredentials) :
    around.store.withoutCredentials = other.store.withoutCredentials :=
  congrArg store h

theorem time_of_same (h : around.withoutCredentials = other.withoutCredentials) :
    around.time = other.time :=
  (congrArg Surroundings.time h :)

theorem browser_of_same (h : around.withoutCredentials = other.withoutCredentials) :
    around.browser.shown = other.browser.shown :=
  (congrArg Surroundings.browser h :)

theorem same_of_store (h : around.withoutCredentials = other.withoutCredentials)
    {store changed : Store} (hstore : store.withoutCredentials = changed.withoutCredentials) :
    { around with store }.withoutCredentials =
      { other with store := changed }.withoutCredentials := by
  change { around.withoutCredentials with store := store.withoutCredentials } =
    { other.withoutCredentials with store := changed.withoutCredentials }
  rw [h, hstore]

theorem same_of_browser (h : around.withoutCredentials = other.withoutCredentials)
    {browser window : Page} (hshown : browser.shown = window.shown) :
    { around with browser }.withoutCredentials =
      { other with browser := window }.withoutCredentials := by
  change { around.withoutCredentials with browser := browser.shown } =
    { other.withoutCredentials with browser := window.shown }
  rw [h, hshown]

theorem same_of_time (h : around.withoutCredentials = other.withoutCredentials) (time : Nat) :
    { around with time }.withoutCredentials = { other with time }.withoutCredentials := by
  change { around.withoutCredentials with time } = { other.withoutCredentials with time }
  rw [h]

end Surroundings

namespace Stage

variable {around surroundings : Surroundings Page}

theorem loaded_of_same {answer other : Except KeepAlive.Refusal Site}
    (h : answer.map Site.withoutCredentials = other.map Site.withoutCredentials) :
    Sum.LiftRel SameButCredentials Eq (loaded answer) (loaded other) := by
  obtain ⟨refusal, rfl, rfl⟩ | ⟨site, changed, rfl, rfl, hsite⟩ := refused_or_ok_of_map_eq h
  · cases refusal <;> exact .inr rfl
  · have hpaused : site.withoutCredentials.paused = changed.withoutCredentials.paused :=
      congrArg Site.paused hsite
    change site.paused = changed.paused at hpaused
    simp only [loaded, hpaused]
    split
    · exact .inr rfl
    · exact .inl (.enter hsite)

theorem loggedIn_of_same {supply : Supply Page} (hserver : supply.server = Page.handle)
    {site other : Site} (hsite : site.withoutCredentials = other.withoutCredentials) (entry : Int)
    {rest more : Dialogue (Except Stop Login.Outcome)} (hrest : rest.SameButTyped more)
    (h : around.withoutCredentials = surroundings.withoutCredentials) :
    (loggedIn supply around site entry rest).1.SameButCredentials
        (loggedIn supply surroundings other entry more).1 ∧
      (loggedIn supply around site entry rest).2.withoutCredentials =
        (loggedIn supply surroundings other entry more).2.withoutCredentials := by
  obtain ⟨store, browser, notes, time⟩ := around
  obtain ⟨changed, window, remarks, now⟩ := surroundings
  obtain rfl : time = now := Surroundings.time_of_same h
  have hbrowser : browser.shown = window.shown := Surroundings.browser_of_same h
  obtain ⟨hprogress, hshown⟩ := hrest.toPause hbrowser time
  have hafter := Surroundings.same_of_browser h hshown
  unfold loggedIn
  rw [hserver]
  dsimp only
  generalize (rest.toPause Page.handle browser time).1 = progress at hprogress ⊢
  generalize (more.toPause Page.handle window time).1 = advance at hprogress ⊢
  cases hprogress with
  | paused milliseconds hpaused => exact ⟨.next (.login hsite entry hpaused) _, hafter⟩
  | finished result =>
    rcases result with (refusal | reason) | outcome
    · exact ⟨.closed _, hafter⟩
    · exact ⟨.closed _, hafter⟩
    · exact ⟨.next (.finish hsite entry outcome) _, hafter⟩

/-- From stages that are the same but for credentials, attempts come to stages that are so again. -/
theorem SameButCredentials.step {stage other : Stage} (hstage : stage.SameButCredentials other)
    (h : around.withoutCredentials = surroundings.withoutCredentials) (timing : Login.Timing)
    (moment : Moment) (picture : String) (siteId : Int) (started : Instant) :
    (stage.step (.onPages timing moment picture) siteId started around).1.SameButCredentials
        (other.step (.onPages timing moment picture) siteId started surroundings).1 ∧
      (stage.step (.onPages timing moment picture) siteId started around).2.withoutCredentials =
        (other.step (.onPages timing moment picture) siteId started
          surroundings).2.withoutCredentials := by
  obtain ⟨store, browser, notes, time⟩ := around
  obtain ⟨changed, window, remarks, now⟩ := surroundings
  obtain rfl : time = now := Surroundings.time_of_same h
  have hstore : store.withoutCredentials = changed.withoutCredentials := Surroundings.store_of_same h
  cases hstage with
  | missed =>
    unfold Stage.step
    rcases Store.perform_of_same hstore (Ledger.disregards_reschedule moment siteId) with
      ⟨refusal, hmade, hdone⟩ | ⟨result, answer, after, last, hmade, hdone, -, hafter⟩
    · simp only [Supply.onPages, hmade, hdone]
      exact ⟨.closed .done, h⟩
    · simp only [Supply.onPages, hmade, hdone]
      exact ⟨.closed .done, Surroundings.same_of_store h hafter⟩
  | load =>
    have hloaded := loaded_of_same (Ledger.site_of_same (congrArg Store.ledger hstore) siteId)
    unfold Stage.step
    dsimp only
    generalize loaded (store.ledger.site siteId) = reached at hloaded ⊢
    generalize loaded (changed.ledger.site siteId) = further at hloaded ⊢
    cases hloaded with
    | inl hstage => exact ⟨.next hstage time, h⟩
    | inr hending =>
      cases hending
      exact ⟨.closed _, h⟩
  | @enter site other hsite =>
    have hshot : site.withoutCredentials.takeScreenshot = other.withoutCredentials.takeScreenshot :=
      congrArg Site.takeScreenshot hsite
    change site.takeScreenshot = other.takeScreenshot at hshot
    unfold Stage.step
    dsimp only [Supply.onPages]
    rw [hshot]
    rcases Store.perform_of_same hstore (Ledger.disregards_insertHistory moment siteId
        (.inProgress started (if other.takeScreenshot then some picture else none))) with
      ⟨refusal, hmade, hdone⟩ | ⟨entry, row, after, last, hmade, hdone, hentry, hafter⟩
    · rw [hmade, hdone]
      exact ⟨.closed _, h⟩
    · obtain rfl : entry = row := hentry
      rw [hmade, hdone]
      refine ⟨.next (.login hsite entry.id ?_) time, Surroundings.same_of_store h hafter⟩
      rw [Site.request_of_same hsite]
      exact Login.sameButTyped_login timing (site.request _) site.credentials other.credentials
  | login hsite entry hrest => exact loggedIn_of_same rfl hsite entry hrest h
  | finish hsite entry outcome =>
    unfold Stage.step
    dsimp only [Supply.onPages]
    rcases Store.perform_of_same hstore (Ledger.disregards_finishHistory moment entry
        (.ofOutcome outcome.status outcome.message none)) with
      ⟨refusal, hmade, hdone⟩ | ⟨finished, row, after, last, hmade, hdone, hentry, hafter⟩
    · rw [hmade, hdone]
      exact ⟨.closed _, h⟩
    · obtain rfl : finished = row := hentry
      rw [hmade, hdone]
      exact ⟨.next (.reload hsite finished) time, Surroundings.same_of_store h hafter⟩
  | @reload site other hsite finished =>
    unfold Stage.step
    dsimp only
    obtain ⟨refusal, hlatest, hnewest⟩ | ⟨latest, newest, hlatest, hnewest, hread⟩ :=
      refused_or_ok_of_map_eq (Ledger.site_of_same (congrArg Store.ledger hstore) siteId)
    · rw [hlatest, hnewest]
      exact ⟨.next (.note hsite finished) time, h⟩
    · rw [hlatest, hnewest]
      exact ⟨.next (.note hread finished) time, h⟩
  | @note site other hsite finished =>
    refine ⟨.closed .done, ?_⟩
    simp only [Surroundings.withoutCredentials, Surroundings.mk.injEq] at h
    obtain ⟨-, hshown, hnotes, -⟩ := h
    simp only [Stage.step, Surroundings.withoutCredentials, List.map_cons, hstore, hshown, hnotes,
      hsite]

end Stage

/-! ## Engines -/

/-- Whether two attempts are the same but for credentials. -/
inductive Attempt.SameButCredentials : Attempt → Attempt → Prop
  | mk (site : Int) (started : Instant) {stage other : Stage} (h : stage.SameButCredentials other)
      (wakes : Nat) : SameButCredentials ⟨site, started, stage, wakes⟩ ⟨site, started, other, wakes⟩

/-- Whether two followers are the same but for the credentials of the sites that they go through. -/
inductive Follower.SameButCredentials : Follower → Follower → Prop
  | mk (seen nextResync : Nat) {snapshot other : Option (List Site)}
      (h : snapshot.map (List.map Site.withoutCredentials) =
        other.map (List.map Site.withoutCredentials))
      (report : Option Slots) :
      SameButCredentials ⟨seen, nextResync, snapshot, report⟩ ⟨seen, nextResync, other, report⟩

/-- Whether two engines are the same but for credentials. -/
inductive Engine.SameButCredentials : Engine → Engine → Prop
  | mk (jobs : Jobs) (orders : List Order) {follower successor : Option Follower}
      (hfollower : Option.Rel Follower.SameButCredentials follower successor)
      {attempts others : List Attempt}
      (hattempts : List.Forall₂ Attempt.SameButCredentials attempts others) (freed : List Int)
      (faults : List Ledger.Fault) :
      SameButCredentials ⟨jobs, orders, follower, attempts, freed, faults⟩
        ⟨jobs, orders, successor, others, freed, faults⟩

namespace Engine

variable {engine other : Engine}

theorem resyncOrders_withoutCredentials (sites : List Site) (waiting : Slots) :
    resyncOrders (sites.map Site.withoutCredentials) waiting = resyncOrders sites waiting := by
  unfold resyncOrders
  rw [List.filterMap_map]
  simp only [List.any_map]
  rfl

theorem orderAfter_withoutCredentials (ledger : Ledger) (event : Event) :
    orderAfter ledger.withoutCredentials event = orderAfter ledger event := by
  have hsync (siteId : Int) :
      syncOrder ledger.withoutCredentials siteId = syncOrder ledger siteId := by
    unfold syncOrder
    rw [Ledger.site_withoutCredentials]
    rcases ledger.site siteId with refusal | site
    · cases refusal <;> rfl
    · rfl
  unfold orderAfter
  rw [hsync]

namespace SameButCredentials

theorem refl (engine : Engine) : engine.SameButCredentials engine := by
  obtain ⟨jobs, orders, follower, attempts, freed, faults⟩ := engine
  refine .mk jobs orders ?_ (List.forall₂_same.2 fun attempt _ => ?_) freed faults
  · cases follower with
    | none => exact .none
    | some follower => exact .some (.mk follower.seen follower.nextResync rfl follower.report)
  · exact .mk attempt.site attempt.started (.refl attempt.stage) attempt.wakes

theorem jobs_eq (h : engine.SameButCredentials other) : engine.jobs = other.jobs := by
  obtain ⟨jobs, orders, hfollower, hattempts, freed, faults⟩ := h
  rfl

theorem attempts_same (h : engine.SameButCredentials other) :
    List.Forall₂ Attempt.SameButCredentials engine.attempts other.attempts := by
  obtain ⟨jobs, orders, hfollower, hattempts, freed, faults⟩ := h
  exact hattempts

theorem obey (h : engine.SameButCredentials other) : engine.obey.SameButCredentials other.obey := by
  obtain ⟨jobs, orders, hfollower, hattempts, freed, faults⟩ := h
  cases orders with
  | nil => exact .mk jobs [] hfollower hattempts freed faults
  | cons order rest =>
    cases order with
    | report =>
      refine .mk _ rest ?_ hattempts freed faults
      cases hfollower with
      | none => exact .none
      | some hsame =>
        obtain ⟨seen, nextResync, hsnapshot, report⟩ := hsame
        exact .some (.mk seen nextResync hsnapshot _)
    | install site due => exact .mk _ rest hfollower hattempts freed faults
    | remove site => exact .mk _ rest hfollower hattempts freed faults

theorem learn (h : engine.SameButCredentials other) :
    engine.learn.SameButCredentials other.learn := by
  obtain ⟨jobs, orders, hfollower, hattempts, freed, faults⟩ := h
  cases freed with
  | nil => exact .mk jobs orders hfollower hattempts [] faults
  | cons site rest => exact .mk _ orders hfollower hattempts rest faults

theorem fire (h : engine.SameButCredentials other) (now : Instant) (time : Nat) :
    (engine.fire now time).SameButCredentials (other.fire now time) := by
  obtain ⟨jobs, orders, hfollower, hattempts, freed, faults⟩ := h
  have hstarts : List.Forall₂ Attempt.SameButCredentials
      ((jobs.fire now).2.map (Attempt.ofStart now time))
      ((jobs.fire now).2.map (Attempt.ofStart now time)) := by
    refine List.forall₂_same.2 fun attempt hattempt => ?_
    obtain ⟨⟨site, due, work⟩, -, rfl⟩ := List.mem_map.1 hattempt
    cases work with
    | run => exact .mk site now .load time
    | missed => exact .mk site now .missed time
  exact .mk _ orders hfollower (List.rel_append hattempts hstarts) freed faults

theorem ordered (h : engine.SameButCredentials other) (orders : List Order) :
    (engine.ordered orders).SameButCredentials (other.ordered orders) := by
  obtain ⟨jobs, given, hfollower, hattempts, freed, faults⟩ := h
  exact .mk jobs _ hfollower hattempts freed faults

theorem withFollower (h : engine.SameButCredentials other) {follower successor : Follower}
    (hfollower : follower.SameButCredentials successor) :
    SameButCredentials { engine with follower } { other with follower := successor } := by
  obtain ⟨jobs, orders, -, hattempts, freed, faults⟩ := h
  exact .mk jobs orders (.some hfollower) hattempts freed faults

theorem beginResync (h : engine.SameButCredentials other) {follower successor : Follower}
    (hfollower : follower.SameButCredentials successor) {ledger changed : Ledger}
    (hledger : ledger.withoutCredentials = changed.withoutCredentials) :
    (engine.beginResync follower ledger).SameButCredentials
      (other.beginResync successor changed) := by
  unfold Engine.beginResync
  obtain ⟨refusal, hfound, hother⟩ | ⟨found, sites, hfound, hother, hsites⟩ :=
    refused_or_ok_of_map_eq (Ledger.allSites_of_same hledger)
  · rw [hfound, hother]
    exact h.withFollower hfollower
  · rw [hfound, hother]
    obtain ⟨seen, nextResync, -, report⟩ := hfollower
    have hsnapshot : (some found).map (List.map Site.withoutCredentials) =
        (some sites).map (List.map Site.withoutCredentials) := congrArg some hsites
    exact (h.withFollower (.mk seen nextResync hsnapshot report)).ordered [.report]

theorem resync (h : engine.SameButCredentials other) {ledger changed : Ledger}
    (hledger : ledger.withoutCredentials = changed.withoutCredentials) :
    (engine.resync ledger).SameButCredentials (other.resync changed) := by
  obtain ⟨jobs, orders, hfollower, hattempts, freed, faults⟩ := h
  cases hfollower with
  | none => exact .mk jobs orders .none hattempts freed faults
  | some hsame =>
    have h := mk jobs orders (.some hsame) hattempts freed faults
    obtain ⟨seen, nextResync, hsnapshot, report⟩ := hsame
    exact h.beginResync (.mk seen _ hsnapshot report) hledger

theorem endResync (h : engine.SameButCredentials other) :
    engine.endResync.SameButCredentials other.endResync := by
  obtain ⟨jobs, orders, hfollower, hattempts, freed, faults⟩ := h
  cases hfollower with
  | none => exact .mk jobs orders .none hattempts freed faults
  | some hsame =>
    have h := mk jobs orders (.some hsame) hattempts freed faults
    obtain ⟨seen, nextResync, hsnapshot, report⟩ := hsame
    rename_i snapshot copy
    rcases snapshot with - | sites
    · rcases copy with - | others
      · exact h
      · cases hsnapshot
    · rcases copy with - | others
      · cases hsnapshot
      · cases report with
        | none => exact h
        | some waiting =>
          have hsites : sites.map Site.withoutCredentials = others.map Site.withoutCredentials :=
            Option.some.inj hsnapshot
          have horders : resyncOrders sites waiting = resyncOrders others waiting := by
            rw [← resyncOrders_withoutCredentials sites, hsites, resyncOrders_withoutCredentials]
          unfold Engine.endResync
          dsimp only
          rw [horders]
          exact (h.withFollower (.mk seen nextResync rfl none)).ordered _

theorem follow (h : engine.SameButCredentials other) {store changed : Store}
    (hstore : store.withoutCredentials = changed.withoutCredentials) :
    (engine.follow store).SameButCredentials (other.follow changed) := by
  have hledger : store.ledger.withoutCredentials = changed.ledger.withoutCredentials :=
    congrArg Store.ledger hstore
  have hfeed : store.withoutCredentials.feed = changed.withoutCredentials.feed :=
    congrArg Store.feed hstore
  change store.feed = changed.feed at hfeed
  obtain ⟨jobs, orders, hfollower, hattempts, freed, faults⟩ := h
  cases hfollower with
  | none => exact .mk jobs orders .none hattempts freed faults
  | some hsame =>
    have h := mk jobs orders (.some hsame) hattempts freed faults
    obtain ⟨seen, nextResync, hsnapshot, report⟩ := hsame
    unfold Engine.follow
    dsimp only
    rw [hfeed]
    cases (changed.feed.read seen).1 with
    | event event =>
      dsimp only
      rw [← orderAfter_withoutCredentials store.ledger, hledger, orderAfter_withoutCredentials]
      exact (h.withFollower (.mk _ nextResync hsnapshot report)).ordered _
    | lagged missed => exact h.beginResync (.mk _ nextResync hsnapshot report) hledger
    | empty => exact h
    | closed => exact h

theorem rel_getElem? {attempts others : List Attempt}
    (h : List.Forall₂ Attempt.SameButCredentials attempts others) (place : Nat) :
    Option.Rel Attempt.SameButCredentials attempts[place]? others[place]? := by
  induction h generalizing place with
  | nil => exact .none
  | cons hfirst _ ih =>
    cases place with
    | zero => exact .some hfirst
    | succ place => exact ih place

theorem forall₂_set {attempts others : List Attempt}
    (h : List.Forall₂ Attempt.SameButCredentials attempts others) {attempt sibling : Attempt}
    (hattempt : attempt.SameButCredentials sibling) (place : Nat) :
    List.Forall₂ Attempt.SameButCredentials (attempts.set place attempt)
      (others.set place sibling) := by
  induction h generalizing place with
  | nil => exact .nil
  | cons hfirst hrest ih =>
    cases place with
    | zero => exact .cons hattempt hrest
    | succ place => exact .cons hfirst (ih place)

theorem ended (h : engine.SameButCredentials other) {attempt sibling : Attempt}
    (hattempt : attempt.SameButCredentials sibling) (ending : Ending) :
    (engine.ended attempt ending).SameButCredentials (other.ended sibling ending) := by
  obtain ⟨jobs, orders, hfollower, hattempts, freed, faults⟩ := h
  obtain ⟨site, started, hstage, wakes⟩ := hattempt
  exact .mk jobs orders hfollower hattempts _ _

theorem withAttempts (h : engine.SameButCredentials other) {attempts others : List Attempt}
    (hattempts : List.Forall₂ Attempt.SameButCredentials attempts others) :
    SameButCredentials { engine with attempts } { other with attempts := others } := by
  obtain ⟨jobs, orders, hfollower, -, freed, faults⟩ := h
  exact .mk jobs orders hfollower hattempts freed faults

theorem proceed (h : engine.SameButCredentials other) {around surroundings : Surroundings Page}
    (haround : around.withoutCredentials = surroundings.withoutCredentials) (timing : Login.Timing)
    (moment : Moment) (picture : String) (place : Nat) :
    (engine.proceed (.onPages timing moment picture) around place).1.SameButCredentials
        (other.proceed (.onPages timing moment picture) surroundings place).1 ∧
      (engine.proceed (.onPages timing moment picture) around place).2.withoutCredentials =
        (other.proceed (.onPages timing moment picture) surroundings place).2.withoutCredentials := by
  have hattempts := h.attempts_same
  have hplace := rel_getElem? hattempts place
  unfold Engine.proceed
  generalize engine.attempts[place]? = attempt at hplace ⊢
  generalize other.attempts[place]? = sibling at hplace ⊢
  cases hplace with
  | none => exact ⟨h, haround⟩
  | some hsame =>
    obtain ⟨site, started, hstage, wakes⟩ := hsame
    obtain ⟨houtlook, hafter⟩ := hstage.step haround timing moment picture site started
    dsimp only
    generalize (Stage.step _ site started around _).1 = outlook at houtlook ⊢
    generalize (Stage.step _ site started surroundings _).1 = prospect at houtlook ⊢
    cases houtlook with
    | next hnext later =>
      exact ⟨h.withAttempts (forall₂_set hattempts (.mk site started hnext later) place), hafter⟩
    | closed ending =>
      refine ⟨(h.withAttempts ?_).ended (.mk site started hstage wakes) ending, hafter⟩
      rw [List.eraseIdx_eq_take_drop_succ, List.eraseIdx_eq_take_drop_succ]
      exact List.rel_append (List.forall₂_take place hattempts)
        (List.forall₂_drop (place + 1) hattempts)

theorem reconcile (h : engine.SameButCredentials other) (moment : Moment) {store changed : Store}
    (hstore : store.withoutCredentials = changed.withoutCredentials) :
    (engine.reconcile moment store).1.SameButCredentials (other.reconcile moment changed).1 ∧
      (engine.reconcile moment store).2.withoutCredentials =
        (other.reconcile moment changed).2.withoutCredentials := by
  obtain ⟨jobs, orders, hfollower, hattempts, freed, faults⟩ := h
  cases faults with
  | nil => exact ⟨.mk jobs orders hfollower hattempts freed [], hstore⟩
  | cons fault rest =>
    refine ⟨.mk jobs orders hfollower hattempts freed rest, ?_⟩
    unfold Engine.reconcile
    dsimp only
    rcases Store.perform_of_same hstore (Ledger.disregards_reconcile moment fault) with
      ⟨refusal, hmade, hdone⟩ | ⟨entry, row, after, last, hmade, hdone, -, hafter⟩
    · rw [hmade, hdone]
      exact hstore
    · rw [hmade, hdone]
      exact hafter

/-- Whatever an engine does, it stays the same but for credentials. -/
theorem perform (h : engine.SameButCredentials other) {around surroundings : Surroundings Page}
    (haround : around.withoutCredentials = surroundings.withoutCredentials) (timing : Login.Timing)
    (moment : Moment) (picture : String) (chore : Chore) :
    (engine.perform (.onPages timing moment picture) around chore).1.SameButCredentials
        (other.perform (.onPages timing moment picture) surroundings chore).1 ∧
      (engine.perform (.onPages timing moment picture) around chore).2.withoutCredentials =
        (other.perform (.onPages timing moment picture) surroundings chore).2.withoutCredentials := by
  have hstore := Surroundings.store_of_same haround
  have hledger : around.store.ledger.withoutCredentials =
      surroundings.store.ledger.withoutCredentials := congrArg Store.ledger hstore
  cases chore with
  | endResync => exact ⟨h.endResync, haround⟩
  | obey => exact ⟨h.obey, haround⟩
  | fire =>
    unfold Engine.perform
    rw [Surroundings.time_of_same haround]
    exact ⟨h.fire _ _, haround⟩
  | resync => exact ⟨h.resync hledger, haround⟩
  | proceed place => exact h.proceed haround timing moment picture place
  | follow => exact ⟨h.follow hstore, haround⟩
  | learn => exact ⟨h.learn, haround⟩
  | reconcile =>
    obtain ⟨hengine, hafter⟩ := h.reconcile moment hstore
    exact ⟨hengine, Surroundings.same_of_store haround hafter⟩

end SameButCredentials

end Engine

end KeepAlive
