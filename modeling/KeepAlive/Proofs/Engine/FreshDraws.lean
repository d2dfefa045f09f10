import KeepAlive.Proofs.Engine.Parts
import KeepAlive.Proofs.Jobs.Exclusion
import KeepAlive.Proofs.Ledger.Sparing

/-!
# Fresh draws and what a body covers

The table does not install again what a body that runs or has ended covers.  This is meant for
orders that come late, but a draw can be as early as the body's own due time: a policy that allows
zero minutes ahead may draw an instant that has come already.  The main result says which policies
are safe: just those whose draws always lie in a later second.
-/

namespace KeepAlive

open Time

/-- Whether an operation enters or finishes a row of a site, or reschedules the site, and so draws
its next run. -/
def Operation.IsDrawOf (ledger : Ledger) (siteId : Int) : Operation → Prop
  | .insertHistory id _ => id = siteId
  | .finishHistory id _ => ∃ row, ledger.history.find? (·.id = id) = some row ∧ row.siteId = siteId
  | .reschedule id => id = siteId
  | _ => False

namespace Ledger

variable {ledger : Ledger} {moment : Moment} {siteId : Int}

theorem steers_of_isDrawOf {operation : Operation} (h : operation.IsDrawOf ledger siteId)
    {change : Change Unit} (hchange : operation.change moment ledger = .ok change) :
    ledger.Steers moment siteId change true := by
  cases operation with
  | insertHistory id new =>
    obtain ⟨made, hmade, rfl⟩ := Change.map_bare_eq_ok hchange
    have hsteers := @steers_insertHistory ledger moment siteId id new made hmade
    rw [decide_eq_true (show id = siteId from h)] at hsteers
    exact hsteers.bare
  | finishHistory id how =>
    obtain ⟨row, hrow, hid⟩ := h
    obtain ⟨made, hmade, rfl⟩ := Change.map_bare_eq_ok hchange
    have hsteers := @steers_finishHistory ledger moment siteId id how made hmade
    rw [Operation.draws, hrow, Option.any_some, decide_eq_true hid] at hsteers
    exact hsteers.bare
  | reschedule id =>
    obtain ⟨made, hmade, rfl⟩ := Change.map_bare_eq_ok hchange
    have hsteers := @steers_reschedule ledger moment siteId id made hmade
    rw [decide_eq_true (show id = siteId from h)] at hsteers
    exact hsteers.bare
  | _ => exact h.elim

/-- An order to install a job comes from a plan that can be read. -/
theorem exists_plan_of_syncOrder {next : Instant}
    (h : Engine.syncOrder ledger siteId = some (.install siteId next)) :
    ∃ text, ledger.plan siteId = some text ∧ storedInstant? 13 text = .ok next := by
  unfold Engine.syncOrder at h
  split at h
  · rename_i site hsite
    unfold Engine.orderFor at h
    split at h
    · cases h
    · obtain ⟨stored, hstored, horder⟩ := Option.map_eq_some_iff.1 h
      cases horder
      exact exists_plan_of_site hsite hstored
  · cases h
  · cases h

/-- The order that follows a draw is about the drawn instant, cut to milliseconds. -/
theorem eq_truncated_of_syncOrder {site : Site}
    (hnano : (site.policy.drawAt moment).nano < nanosPerSecond)
    (hplan : ledger.plan siteId = (drawn site moment).map millisText) {next : Instant}
    (horder : Engine.syncOrder ledger siteId = some (.install siteId next)) :
    next = (site.policy.drawAt moment).truncated := by
  obtain ⟨text, htext, hread⟩ := exists_plan_of_syncOrder horder
  rw [hplan] at htext
  obtain ⟨instant, hdrawn, rfl⟩ := Option.map_eq_some_iff.1 htext
  unfold drawn at hdrawn
  split at hdrawn
  · cases hdrawn
  · cases hdrawn
    exact eq_truncated_of_storedInstant? hnano hread

/-- There is a ledger with a site of any policy. -/
theorem exists_site_of_policy (policy : Policy) :
    ∃ ledger : Ledger, ledger.IsWritten ∧
      ∃ site, ledger.site 1 = .ok site ∧ site.policy = policy ∧ site.paused = false := by
  obtain ⟨new, hnew⟩ : ∃ new : NewSite, new = { NewSite.sample with policy } := ⟨_, rfl⟩
  have hnano : (⟨0, 0⟩ : Instant).nano < nanosPerSecond := by decide
  have hyear : (⟨0, 0⟩ : Instant).HasPlainYear := by decide
  obtain ⟨site, hread, hpolicy, hpaused⟩ := SiteRow.exists_site?_ofNew hnano hyear 1 new
  refine ⟨{ sites := [SiteRow.ofNew 1 ⟨0, 0⟩ new] }, ?_, site, ?_, ?_, ?_⟩
  · refine ⟨List.pairwise_singleton _ _, List.nodup_nil, ?_⟩
    intro row hmem
    rw [List.mem_singleton.1 hmem]
    exact SiteRow.isWritten_ofNew hnano ⟨_, storedInstant?_millisText hnano hyear 14⟩
  · exact site_eq_ok_iff.2 ⟨_, rfl, hread⟩
  · rw [hpolicy, hnew]
  · rw [hpaused, hnew]
    rfl

/-- A site with any policy may be rescheduled to what the policy draws. -/
theorem exists_reschedule {policy : Policy} (hmoment : moment.now.nano < nanosPerSecond)
    (hyear : (policy.drawAt moment).HasPlainYear) :
    ∃ ledger site change, Ledger.site ledger 1 = .ok site ∧ site.policy = policy ∧
      (Operation.reschedule 1).change moment ledger = .ok change ∧
      Engine.syncOrder change.ledger 1 =
        some (.install 1 (policy.drawAt moment).truncated) := by
  obtain ⟨ledger, hwritten, site, hsite, hpolicy, hpaused⟩ := exists_site_of_policy policy
  obtain ⟨change, hchange⟩ : ∃ change, ledger.reschedule moment 1 = .ok change := by
    unfold reschedule
    rw [hsite]
    exact ⟨_, rfl⟩
  have hafter := isWritten_reschedule hwritten hmoment hchange
  have hplan : change.ledger.plan 1 = some (millisText (policy.drawAt moment)) := by
    obtain ⟨same, hsame, -, hledger, -⟩ := reschedule_eq_ok hchange
    cases hsite.symm.trans hsame
    rw [hledger, plan_withNext_self hsite, drawn, hpaused, hpolicy]
    rfl
  have hstored := storedInstant?_millisText
    (Policy.nano_nextRunAfter_lt policy moment.zone hmoment moment.words) hyear 13
  obtain ⟨siteAfter, hsiteAfter, hactive, hnext⟩ := hafter.exists_site_of_plan hplan hstored
  refine ⟨ledger, site, change.bare, hsite, hpolicy, congrArg (Except.map Change.bare) hchange, ?_⟩
  rw [Change.bare, Engine.syncOrder, hsiteAfter]
  simp only [Engine.orderFor, hactive, hnext, id_of_site hsiteAfter]
  rfl

end Ledger

namespace Roster

variable {roster : Roster} {siteId : Int} {due : Instant}

/-- What runs or is covered after a move did so before, or starts in the move. -/
theorem isSpent_after (h : roster.IsSound) {move : Move}
    (hspent : ((roster.after move).jobs.standing siteId).IsSpent due) :
    (roster.jobs.standing siteId).IsSpent due ∨
      ∃ start ∈ roster.starts move, start.site = siteId ∧ start.due = due := by
  cases move with
  | obey order => exact Or.inl (Engine.isSpent_of_obey hspent)
  | fire now =>
    rw [Roster.after, Jobs.standing_fire h.isKeyed] at hspent
    refine hspent.of_fired.imp_right fun hready => ?_
    have hstarts := starts_filter_eq h now siteId
    rw [hready, Option.toList_some, List.map_singleton] at hstarts
    have hmem := List.mem_singleton_self (⟨siteId, due, roster.jobs.workAt now due⟩ : Start)
    rw [← hstarts] at hmem
    exact ⟨_, (List.mem_filter.1 hmem).1, rfl, rfl⟩
  | finish body =>
    rw [standing_after_finish] at hspent
    split at hspent
    · exact Or.inl hspent.of_finished
    · exact Or.inl hspent

/-- As long as no body starts for a site, it has nothing new that runs or is covered. -/
theorem isSpent_run (h : roster.IsSound) {moves : List Move} (hallows : roster.AllowsAll moves)
    (hnone : ∀ start ∈ roster.startsOf moves, start.site ≠ siteId)
    (hspent : ((roster.run moves).jobs.standing siteId).IsSpent due) :
    (roster.jobs.standing siteId).IsSpent due := by
  induction moves generalizing roster with
  | nil => exact hspent
  | cons move rest ih =>
    have hrest := ih (h.after hallows.1) hallows.2
      (fun start hmem => hnone start (List.mem_append_right _ hmem)) hspent
    refine (isSpent_after h hrest).resolve_right ?_
    rintro ⟨start, hmem, hsite, -⟩
    exact hnone start (List.mem_append_left _ hmem) hsite

/-- What a site runs or has covered when its body starts is not due after that body. -/
theorem isUpTo_of_isSpent (h : roster.IsSound) {clock : Instant} {body : Start}
    (hbody : body ∈ roster.starts (.fire clock))
    (hspent : ((roster.after (.fire clock)).jobs.standing body.site).IsSpent due) :
    due.isUpTo body.due = true := by
  obtain ⟨hwaiting, -, hruns⟩ := mem_starts h hbody
  have hordered := (h.after_fire clock).isOrdered body.site
  rcases hspent with hrunning | hcovered
  · cases hrunning.symm.trans hruns
    exact Instant.isUpTo_refl _
  · have hbefore := hordered.covered_isBefore_running body.due due hruns hcovered
    rw [Instant.isBefore_iff] at hbefore
    rw [Instant.isUpTo_iff]
    omega

/-- What starts was due. -/
theorem due_isUpTo (h : roster.IsSound) {clock : Instant} {body : Start}
    (hbody : body ∈ roster.starts (.fire clock)) : body.due.isUpTo clock = true := by
  have hmem : body ∈ (roster.starts (.fire clock)).filter (·.site = body.site) := by
    simpa using hbody
  rw [starts_filter_eq h, List.mem_map] at hmem
  obtain ⟨due, hdue, heq⟩ := hmem
  have hready := (Standing.ready?_eq_some_iff.1 (Option.mem_toList.1 hdue)).2.1
  rw [← heq]
  exact hready

end Roster

namespace Policy

/-- Which policies are safe: just those whose draws always lie in a later second.  After a body of a
site has started, whatever such a policy draws at the same reading of the clock or a later one is
accepted, be the body in flight or over; any other policy may draw what is refused. -/
theorem isAhead_iff_draws_accepted (policy : Policy) :
    policy.IsAhead ↔
      ∀ (grace : Nat) (before later : List Move) (clock : Instant) (body : Start)
        (ledger : Ledger) (site : Site) (offset : Int) (moment : Moment) (operation : Operation)
        (change : Change Unit) (next : Instant),
        (Roster.opening grace).AllowsAll (before ++ .fire clock :: later) →
        body ∈ ((Roster.opening grace).run before).starts (.fire clock) →
        (∀ start ∈ ((Roster.opening grace).run (before ++ [.fire clock])).startsOf later,
          start.site ≠ body.site) →
        ledger.site body.site = .ok site → site.policy = policy →
        moment.zone = .fixed offset → clock.isUpTo moment.now = true →
        operation.IsDrawOf ledger body.site → operation.change moment ledger = .ok change →
        Engine.syncOrder change.ledger body.site = some (.install body.site next) →
        ((Roster.opening grace).run (before ++ .fire clock :: later)).jobs.refuses body.site next =
          false := by
  constructor
  · intro hahead grace before later clock body ledger site offset moment operation change next
      hallows hbody hnone hsite hpolicy hzone hclock hdraw hchange horder
    obtain ⟨hfound, hplan⟩ := Ledger.steers_of_isDrawOf hdraw hchange
    cases hsite.symm.trans hfound
    obtain ⟨hbefore, hfire⟩ := Roster.allowsAll_append.1 hallows
    have hsound := (Roster.isSound_opening grace).run hbefore
    have hfired := hsound.after_fire clock
    rw [Roster.run_append_singleton] at hnone
    rw [Roster.run_append, Roster.run_cons]
    have hdrawn : site.policy.drawAt moment =
        policy.nextRunAfter (.fixed offset) moment.now moment.words := by
      rw [Policy.drawAt, hpolicy, hzone]
    have hnext : next = (site.policy.drawAt moment).truncated := by
      refine Ledger.eq_truncated_of_syncOrder ?_ hplan horder
      rw [hdrawn]
      exact nano_nextRunAfter_lt_of_isAhead policy hahead offset moment.now moment.words
    have hlater : moment.now.second < next.second := by
      rw [hnext, Instant.second_truncated, hdrawn]
      exact second_lt_nextRunAfter policy hahead offset moment.now moment.words
    have hspent (due : Instant)
        (h : ((((Roster.opening grace).run before).after (.fire clock)).run later).jobs.standing
          body.site |>.IsSpent due) : due.isBefore next = true := by
      have hdue := Roster.isUpTo_of_isSpent hsound hbody (Roster.isSpent_run hfired hfire.2 hnone h)
      have hnow := Instant.isUpTo_trans
        (Instant.isUpTo_trans hdue (Roster.due_isUpTo hsound hbody)) hclock
      apply Instant.isBefore_of_second_lt
      rw [Instant.isUpTo_iff] at hnow
      omega
    rw [Jobs.refuses_eq, Standing.refuses_eq_false_iff]
    exact ⟨fun running h => hspent running (Or.inl h), fun covered h => hspent covered (Or.inr h)⟩
  · intro haccepted
    refine Classical.byContradiction fun hahead => ?_
    obtain ⟨second, hsecond, hdraw⟩ := exists_nextRunAfter_utc hahead
    have hdrawn : policy.drawAt ⟨⟨86399, 0⟩, .utc, []⟩ = ⟨second, 0⟩ := hdraw
    have hyear : Instant.HasPlainYear ⟨second, 0⟩ := by
      have hday : (second : Int) / secondsPerDay = 0 := by
        simp only [secondsPerDay]
        omega
      rw [Instant.HasPlainYear, Instant.year, hday]
      decide
    obtain ⟨ledger, site, change, hsite, hpolicy, hchange, horder⟩ :=
      @Ledger.exists_reschedule ⟨⟨86399, 0⟩, .utc, []⟩ policy (by decide) (hdrawn ▸ hyear)
    have hcut : (⟨second, 0⟩ : Instant).truncated = ⟨second, 0⟩ := by
      simp [Instant.truncated]
    rw [hdrawn, hcut] at horder
    have hbeyond := haccepted 0 [.obey (.install 1 ⟨86399, 0⟩)] [] ⟨86399, 0⟩
      ⟨1, ⟨86399, 0⟩, .run⟩ ledger site 0 ⟨⟨86399, 0⟩, .utc, []⟩ (.reschedule 1) change
      ⟨second, 0⟩ (by decide) (by decide +kernel) (by decide) hsite hpolicy rfl (by decide) rfl
      hchange horder
    rw [Jobs.refuses_eq, Standing.refuses_eq_false_iff] at hbeyond
    have hbefore := hbeyond.1 ⟨86399, 0⟩ (by decide +kernel)
    rw [Instant.isBefore_iff] at hbefore
    dsimp only at hbefore
    omega

/-- A site whose policy wants it at midnight of the same day is due at one o'clock.  Its body enters
a row, and the midnight that is drawn then is refused, while the body is in flight and when it is
over: the site is left without a job. -/
theorem draw_refused_of_today :
    let policy : Policy := ⟨{ dateStart := 0, timeStart := some 0, timeEnd := some 0 }, by decide⟩
    let moment : Moment := ⟨⟨3600, 0⟩, .utc, []⟩
    let added := (Operation.addSite { NewSite.sample with policy }).applied moment
      { feed := { capacity := 1 } }
    let entered := (Operation.insertHistory 1 (.inProgress ⟨3600, 0⟩ none)).applied moment added
    let body : Start := ⟨1, ⟨3600, 0⟩, .run⟩
    let running := (Roster.opening 60).run [.obey (.install 1 ⟨3600, 0⟩), .fire ⟨3600, 0⟩]
    Engine.syncOrder added.ledger 1 = some (.install 1 ⟨3600, 0⟩) ∧ running.flight = [body] ∧
      policy.drawAt moment = ⟨0, 0⟩ ∧
      Engine.syncOrder entered.ledger 1 = some (.install 1 ⟨0, 0⟩) ∧
      running.jobs.refuses 1 ⟨0, 0⟩ = true ∧
      (running.after (.finish body)).jobs.refuses 1 ⟨0, 0⟩ = true ∧
      ((running.after (.finish body)).after (.obey (.install 1 ⟨0, 0⟩))).jobs.pending = [] := by
  decide +kernel

end Policy

end KeepAlive
