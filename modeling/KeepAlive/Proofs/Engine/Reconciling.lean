import KeepAlive.Proofs.Engine.Recovering
import KeepAlive.Proofs.Ledger.Filing

/-!
# What a reconciliation does

An attempt that broke off has its first open row failed, or a new row if it has no open one, and its
site is drawn anew.  For an attempt of a site that is gone nothing happens.
-/

namespace KeepAlive

open Time

namespace HistoryRow

/-- The row of an attempt after it broke off. -/
def brokenOff (row : HistoryRow) (now : Instant) (message : String) : HistoryRow :=
  { row with
    ended := some (millisText now), status := ActionStatus.failed.code
    failure := some LoginStatus.unknownExecutionError.code, message := some message }

end HistoryRow

namespace Ledger

/-- All stored times are those of instants in years of four digits. -/
structure HasPlainTimes (ledger : Ledger) : Prop where
  sites : ledger.HasPlainYears
  history : ∀ row ∈ ledger.history, row.HasPlainTimes

/-- A site has been drawn anew, unless it is paused and has no next run, and no other site has changed.
-/
structure IsRedrawn (ledger : Ledger) (moment : Moment) (site : Site) (after : Ledger) : Prop where
  paused : site.paused = true → site.next = none ∧ after.sites = ledger.sites
  active : site.paused = false → after.sites = ledger.sites.map fun row =>
    if row.id = site.id then { row with next := some (millisText (site.policy.drawAt moment)) }
    else row

section

variable {ledger : Ledger} {moment : Moment}

theorem IsWritten.isRedrawn (h : ledger.IsWritten) {id : Int} {site : Site}
    (hsite : ledger.site id = .ok site) {after : Ledger}
    (hafter : after.sites = (ledger.withNext site.id (Ledger.drawn site moment)).sites) :
    ledger.IsRedrawn moment site after := by
  have hid := id_of_site hsite
  constructor
  · intro hpaused
    have hnone := h.paused_eq_isNone hsite
    rw [hpaused, eq_comm, Option.isNone_iff_eq_none] at hnone
    refine ⟨hnone, ?_⟩
    rw [hafter, Ledger.withNext, Ledger.withSite, Ledger.drawn, if_pos hpaused]
    refine (List.map_congr_left fun row hmem => ?_).trans (List.map_id _)
    split
    · rename_i hrow
      have hread := h.site?_of_mem hsite hmem (hrow.trans hid)
      have hstored := (h.rows row hmem).next_eq hread
      rw [hnone] at hstored
      rw [Option.map_none, ← Option.map_none (f := millisText), ← hstored]
      rfl
    · rfl
  · intro hactive
    rw [hafter, Ledger.withNext, Ledger.drawn, hactive]
    rfl

/-- An open entry of a site that can be read is finished. -/
theorem finish_of_open (hnodup : (ledger.history.map (·.id)).Nodup) {row : HistoryRow}
    (hmem : row ∈ ledger.history) {current : History} (hread : row.history? = .ok current)
    (hopen : row.isOpen = true) {site : Site} (hsite : ledger.site row.siteId = .ok site)
    {how : Finish} {entry : History} (hentry : (row.finished moment.now how).history? = .ok entry) :
    ledger.finish moment row.id how =
      .ok (entry, (ledger.withHistory row.id (·.finished moment.now how)).withNext site.id
        (drawn site moment)) := by
  have hfound := find?_of_nodup hnodup hmem
  have hcurrent : ledger.entry row.id = .ok current := entry_eq_ok_iff.2 ⟨row, hfound, hread⟩
  obtain ⟨-, hsiteId, hstatus⟩ := HistoryRow.history?_eq_ok hread
  have hstage : current.status.isTerminal = false := by
    rw [HistoryRow.isOpen_eq hstatus] at hopen
    simpa using hopen
  have hafter : ((ledger.withHistory row.id (·.finished moment.now how)).withNext site.id
      (drawn site moment)).entry row.id = .ok entry := by
    refine entry_eq_ok_iff.2 ⟨row.finished moment.now how, ?_, hentry⟩
    have hid : ∀ row : HistoryRow, (row.finished moment.now how).id = row.id := fun _ => rfl
    change (ledger.withHistory row.id (·.finished moment.now how)).history.find? _ = _
    rw [withHistory, find?_changed hid, hfound, Option.map_some, if_pos rfl]
  have hwritten : (ledger.withHistory row.id (·.finished moment.now how)).site current.siteId =
      .ok site := by
    rw [hsiteId]
    exact hsite
  unfold finish
  simp only [hcurrent, hstage, hwritten, hafter, bind, Except.bind, pure, Except.pure]
  rfl

/-- An entry that can be read is added to the history of a site that can be read. -/
theorem insertHistory_of_site {siteId : Int} {site : Site} (hsite : ledger.site siteId = .ok site)
    {new : NewHistory} {id : Int} (hid : id = nextId (ledger.history.map (·.id))) {entry : History}
    (hentry : (HistoryRow.ofNew id siteId new).history? = .ok entry) :
    ledger.insertHistory moment siteId new = .ok {
      result := entry
      ledger := Ledger.withNext { ledger with
        history := placed (·.id) (.ofNew id siteId new) ledger.history } site.id (drawn site moment)
      events := [.historyLogged siteId id] } := by
  obtain ⟨row, hrow⟩ : ∃ row, row = HistoryRow.ofNew id siteId new := ⟨_, rfl⟩
  have hkey : row.id = id := by rw [hrow]; rfl
  have hfound : (placed (·.id) row ledger.history).find? (·.id = row.id) = some row :=
    @find?_placed_self _ (·.id) row ledger.history
  rw [← hrow] at hentry ⊢
  rw [hkey] at hfound
  have hread : Ledger.entry { ledger with history := placed (·.id) row ledger.history } id =
      .ok entry := entry_eq_ok_iff.2 ⟨row, hfound, hentry⟩
  unfold insertHistory
  simp only [hsite, ← hid, ← hrow, hread, bind, Except.bind, pure, Except.pure]

theorem IsFiled.isPlain (h : ledger.IsFiled) (htimes : ledger.HasPlainTimes) {row : HistoryRow}
    (hmem : row ∈ ledger.history) : row.IsPlain :=
  ⟨h.coded row hmem, htimes.history row hmem⟩

/-- The first row that is found in a filed history has the smallest id. -/
theorem IsFiled.id_le_of_find? (h : ledger.IsFiled) {isMeant : HistoryRow → Bool} {row : HistoryRow}
    (hfound : ledger.history.find? isMeant = some row) {other : HistoryRow}
    (hmem : other ∈ ledger.history) (hother : isMeant other = true) : row.id ≤ other.id := by
  obtain ⟨-, before, after, hsplit, hbefore⟩ := List.find?_eq_some_iff_append.1 hfound
  have hordered := h.ordered
  rw [hsplit] at hmem hordered
  rcases List.mem_append.1 hmem with hearlier | hrest
  · have hnot := hbefore other hearlier
    rw [hother] at hnot
    cases hnot
  · rcases List.mem_cons.1 hrest with rfl | hlater
    · exact Int.le_refl _
    · obtain ⟨-, hrow, -⟩ := List.pairwise_append.1 hordered
      exact Int.le_of_lt ((List.pairwise_cons.1 hrow).1 other hlater)

theorem reconcile_of_some {fault : Fault} {row : HistoryRow}
    (hfound : ledger.history.find? (isMeant fault.siteId fault.started) = some row) {entry : History}
    {after : Ledger}
    (hfinish : ledger.finish moment row.id (broken (some fault.message)) = .ok (entry, after)) :
    ledger.reconcile moment fault =
      .ok ⟨entry, after, [.historyChanged fault.siteId row.id]⟩ := by
  unfold reconcile
  rw [failInProgress_of_some hfound, hfinish]
  rfl

theorem reconcile_of_none {fault : Fault}
    (h : ledger.history.find? (isMeant fault.siteId fault.started) = none) :
    ledger.reconcile moment fault = ledger.insertHistory moment fault.siteId
      (.crashed fault.started moment.now (some fault.message)) := by
  unfold reconcile
  rw [failInProgress_of_none h]
  rfl

end

end Ledger

/-- What a reconciliation makes of a store. -/
inductive Store.IsReconciled (store : Store) (moment : Moment) (fault : Ledger.Fault) :
    Except Refusal History × Store → Prop
  /-- The site is there, and the open row of the attempt with the smallest id is failed. -/
  | failed {site : Site} {row : HistoryRow} {entry : History} {after : Store}
      (hsite : store.ledger.site fault.siteId = .ok site)
      (hrow : row ∈ store.ledger.history) (hopen : row.IsOpenAt fault.siteId fault.started)
      (hfirst : ∀ other ∈ store.ledger.history, other.IsOpenAt fault.siteId fault.started →
        row.id ≤ other.id)
      (hentry : (row.brokenOff moment.now fault.message).history? = .ok entry)
      (hhistory : after.ledger.history = store.ledger.history.map fun other =>
        if other = row then row.brokenOff moment.now fault.message else other)
      (hredrawn : store.ledger.IsRedrawn moment site after.ledger) :
      IsReconciled store moment fault (.ok entry, after)
  /-- The site is there and no row of the attempt is open, and one row is added. -/
  | recorded {site : Site} {row : HistoryRow} {entry : History} {after : Store}
      (hsite : store.ledger.site fault.siteId = .ok site)
      (hnone : ∀ row ∈ store.ledger.history, ¬row.IsOpenAt fault.siteId fault.started)
      (hrow : row = {
        id := row.id, siteId := fault.siteId, started := millisText fault.started
        ended := some (millisText moment.now), status := ActionStatus.failed.code
        failure := some LoginStatus.unknownExecutionError.code
        message := some fault.message, screenshotId := none })
      (hnew : row.id ∉ store.ledger.history.map (·.id))
      (hentry : row.history? = .ok entry)
      (hhistory : after.ledger.history.Perm (row :: store.ledger.history))
      (hredrawn : store.ledger.IsRedrawn moment site after.ledger) :
      IsReconciled store moment fault (.ok entry, after)
  /-- The site is gone. -/
  | refused (hgone : ∀ row ∈ store.ledger.sites, row.id ≠ fault.siteId) :
      IsReconciled store moment fault (.error (.siteNotFound fault.siteId), store)

namespace Store

section

variable {store : Store} (hwritten : store.ledger.IsWritten) (hfiled : store.ledger.IsFiled)
variable (htimes : store.ledger.HasPlainTimes) {moment : Moment} (hnow : moment.now.IsStorable)
variable {fault : Ledger.Fault} (hstarted : fault.started.IsStorable)

include hwritten hfiled htimes hnow hstarted

theorem isReconciled_of_open {row : HistoryRow}
    (hfound : store.ledger.history.find? (Ledger.isMeant fault.siteId fault.started) = some row) :
    store.IsReconciled moment fault (store.perform (·.reconcile moment fault)) := by
  have hmem := List.mem_of_find?_eq_some hfound
  have hplain := hfiled.isPlain htimes hmem
  have hmeant : ∀ other ∈ store.ledger.history,
      Ledger.isMeant fault.siteId fault.started other = true ↔
        other.IsOpenAt fault.siteId fault.started :=
    fun other hother => HistoryRow.isMeant_iff_isOpenAt
      (fun _ => hfiled.isPlain htimes hother) hstarted
  have hopen := (hmeant row hmem).1 (List.find?_some hfound)
  obtain ⟨house, hhouse, hid⟩ := hfiled.housed row hmem
  obtain ⟨sites, hsites⟩ := hwritten.exists_allSites htimes.sites
  obtain ⟨site, hsite⟩ := hwritten.exists_site hsites hhouse
  rw [hid] at hsite
  obtain ⟨current, hcurrent⟩ := hplain.exists_history?
  obtain ⟨entry, hentry⟩ :=
    (hplain.finished hnow (Ledger.broken (some fault.message))).exists_history?
  have hfinish := Ledger.finish_of_open hwritten.history_nodup hmem hcurrent hopen.isOpen hsite hentry
  rw [perform_of_ok (Ledger.reconcile_of_some hfound hfinish)]
  rw [hopen.siteId] at hsite
  refine .failed hsite hmem hopen (fun other hother hsame => ?_) hentry ?_
    (hwritten.isRedrawn hsite rfl)
  · exact hfiled.id_le_of_find? hfound hother ((hmeant other hother).2 hsame)
  · refine List.map_congr_left fun other hother => ?_
    by_cases hsame : other.id = row.id
    · rw [Ledger.eq_of_nodup hwritten.history_nodup hother hmem hsame, if_pos rfl, if_pos rfl]
      rfl
    · rw [if_neg hsame, if_neg fun heq => hsame (congrArg (·.id) heq)]

theorem isReconciled_of_not_open {row : SiteRow} (hmem : row ∈ store.ledger.sites)
    (hid : row.id = fault.siteId)
    (hnone : store.ledger.history.find? (Ledger.isMeant fault.siteId fault.started) = none) :
    store.IsReconciled moment fault (store.perform (·.reconcile moment fault)) := by
  obtain ⟨sites, hsites⟩ := hwritten.exists_allSites htimes.sites
  obtain ⟨site, hsite⟩ := hwritten.exists_site hsites hmem
  rw [hid] at hsite
  obtain ⟨id, hnext⟩ : ∃ id, id = Ledger.nextId (store.ledger.history.map (·.id)) := ⟨_, rfl⟩
  have hnew : id ∉ store.ledger.history.map (·.id) := by
    rw [hnext]
    exact Ledger.nextId_not_mem _
  have hplain : (HistoryRow.ofNew id fault.siteId
      (.crashed fault.started moment.now (some fault.message))).IsPlain := by
    refine HistoryRow.isPlain_ofNew _ _ hstarted ?_
    rintro ended ⟨rfl⟩
    exact hnow
  obtain ⟨entry, hentry⟩ := hplain.exists_history?
  have hreconcile : store.ledger.reconcile moment fault = _ :=
    (Ledger.reconcile_of_none hnone).trans (Ledger.insertHistory_of_site hsite hnext hentry)
  rw [perform_of_ok hreconcile]
  refine .recorded hsite (fun other hother hopen => ?_) rfl hnew hentry ?_
    (hwritten.isRedrawn hsite rfl)
  · have hmeant := (HistoryRow.isMeant_iff_isOpenAt
      (fun _ => hfiled.isPlain htimes hother) hstarted).2 hopen
    exact List.find?_eq_none.1 hnone other hother hmeant
  · exact Ledger.perm_placed hnew

omit hwritten htimes hnow hstarted in
theorem isReconciled_of_gone (hgone : ∀ row ∈ store.ledger.sites, row.id ≠ fault.siteId) :
    store.IsReconciled moment fault (store.perform (·.reconcile moment fault)) := by
  have hnone : store.ledger.history.find? (Ledger.isMeant fault.siteId fault.started) = none := by
    refine List.find?_eq_none.2 fun row hmem hmeant => ?_
    obtain ⟨site, hsite, hid⟩ := hfiled.housed row hmem
    rw [Ledger.isMeant, Bool.and_eq_true, Bool.and_eq_true, decide_eq_true_eq] at hmeant
    exact hgone site hsite (hid.trans hmeant.1.1)
  have hsite : store.ledger.site fault.siteId = .error (.siteNotFound fault.siteId) := by
    have hfound : store.ledger.sites.find? (·.id = fault.siteId) = none :=
      List.find?_eq_none.2 fun row hmem hid => hgone row hmem (of_decide_eq_true hid)
    rw [Ledger.site, hfound]
    rfl
  have hrefused : store.ledger.reconcile moment fault = .error (.siteNotFound fault.siteId) := by
    rw [Ledger.reconcile_of_none hnone]
    unfold Ledger.insertHistory
    rw [hsite]
    rfl
  rw [perform_of_refused hrefused]
  exact .refused hgone

end

/-- Whatever a new store has been asked for, at a clock without leap seconds, a reconciliation fails the
first open row of the attempt, or adds a row if there is no open one, or is refused if the site is
gone. -/
theorem isReconciled_after_run (feed : Feed) (steps : Steps)
    (hclock : ∀ step ∈ steps, step.1.now.nano < nanosPerSecond) :
    let store := run { feed } steps
    store.ledger.HasPlainTimes →
      ∀ (moment : Moment) (fault : Ledger.Fault), moment.now.IsStorable → fault.started.IsStorable →
        store.IsReconciled moment fault (store.perform (·.reconcile moment fault)) := by
  intro store htimes moment fault hnow hstarted
  obtain ⟨hwritten, hfiled⟩ := isWritten_and_isFiled_run feed hclock
  by_cases hsite : ∃ row ∈ store.ledger.sites, row.id = fault.siteId
  · obtain ⟨row, hmem, hid⟩ := hsite
    cases hfound : store.ledger.history.find? (Ledger.isMeant fault.siteId fault.started) with
    | none => exact isReconciled_of_not_open hwritten hfiled htimes hnow hstarted hmem hid hfound
    | some row => exact isReconciled_of_open hwritten hfiled htimes hnow hstarted hfound
  · exact isReconciled_of_gone hfiled fun row hmem hid => hsite ⟨row, hmem, hid⟩

/-- A site with two open attempts that began in the same millisecond.  One of them breaks off, and the
first one is failed; an attempt of another site is refused. -/
theorem first_of_two_attempts_failed :
    let moment (second : Int) : Moment := ⟨⟨second, 0⟩, .utc, []⟩
    let steps : Steps := [
      (moment 1, .addSite NewSite.sample),
      (moment 2, .insertHistory 1 (.inProgress ⟨2, 500⟩ (some "2.png"))),
      (moment 3, .insertHistory 1 (.inProgress ⟨2, 800000⟩ none))]
    let store := run { feed := { capacity := 1 } } steps
    let fault (siteId : Int) : Ledger.Fault := ⟨siteId, ⟨2, 999999⟩, "broken"⟩
    let reconciled (siteId : Int) := store.perform (·.reconcile (moment 4) (fault siteId))
    (reconciled 1).1.map (·.id) = .ok 1 ∧
      (reconciled 1).2.ledger.history.map (fun row => (row.status, row.screenshotId)) =
        [(ActionStatus.failed.code, some "2.png"), (ActionStatus.inProgress.code, none)] ∧
      (reconciled 1).2.ledger.sites.map (·.next) = [some (millisText ⟨604, 0⟩)] ∧
      (reconciled 2).1 = .error (.siteNotFound 2) ∧
      ∀ siteId, store.IsReconciled (moment 4) (fault siteId) (reconciled siteId) := by
  intro moment steps store fault reconciled
  have hclock : ∀ step ∈ steps, step.1.now.nano < nanosPerSecond := by decide
  have hnexts : store.ledger.sites.map (·.next) = [some (millisText ⟨603, 0⟩)] := by decide +kernel
  have htexts : store.ledger.history.map (fun row => (row.started, row.ended)) =
      [(millisText ⟨2, 500⟩, none), (millisText ⟨2, 800000⟩, none)] := by decide +kernel
  have htimes : store.ledger.HasPlainTimes := by
    constructor
    · intro row hrow text htext
      have hmem : row.next ∈ store.ledger.sites.map (·.next) := List.mem_map_of_mem hrow
      rw [hnexts, htext, List.mem_singleton] at hmem
      exact ⟨⟨603, 0⟩, Nat.zero_lt_succ _, by decide, Option.some.inj hmem⟩
    · intro row hrow
      have hmem : (row.started, row.ended) ∈
          store.ledger.history.map fun row => (row.started, row.ended) := List.mem_map_of_mem hrow
      rw [htexts] at hmem
      simp only [List.mem_cons, List.not_mem_nil, or_false, Prod.mk.injEq] at hmem
      rcases hmem with ⟨hstarted, hended⟩ | ⟨hstarted, hended⟩
      · exact ⟨⟨⟨2, 500⟩, ⟨by decide, by decide⟩, hstarted⟩, by simp [hended]⟩
      · exact ⟨⟨⟨2, 800000⟩, ⟨by decide, by decide⟩, hstarted⟩, by simp [hended]⟩
  have hstarted : Instant.IsStorable ⟨2, 999999⟩ := ⟨by decide, by decide⟩
  have hreconciled := isReconciled_after_run { capacity := 1 } steps hclock htimes
  refine ⟨by decide +kernel, by decide +kernel, by decide +kernel, by decide +kernel, ?_⟩
  intro siteId
  exact hreconciled (moment 4) (fault siteId) ⟨by decide, by decide⟩ hstarted

end Store

end KeepAlive
