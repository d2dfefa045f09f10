import KeepAlive.Proofs.Engine.Recovering

/-!
# The grace

A recovery and the job table of its engine are given one number for how late a job may start.  Where
both can count with it they agree: what the recovery draws anew is what the table would count as
missed at that instant.  The table takes a hundred years for a number that is too large for a span of
time.  The recovery breaks off at such a number, and at one that leads back beyond the calendar.
-/

namespace KeepAlive

open Time

/-- A next run is older than the grace before the instant exactly if it is late by more than the
grace. -/
theorem Time.Instant.isBefore_iff_late {now due : Instant} (hnow : now.nano < nanosPerSecond)
    (hdue : due.nano < nanosPerSecond) (grace : Nat) :
    due.isBefore { now with second := now.second - grace } = true ↔
      ((grace * nanosPerSecond : Nat) : Int) < now.toNanos - due.toNanos := by
  simp only [isBefore_iff, toNanos, nanosPerSecond] at hnow hdue ⊢
  omega

theorem Time.Instant.isUpTo_of_late {now due : Instant} (hnow : now.nano < nanosPerSecond)
    {late : Nat} (h : (late : Int) < now.toNanos - due.toNanos) : due.isUpTo now = true := by
  simp only [isUpTo_iff, toNanos, nanosPerSecond] at hnow h ⊢
  omega

namespace Jobs

/-- Whether a job of the site waits for the instant and none is running. -/
structure Awaits (jobs : Jobs) (siteId : Int) (due : Instant) : Prop where
  waiting : (siteId, due) ∈ jobs.waiting
  idle : jobs.running.get? siteId = none

theorem awaits_install (grace : Nat) (siteId : Int) (due : Instant) :
    (({ grace } : Jobs).install siteId due).Awaits siteId due :=
  ⟨List.mem_cons_self, rfl⟩

/-- A job that waits is handed over as missed exactly if it is too late. -/
theorem Awaits.mem_fire_missed_iff {jobs : Jobs} {siteId : Int} {now due : Instant}
    (h : jobs.Awaits siteId due) (hnow : now.nano < nanosPerSecond) :
    ⟨siteId, due, .missed⟩ ∈ (jobs.fire now).2 ↔
      (jobs.lateness : Int) < now.toNanos - due.toNanos := by
  have hpending : (siteId, due) ∈ jobs.pending := List.mem_mergeSort.2 h.waiting
  constructor
  · intro hmem
    obtain ⟨slot, -, hstart⟩ := List.mem_map.1 hmem
    obtain ⟨-, hdue, hwork⟩ := Start.mk.inj hstart
    rw [hdue, workAt] at hwork
    exact Classical.byContradiction fun hlate => by rw [if_neg hlate] at hwork; cases hwork
  · intro hlate
    have hready : (due.isUpTo now && (jobs.running.get? siteId).isNone) = true := by
      rw [Instant.isUpTo_of_late hnow hlate, h.idle]
      rfl
    refine List.mem_map.2 ⟨(siteId, due), List.mem_filter.2 ⟨hpending, hready⟩, ?_⟩
    simp only [workAt, if_pos hlate]

theorem lateness_of_le {jobs : Jobs} (h : jobs.grace ≤ longestSpan) :
    jobs.lateness = jobs.grace * nanosPerSecond := by
  rw [lateness, if_pos h]

end Jobs

namespace Recovery

theorem cutoff_eq_graceTooLong_iff {now : Instant} {grace : Nat} :
    cutoff now grace = .error .graceTooLong ↔ Jobs.longestSpan < grace := by
  unfold cutoff
  by_cases hlong : Jobs.longestSpan < grace
  · simp [hlong]
  · simp only [hlong, if_false, iff_false]
    split <;> simp

theorem cutoff_eq_beyondCalendar_iff {now : Instant} {grace : Nat} :
    cutoff now grace = .error .beyondCalendar ↔
      grace ≤ Jobs.longestSpan ∧ now.second - grace < calendarStart := by
  unfold cutoff
  by_cases hlong : Jobs.longestSpan < grace
  · simp [hlong, Nat.not_le.2 hlong]
  · by_cases hfar : now.second - grace < calendarStart <;> simp [hlong, hfar, Nat.not_lt.1 hlong]

/-- Whether a recovery goes on, or has broken off at the store. -/
def IsOfStore (recovery : Recovery) : Prop :=
  ∀ error, recovery.error = some error → ∃ refusal, error = .refused refusal

theorem IsOfStore.turn {recovery : Recovery} (h : recovery.IsOfStore) (moments : Int → Moment)
    (cut : Instant) (site : Site) : (turn moments cut recovery site).IsOfStore := by
  unfold Recovery.turn
  split
  · exact h
  · simp only
    split
    · rintro _ ⟨rfl⟩
      exact ⟨_, rfl⟩
    · split <;> exact h

theorem IsOfStore.foldl {recovery : Recovery} (h : recovery.IsOfStore) (moments : Int → Moment)
    (cut : Instant) (sites : List Site) :
    (sites.foldl (Recovery.turn moments cut) recovery).IsOfStore := by
  induction sites generalizing recovery with
  | nil => exact h
  | cons site rest ih => exact ih (h.turn moments cut site)

/-- A recovery breaks off at the grace exactly if the grace leads nowhere. -/
theorem error_ofStore_iff {store : Store} {moment : Moment} {moments : Int → Moment} {grace : Nat}
    {error : RecoveryError} (herror : ∀ refusal, error ≠ .refused refusal) :
    (ofStore store moment moments grace).error = some error ↔
      cutoff moment.now grace = .error error := by
  unfold ofStore
  cases hcut : cutoff moment.now grace with
  | error other => simp
  | ok cut =>
    simp only [reduceCtorEq, iff_false]
    intro hbroken
    split at hbroken
    · exact herror _ (Option.some.inj hbroken).symm
    · have hstart : IsOfStore
          { store := store.commit (store.ledger.failStale moment.now interrupted) } := by
        intro error herror
        cases herror
      obtain ⟨refusal, hrefusal⟩ := hstart.foldl moments cut _ error hbroken
      exact herror refusal hrefusal

/-- With room for the grace, a recovery of what only the library has written fails exactly if the
sites cannot be read. -/
theorem error_ofStore_of_hasRoom {store : Store} (hwritten : store.ledger.IsWritten)
    {moment : Moment} (moments : Int → Moment) {grace : Nat} (hroom : HasRoom moment.now grace) :
    (ofStore store moment moments grace).error =
      match store.ledger.allSites with
      | .error refusal => some (.refused refusal)
      | .ok _ => none := by
  cases hsites : store.ledger.allSites with
  | ok sites =>
    exact (isPartway_ofStore hwritten hsites moments hroom.span hroom.calendar).error
  | error refusal =>
    have hfailed : (store.commit
        (store.ledger.failStale moment.now interrupted)).ledger.allSites = .error refusal := hsites
    simp only [ofStore, cutoff_of_hasRoom hroom, hfailed]

end Recovery

/-- The next run of a site that has been read is no leap second. -/
theorem SiteRow.IsWritten.nano_next_lt {row : SiteRow} (h : row.IsWritten) {site : Site}
    (hsite : row.site? = .ok site) {due : Instant} (hdue : site.next = some due) :
    due.nano < nanosPerSecond := by
  obtain ⟨instant, hnano, -, rfl⟩ := h.exists_stored hsite hdue
  exact Nat.lt_of_le_of_lt (Nat.div_mul_le_self instant.nano 1000000) hnano

/-- A site before and after a start.  If it is paused, it is as it was.  Else it is drawn anew exactly
if a job table with the same grace, in which its stored job waits, hands it over as missed at that
instant. -/
structure SiteRow.IsJudged (moments : Int → Moment) (now : Instant) (grace : Nat) (site : Site)
    (row later : SiteRow) : Prop where
  read : row.site? = .ok site
  paused : site.paused = true → later = row
  active : site.paused = false → ∃ due, site.next = some due ∧
    ∀ jobs : Jobs, jobs.grace = grace → jobs.Awaits site.id due →
      (⟨site.id, due, .missed⟩ ∈ (jobs.fire now).2 →
        later = { row with next := some (millisText (site.policy.drawAt (moments site.id))) }) ∧
      (⟨site.id, due, .missed⟩ ∉ (jobs.fire now).2 → later = row)

/-- A turn in a recovery judges as a job table does. -/
theorem SiteRow.IsWritten.isJudged {row : SiteRow} (h : row.IsWritten) {site : Site}
    (hsite : row.site? = .ok site) (moments : Int → Moment) {now : Instant}
    (hnow : now.nano < nanosPerSecond) {grace : Nat} (hgrace : grace ≤ Jobs.longestSpan) :
    SiteRow.IsJudged moments now grace site row
      (row.renewed moments { now with second := now.second - grace }) := by
  have hpaused : site.paused = site.next.isNone := by
    rw [h.paused_eq hsite, h.next_eq hsite, Option.isNone_map]
  refine ⟨hsite, fun hyes => ?_, fun hno => ?_⟩
  · rw [hyes, eq_comm, Option.isNone_iff_eq_none] at hpaused
    rw [renewed_eq hsite, hpaused]
    rfl
  · rw [hno, eq_comm, Option.isNone_eq_false_iff, Option.isSome_iff_exists] at hpaused
    obtain ⟨due, hdue⟩ := hpaused
    have hnano : due.nano < nanosPerSecond := h.nano_next_lt hsite hdue
    refine ⟨due, hdue, fun jobs hsame hawaits => ?_⟩
    have hlateness : jobs.lateness = grace * nanosPerSecond := by
      rw [Jobs.lateness_of_le (hsame ▸ hgrace), hsame]
    rw [hawaits.mem_fire_missed_iff hnow, hlateness, ← Instant.isBefore_iff_late hnow hnano,
      renewed_eq hsite, hdue]
    exact ⟨fun hold => if_pos hold, fun hyoung => if_neg hyoung⟩

namespace Workshop

variable {σ : Type}

theorem start_eq_error_iff {workshop : Workshop σ} {moment : Moment} {moments : Int → Moment}
    {grace : Nat} {error : RecoveryError} :
    (workshop.start moment moments grace).1 = .error error ↔
      (Recovery.ofStore workshop.around.store moment moments grace).error = some error := by
  simp only [start]
  split <;> simp [*]

theorem start_eq_ok_iff {workshop : Workshop σ} {moment : Moment} {moments : Int → Moment}
    {grace : Nat} : (workshop.start moment moments grace).1 = .ok () ↔
      (Recovery.ofStore workshop.around.store moment moments grace).error = none := by
  simp only [start]
  split <;> simp [*]

/-- A start fails because of the grace exactly if this is no span of time or leads back beyond the
calendar.  With a grace that does neither, it fails only if the sites cannot be read, and it draws
exactly those sites anew whose job a table with that grace hands over as missed. -/
theorem start_judges_as_table (workshop : Workshop σ) (moment : Moment) (moments : Int → Moment)
    (grace : Nat) :
    let ledger := workshop.around.store.ledger
    let started := workshop.start moment moments grace
    (started.1 = .error .graceTooLong ↔ Jobs.longestSpan < grace) ∧
    (started.1 = .error .beyondCalendar ↔
      grace ≤ Jobs.longestSpan ∧ moment.now.second - grace < Recovery.calendarStart) ∧
    (Recovery.HasRoom moment.now grace → ledger.IsWritten →
      (∀ refusal, started.1 = .error (.refused refusal) ↔ ledger.allSites = .error refusal) ∧
      (started.1 = .ok () ↔ ∃ sites, ledger.allSites = .ok sites) ∧
      ∀ sites, ledger.allSites = .ok sites → moment.now.nano < nanosPerSecond →
        List.Forall₂ (fun row later => ∃ site ∈ sites,
            SiteRow.IsJudged moments moment.now grace site row later)
          ledger.sites started.2.around.store.ledger.sites) := by
  intro ledger started
  refine ⟨?_, ?_, fun hroom hwritten => ⟨fun refusal => ?_, ?_, fun sites hsites hnow => ?_⟩⟩
  · rw [start_eq_error_iff, Recovery.error_ofStore_iff (by simp), Recovery.cutoff_eq_graceTooLong_iff]
  · rw [start_eq_error_iff, Recovery.error_ofStore_iff (by simp),
      Recovery.cutoff_eq_beyondCalendar_iff]
  · rw [start_eq_error_iff, Recovery.error_ofStore_of_hasRoom hwritten moments hroom]
    cases ledger.allSites <;> simp
  · rw [start_eq_ok_iff, Recovery.error_ofStore_of_hasRoom hwritten moments hroom]
    cases ledger.allSites <;> simp
  · have hpartway := Recovery.isPartway_ofStore hwritten hsites moments hroom.span hroom.calendar
    have hrows : (ledger.failStale moment.now Recovery.interrupted).ledger.sites = ledger.sites :=
      rfl
    rw [ledger_start, hpartway.sites, hrows, List.forall₂_map_right_iff, List.forall₂_same]
    intro row hrow
    obtain ⟨site, hread⟩ :=
      Ledger.isReadable_of_mapM_eq_ok (Ledger.mapError_unreadable_eq_ok.1 hsites) hrow
    have hsite : site ∈ sites :=
      (Ledger.mapM_eq_ok (Ledger.mapError_unreadable_eq_ok.1 hsites) site).2 ⟨row, hrow, hread⟩
    have hid : site.id = row.id := (SiteRow.site?_eq_ok hread).1
    rw [if_pos (List.mem_map.2 ⟨site, hsite, hid⟩)]
    exact ⟨site, hsite, (hwritten.rows row hrow).isJudged hread moments hnow hroom.span⟩

/-- A job is sixty seconds late, which is not too late for a grace of sixty, and then a nanosecond more,
which is. -/
theorem drawn_anew_after_grace :
    let moment (nano : Nat) : Moment := ⟨⟨61, nano⟩, .utc, []⟩
    let store := (Operation.addSite .sample).applied ⟨⟨1, 0⟩, .utc, []⟩ { feed := { capacity := 1 } }
    let workshop : Workshop Unit := ⟨{ store, browser := (), time := 0 }, []⟩
    let table := ({ grace := 60 } : Jobs).install 1 ⟨1, 0⟩
    let starts (nano : Nat) := (workshop.start (moment nano) (fun _ => moment nano) 60).2
    table.Awaits 1 ⟨1, 0⟩ ∧ (table.fire (moment 0).now).2 = [⟨1, ⟨1, 0⟩, .run⟩] ∧
      (starts 0).around.store.ledger.sites.map (·.next) = [some (millisText ⟨1, 0⟩)] ∧
        (table.fire (moment 1).now).2 = [⟨1, ⟨1, 0⟩, .missed⟩] ∧
          (starts 1).around.store.ledger.sites.map (·.next) = [some (millisText ⟨661, 0⟩)] ∧
            List.Forall₂ (fun row later => ∃ site,
                SiteRow.IsJudged (fun _ => moment 1) (moment 1).now 60 site row later)
              store.ledger.sites (starts 1).around.store.ledger.sites := by
  intro moment store workshop table starts
  have hwritten : store.ledger.IsWritten :=
    Store.isWritten_applied Ledger.IsWritten.empty (by decide) _
  have hread : store.ledger.allSites.isOk = true := by decide +kernel
  refine ⟨Jobs.awaits_install 60 1 ⟨1, 0⟩, by decide +kernel, by decide +kernel, by decide +kernel,
    by decide +kernel, ?_⟩
  cases hsites : store.ledger.allSites with
  | error refusal =>
    rw [hsites] at hread
    cases hread
  | ok sites =>
    have hroom : Recovery.HasRoom (moment 1).now 60 := ⟨by decide, by decide⟩
    obtain ⟨-, -, hjudged⟩ := start_judges_as_table workshop (moment 1) (fun _ => moment 1) 60
    obtain ⟨-, -, hrows⟩ := hjudged hroom hwritten
    refine (hrows sites hsites (by decide)).imp ?_
    rintro row later ⟨site, -, hrow⟩
    exact ⟨site, hrow⟩

/-- With the largest grace that can be configured, and with one that leads back beyond the calendar, a
new store cannot be started.  A job table takes both. -/
theorem no_start_with_longest_grace :
    let moment : Moment := ⟨⟨1700000000, 0⟩, .utc, []⟩
    let workshop : Workshop Unit :=
      ⟨{ store := { feed := { capacity := 1 } }, browser := (), time := 0 }, []⟩
    let start (grace : Nat) := (workshop.start moment (fun _ => moment) grace).1
    let table (grace : Nat) := ({ grace } : Jobs).install 1 ⟨1699999999, 0⟩
    start (2 ^ 64 - 1) = .error .graceTooLong ∧ start 9000000000000 = .error .beyondCalendar ∧
      start 3600 = .ok () ∧
        ∀ grace ∈ [2 ^ 64 - 1, 9000000000000, 3600],
          ((table grace).fire moment.now).2 = [⟨1, ⟨1699999999, 0⟩, .run⟩] := by
  intro moment workshop start table
  exact ⟨by decide +kernel, by decide +kernel, by decide +kernel, by decide +kernel⟩

end Workshop

end KeepAlive
