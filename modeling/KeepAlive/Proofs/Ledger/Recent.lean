import KeepAlive.Proofs.Ledger.Entries
import KeepAlive.Proofs.Time.TextOrder

/-!
# The latest entries

The history of a site is sorted by the texts of its starts, and an attempt is looked for by the text
of its start.  As the texts are in the order of the instants, the entries that are read come the
latest first, and the rows that are found are those whose start is the same to the millisecond.
-/

namespace KeepAlive

open Time

theorem storedInstant?_of_isStorable {instant : Instant} (h : instant.IsStorable) (place : Nat) :
    storedInstant? place (millisText instant) = .ok instant.truncated := by
  rw [storedInstant?, read_millisText_of_staysInMinute h.staysInMinute h.hasPlainYear]

namespace HistoryRow

/-- The codes of a row are known. -/
structure IsCoded (row : HistoryRow) : Prop where
  status : ∃ status, row.status? = .ok status
  failure : ∃ failure, row.failure? = .ok failure

/-- The times of a row are stored texts of instants that can be read back. -/
structure HasPlainTimes (row : HistoryRow) : Prop where
  started : ∃ started : Instant, started.IsStorable ∧ row.started = millisText started
  ended : ∀ text, row.ended = some text →
    ∃ ended : Instant, ended.IsStorable ∧ text = millisText ended

/-- A row in which all can be read. -/
structure IsPlain (row : HistoryRow) : Prop extends IsCoded row, HasPlainTimes row

theorem failure?_of_code {row : HistoryRow} {failure : Option LoginStatus}
    (h : row.failure = failure.map (·.code)) : row.failure? = .ok failure := by
  rw [failure?, h]
  cases failure with
  | none => rfl
  | some status => simp only [Option.map_some, LoginStatus.ofCode?_code]

theorem isCoded_ofNew (id siteId : Int) (new : NewHistory) : (ofNew id siteId new).IsCoded :=
  ⟨⟨new.status, status?_of_code rfl⟩, ⟨new.failure, failure?_of_code rfl⟩⟩

theorem isCoded_finished (row : HistoryRow) (now : Instant) (how : Finish) :
    (row.finished now how).IsCoded :=
  ⟨⟨how.status, status?_of_code rfl⟩, ⟨how.failure, failure?_of_code rfl⟩⟩

theorem isPlain_ofNew (id siteId : Int) {new : NewHistory} (hstarted : new.started.IsStorable)
    (hended : ∀ ended, new.ended = some ended → ended.IsStorable) :
    (ofNew id siteId new).IsPlain := by
  refine ⟨isCoded_ofNew id siteId new, ⟨new.started, hstarted, rfl⟩, ?_⟩
  intro text htext
  obtain ⟨ended, hnew, rfl⟩ := Option.map_eq_some_iff.1 htext
  exact ⟨ended, hended ended hnew, rfl⟩

theorem IsPlain.finished {row : HistoryRow} (h : row.IsPlain) {now : Instant} (hnow : now.IsStorable)
    (how : Finish) : (row.finished now how).IsPlain := by
  refine ⟨row.isCoded_finished now how, h.started, ?_⟩
  intro text htext
  exact ⟨now, hnow, (Option.some.inj htext).symm⟩

theorem IsPlain.exists_history? {row : HistoryRow} (h : row.IsPlain) :
    ∃ entry, row.history? = .ok entry := by
  obtain ⟨started, hstarted, htext⟩ := h.started
  obtain ⟨status, hstatus⟩ := h.status
  obtain ⟨failure, hfailure⟩ := h.failure
  have hstart : storedInstant? 2 row.started = .ok started.truncated := by
    rw [htext, storedInstant?_of_isStorable hstarted]
  obtain ⟨ended, hended⟩ : ∃ ended, storedInstantOrNone? 3 row.ended = .ok ended := by
    cases hrow : row.ended with
    | none => exact ⟨none, rfl⟩
    | some text =>
      obtain ⟨ended, hended, rfl⟩ := h.ended text hrow
      rw [storedInstantOrNone?, storedInstant?_of_isStorable hended]
      exact ⟨_, rfl⟩
  simp only [history?, hstatus, hfailure, hstart, hended, bind, Except.bind, pure, Except.pure]
  exact ⟨_, rfl⟩

/-- The start of an entry is the one that is stored, cut to milliseconds. -/
theorem started_of_history? {row : HistoryRow} {entry : History} (h : row.history? = .ok entry)
    {started : Instant} (hstarted : started.IsStorable) (htext : row.started = millisText started) :
    entry.started = started.truncated := by
  obtain ⟨hread, -⟩ := history?_columns h
  rw [htext, storedInstant?_of_isStorable hstarted] at hread
  exact (Except.ok.inj hread).symm

/-- Whether a row is that of an open attempt of a site, with the given start to the millisecond. -/
structure IsOpenAt (row : HistoryRow) (siteId : Int) (started : Instant) : Prop where
  siteId : row.siteId = siteId
  isOpen : row.isOpen = true
  started : ∃ entry, row.history? = .ok entry ∧ entry.started = started.truncated

theorem isMeant_iff_isOpenAt {row : HistoryRow} {siteId : Int}
    (h : row.siteId = siteId → row.IsPlain) {started : Instant} (hstarted : started.IsStorable) :
    Ledger.isMeant siteId started row = true ↔ row.IsOpenAt siteId started := by
  rw [Ledger.isMeant, Bool.and_eq_true, Bool.and_eq_true, decide_eq_true_eq, decide_eq_true_eq]
  constructor
  · rintro ⟨⟨hsite, htext⟩, hopen⟩
    obtain ⟨entry, hentry⟩ := (h hsite).exists_history?
    exact ⟨hsite, hopen, entry, hentry, started_of_history? hentry hstarted htext⟩
  · rintro ⟨hsite, hopen, entry, hentry, hsame⟩
    obtain ⟨first, hfirst, htext⟩ := (h hsite).started
    rw [started_of_history? hentry hfirst htext] at hsame
    exact ⟨⟨hsite, htext.trans ((millisText_eq_iff hfirst hstarted).2 hsame)⟩, hopen⟩

end HistoryRow

/-- Whether an entry comes before another one when the latest are asked for: the later start first, and
of two with the same start that with the larger id. -/
def History.IsNewer (a b : History) : Prop :=
  b.started.isBefore a.started = true ∨ a.started = b.started ∧ b.id ≤ a.id

namespace Ledger

theorem isNewer_iff {a b : HistoryRow} :
    isNewer a b = true ↔ b.started < a.started ∨ a.started = b.started ∧ b.id ≤ a.id := by
  simp [isNewer]

theorem pairwise_isNewer (rows : List HistoryRow) :
    (rows.mergeSort isNewer).Pairwise fun a b => isNewer a b = true := by
  refine List.pairwise_mergeSort (fun a b c hab hbc => ?_) (fun a b => ?_) rows
  · rw [isNewer_iff] at hab hbc ⊢
    rcases hab with hab | ⟨hab, hid⟩ <;> rcases hbc with hbc | ⟨hbc, hid'⟩
    · exact Or.inl (lt_trans hbc hab)
    · exact Or.inl (hbc ▸ hab)
    · exact Or.inl (hab ▸ hbc)
    · exact Or.inr ⟨hab.trans hbc, Int.le_trans hid' hid⟩
  · rw [Bool.or_eq_true, isNewer_iff, isNewer_iff]
    rcases lt_trichotomy a.started b.started with hlt | heq | hgt
    · exact Or.inr (Or.inl hlt)
    · rcases Int.le_total b.id a.id with hle | hle
      · exact Or.inl (Or.inr ⟨heq, hle⟩)
      · exact Or.inr (Or.inr ⟨heq.symm, hle⟩)
    · exact Or.inl (Or.inl hgt)

/-- Rows in the order of their texts are entries in the order of their starts. -/
theorem isNewer_of_rows {a b : HistoryRow} (ha : a.IsPlain) (hb : b.IsPlain) {entry other : History}
    (hentry : a.history? = .ok entry) (hother : b.history? = .ok other)
    (h : isNewer a b = true) : entry.IsNewer other := by
  obtain ⟨started, hstarted, htext⟩ := ha.started
  obtain ⟨started', hstarted', htext'⟩ := hb.started
  obtain ⟨hid, -⟩ := HistoryRow.history?_eq_ok hentry
  obtain ⟨hid', -⟩ := HistoryRow.history?_eq_ok hother
  rw [isNewer_iff, htext, htext', millisText_lt_iff hstarted' hstarted,
    millisText_eq_iff hstarted hstarted'] at h
  rw [History.IsNewer, HistoryRow.started_of_history? hentry hstarted htext,
    HistoryRow.started_of_history? hother hstarted' htext', hid, hid']
  exact h

/-- Whether the history of a site is all its entries, the latest first, cut at the limit. -/
def ShowsLatest (ledger : Ledger) (siteId : Int) : Prop :=
  ∃ (rows : List HistoryRow) (entries : List History),
    rows.Perm (ledger.history.filter (·.siteId = siteId)) ∧
    rows.mapM HistoryRow.history? = .ok entries ∧ entries.Pairwise History.IsNewer ∧
      ∀ limit, ledger.historyOf siteId limit = .ok (entries.take limit)

theorem showsLatest {ledger : Ledger} {siteId : Int}
    (h : ∀ row ∈ ledger.history, row.siteId = siteId → row.IsPlain) :
    ledger.ShowsLatest siteId := by
  obtain ⟨rows, hrows⟩ : ∃ rows, rows =
      (ledger.history.filter (·.siteId = siteId)).mergeSort isNewer := ⟨_, rfl⟩
  have hperm : rows.Perm (ledger.history.filter (·.siteId = siteId)) := by
    rw [hrows]
    exact List.mergeSort_perm _ _
  have hplain : ∀ row ∈ rows, row.IsPlain := by
    intro row hrow
    obtain ⟨hmem, hsite⟩ := List.mem_filter.1 (hperm.mem_iff.1 hrow)
    exact h row hmem (of_decide_eq_true hsite)
  obtain ⟨entries, hentries⟩ := exists_mapM_eq_ok fun row hrow => (hplain row hrow).exists_history?
  refine ⟨rows, entries, hperm, hentries, ?_, fun limit => ?_⟩
  · have hsorted : rows.Pairwise fun a b => isNewer a b = true := by
      rw [hrows]
      exact pairwise_isNewer _
    refine pairwise_mapM hentries hsorted fun a ha b hb entry other hentry hother => ?_
    exact isNewer_of_rows (hplain a ha) (hplain b hb) hentry hother
  · rw [historyOf, ← hrows]
    exact mapError_unreadable_eq_ok.2 (mapM_take hentries limit)

/-- Whether it is the first open row of an attempt, with its start to the millisecond, that is failed. -/
structure FailsFirst (ledger : Ledger) (moment : Moment) (siteId : Int) (started : Instant)
    (message : Option String) : Prop where
  none : (∀ row ∈ ledger.history, ¬row.IsOpenAt siteId started) →
    ledger.failInProgress moment siteId started message = .ok ⟨none, ledger, []⟩
  first : ∀ before row after, ledger.history = before ++ row :: after →
    (∀ other ∈ before, ¬other.IsOpenAt siteId started) → row.IsOpenAt siteId started →
    ledger.failInProgress moment siteId started message =
      (ledger.finish moment row.id (broken message)).map fun (entry, later) =>
        ⟨some entry, later, [.historyChanged siteId row.id]⟩

theorem failsFirst {ledger : Ledger} {siteId : Int}
    (h : ∀ row ∈ ledger.history, row.siteId = siteId → row.IsPlain) {started : Instant}
    (hstarted : started.IsStorable) (moment : Moment) (message : Option String) :
    ledger.FailsFirst moment siteId started message := by
  have hmeant : ∀ row ∈ ledger.history,
      isMeant siteId started row = true ↔ row.IsOpenAt siteId started :=
    fun row hrow => HistoryRow.isMeant_iff_isOpenAt (h row hrow) hstarted
  constructor
  · intro hnone
    apply failInProgress_of_none
    rw [List.find?_eq_none]
    exact fun row hrow => (hmeant row hrow).not.2 (hnone row hrow)
  · intro before row after hsplit hbefore hrow
    have hmem : ∀ other ∈ before ++ row :: after, other ∈ ledger.history := by
      rw [hsplit]
      exact fun _ => id
    have hfound : ledger.history.find? (isMeant siteId started) = some row := by
      rw [hsplit, List.find?_append, List.find?_eq_none.2, Option.none_or]
      · refine List.find?_cons_of_pos ((hmeant row (hmem row ?_)).2 hrow)
        exact List.mem_append_right before List.mem_cons_self
      · intro other hother
        exact (hmeant other (hmem other (List.mem_append_left _ hother))).not.2 (hbefore other hother)
    rw [failInProgress_of_some hfound]
    cases ledger.finish moment row.id (broken message) <;> rfl

/-- What is stored of an instant is read back as the instant cut to milliseconds, and stored texts are
ordered as these.  Hence the history of a site is shown the latest first, and an attempt is found by
its start to the millisecond. -/
theorem stored_texts_keep_order :
    (∀ instant : Instant, instant.IsStorable → ∀ place,
      storedInstant? place (millisText instant) = .ok instant.truncated) ∧
    (∀ a b : Instant, a.IsStorable → b.IsStorable →
      (millisText a < millisText b ↔ a.truncated.isBefore b.truncated = true) ∧
      (millisText a = millisText b ↔ a.truncated = b.truncated)) ∧
    ∀ (ledger : Ledger) (siteId : Int),
      (∀ row ∈ ledger.history, row.siteId = siteId → row.IsPlain) →
      ledger.ShowsLatest siteId ∧
      ∀ started : Instant, started.IsStorable → ∀ (moment : Moment) (message : Option String),
        ledger.FailsFirst moment siteId started message := by
  refine ⟨?_, ?_, ?_⟩
  · exact fun instant h place => storedInstant?_of_isStorable h place
  · intro a b ha hb
    exact ⟨millisText_lt_iff ha hb, millisText_eq_iff ha hb⟩
  · intro ledger siteId hplain
    exact ⟨showsLatest hplain, fun started hstarted => failsFirst hplain hstarted⟩

/-- Two attempts begin in the last millisecond of a second and a third one in the next second.  The
third and the second are the latest two, and the first is the one that is failed. -/
theorem latest_of_three_attempts :
    let row (id : Int) (started : Instant) := HistoryRow.ofNew id 1 (.inProgress started none)
    let ledger : Ledger := {
      sites := [.ofNew 1 ⟨0, 0⟩ .sample]
      history := [row 1 ⟨0, 999999999⟩, row 2 ⟨0, 999000000⟩, row 3 ⟨1, 0⟩] }
    let moment : Moment := ⟨⟨2, 0⟩, .utc, []⟩
    millisText ⟨0, 999999999⟩ < millisText ⟨1, 0⟩ ∧
      (ledger.historyOf 1 2).map (·.map (·.id)) = .ok [3, 2] ∧
        (ledger.failInProgress moment 1 ⟨0, 999500000⟩ none).map (·.result.map (·.id)) =
          .ok (some 1) ∧
          ledger.ShowsLatest 1 ∧ ledger.FailsFirst moment 1 ⟨0, 999500000⟩ none := by
  intro row ledger moment
  have hstorable (second nano : Nat) (h : second ≤ 1 ∧ nano < nanosPerSecond) :
      Instant.IsStorable ⟨second, nano⟩ := by
    obtain ⟨hsecond, hnano⟩ := h
    refine ⟨Or.inl hnano, (Instant.hasPlainYear_iff _).2 ⟨?_, ?_⟩⟩
    · exact Int.le_trans (by decide : newYear 0 * secondsPerDay ≤ 0) (Int.natCast_nonneg second)
    · exact Int.lt_of_le_of_lt (Int.ofNat_le.2 hsecond)
        (by decide : (1 : Nat) < newYear 10000 * secondsPerDay)
  have hrow (id : Int) (started : Instant) (h : started.IsStorable) : (row id started).IsPlain :=
    HistoryRow.isPlain_ofNew id 1 h nofun
  have hplain : ∀ row ∈ ledger.history, row.siteId = 1 → row.IsPlain := by
    simp only [ledger, List.forall_mem_cons, List.not_mem_nil, false_implies, implies_true, and_true]
    exact ⟨fun _ => hrow 1 _ (hstorable 0 999999999 (by decide)),
      fun _ => hrow 2 _ (hstorable 0 999000000 (by decide)),
      fun _ => hrow 3 _ (hstorable 1 0 (by decide))⟩
  obtain ⟨-, horder, hledger⟩ := stored_texts_keep_order
  obtain ⟨hlatest, hfails⟩ := hledger ledger 1 hplain
  have hsorted : (ledger.history.filter (·.siteId = 1)).mergeSort isNewer =
      [row 3 ⟨1, 0⟩, row 2 ⟨0, 999000000⟩, row 1 ⟨0, 999999999⟩] := by
    have hties : isNewer (row 1 ⟨0, 999999999⟩) (row 2 ⟨0, 999000000⟩) = false := by decide +kernel
    have hlater : isNewer (row 2 ⟨0, 999000000⟩) (row 3 ⟨1, 0⟩) = false := by decide +kernel
    have hall : ledger.history.filter (·.siteId = 1) = ledger.history := rfl
    rw [hall]
    simp [ledger, List.mergeSort, List.MergeSort.Internal.splitInTwo, hties, hlater]
  refine ⟨?_, by rw [historyOf, hsorted]; decide +kernel, by decide +kernel, hlatest, ?_⟩
  · exact (horder _ _ (hstorable 0 999999999 (by decide)) (hstorable 1 0 (by decide))).1.2
      (by decide)
  · exact hfails _ (hstorable 0 999500000 (by decide)) moment none

end Ledger

end KeepAlive
