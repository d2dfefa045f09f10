import KeepAlive.Ledger.Basic
import KeepAlive.Proofs.Time.Reading

/-!
# Rows that the library has written

A row of a site that only the library has written has a policy, says whether the site is paused, and
has a next run exactly when it is not.  All that may be wrong with such a row is that its next run has
a year that cannot be read.
-/

namespace KeepAlive

open Time

theorem storedInstant?_millisText {instant : Instant} (hnano : instant.nano < nanosPerSecond)
    (hyear : instant.HasPlainYear) (place : Nat) :
    storedInstant? place (millisText instant) = .ok instant.truncated := by
  rw [storedInstant?, read_millisText hnano hyear]

/-- What is stored of an instant stands for the instant cut to milliseconds, if it can be read. -/
theorem eq_truncated_of_storedInstant? {place : Nat} {instant next : Instant}
    (hnano : instant.nano < nanosPerSecond)
    (h : storedInstant? place (millisText instant) = .ok next) : next = instant.truncated := by
  unfold storedInstant? at h
  split at h
  · rename_i stamp hread
    rw [← instant_of_read_millisText hnano hread]
    exact (Except.ok.inj h).symm
  · cases h

/-- Only instants in years of four digits are read back. -/
theorem hasPlainYear_of_storedInstantOrNone? {place : Nat} {instant : Instant}
    {next : Option Instant} (h : storedInstantOrNone? place (some (millisText instant)) = .ok next) :
    instant.HasPlainYear := by
  rw [storedInstantOrNone?, storedInstant?] at h
  cases hread : Stamp.read (millisText instant) with
  | ok stamp => exact hasPlainYear_of_read_millisText hread
  | error error => simp [hread, Except.map] at h

theorem isNone_of_storedInstantOrNone? {place : Nat} {text : Option String} {next : Option Instant}
    (h : storedInstantOrNone? place text = .ok next) : text.isNone = next.isNone := by
  cases text with
  | none =>
    cases h
    rfl
  | some text =>
    rw [storedInstantOrNone?] at h
    cases hstored : storedInstant? place text with
    | error unreadable => simp [hstored, Except.map] at h
    | ok instant =>
      rw [hstored] at h
      rw [← Except.ok.inj h]
      rfl

namespace SiteRow

/-- A row that only the library has written. -/
structure IsWritten (row : SiteRow) : Prop where
  policy : ∃ policy : Policy, row.policy? = .ok policy
  paused : row.paused = .ofBool row.next.isNone
  takeScreenshot : ∃ takeScreenshot, row.takeScreenshot = .ofBool takeScreenshot
  next : ∀ text, row.next = some text →
    ∃ instant : Instant, instant.nano < nanosPerSecond ∧ text = millisText instant
  addedAt : ∃ instant, storedInstant? 14 row.addedAt = .ok instant

/-- A row that only the library has written, with a policy that is at least a minute ahead. -/
structure IsSound (row : SiteRow) : Prop extends IsWritten row where
  ahead : ∀ policy, row.policy? = .ok policy → 1 ≤ policy.fields.dateStart.toNat

theorem site?_eq_ok {row : SiteRow} {site : Site} (h : row.site? = .ok site) :
    site.id = row.id ∧ row.policy? = .ok site.policy ∧
      storedInstantOrNone? 13 row.next = .ok site.next ∧
        row.paused.bool? 7 "paused" = .ok site.paused ∧
          storedInstant? 14 row.addedAt = .ok site.addedAt := by
  unfold site? at h
  simp only [bind, Except.bind, pure, Except.pure] at h
  split at h
  · cases h
  rename_i policy hpolicy
  split at h
  · cases h
  rename_i next hnext
  split at h
  · cases h
  split at h
  · cases h
  rename_i paused hpaused
  split at h
  · cases h
  rename_i addedAt haddedAt
  cases h
  exact ⟨rfl, hpolicy, hnext, hpaused, haddedAt⟩

/-- The columns that a site takes from its row without a look at the others. -/
theorem site?_columns {row : SiteRow} {site : Site} (h : row.site? = .ok site) :
    site.name = row.name ∧ site.url = row.url ∧ site.successUrl = row.successUrl ∧
      site.credentials = ⟨row.username, row.password⟩ ∧ site.script = row.script ∧
        row.takeScreenshot.bool? 6 "take_screenshot" = .ok site.takeScreenshot := by
  unfold site? at h
  simp only [bind, Except.bind, pure, Except.pure] at h
  split at h
  · cases h
  split at h
  · cases h
  split at h
  · cases h
  rename_i takeScreenshot htakeScreenshot
  split at h
  · cases h
  split at h
  · cases h
  cases h
  exact ⟨rfl, rfl, rfl, rfl, rfl, htakeScreenshot⟩

/-- A row that only the library has written can be read if its next run can. -/
theorem IsWritten.exists_site? {row : SiteRow} (h : row.IsWritten) {next : Option Instant}
    (hnext : storedInstantOrNone? 13 row.next = .ok next) : ∃ site, row.site? = .ok site := by
  obtain ⟨policy, hpolicy⟩ := h.policy
  obtain ⟨takeScreenshot, htakeScreenshot⟩ := h.takeScreenshot
  obtain ⟨addedAt, haddedAt⟩ := h.addedAt
  simp only [site?, hpolicy, hnext, htakeScreenshot, h.paused, haddedAt, Number.bool?_ofBool, bind,
    Except.bind, pure, Except.pure]
  exact ⟨_, rfl⟩

theorem IsWritten.paused_eq {row : SiteRow} (h : row.IsWritten) {site : Site}
    (hsite : row.site? = .ok site) : site.paused = row.next.isNone := by
  obtain ⟨-, -, -, hpaused, -⟩ := site?_eq_ok hsite
  rw [h.paused, Number.bool?_ofBool] at hpaused
  exact (Except.ok.inj hpaused).symm

theorem policy?_withFields (row : SiteRow) (policy : Policy) :
    (row.withFields policy.fields).policy? = .ok policy := by
  have hoptional (place : Nat) (column : String) (minutes : Option UInt32) :
      Number.optionalMinutes? place column (minutes.map .ofMinutes) = .ok minutes := by
    cases minutes with
    | none => rfl
    | some minutes =>
      rw [Option.map_some, Number.optionalMinutes?, Number.minutes?_ofMinutes]
      rfl
  have hfields : (row.withFields policy.fields).fields? = .ok policy.fields := by
    simp only [fields?, withFields, Number.minutes?_ofMinutes, hoptional, bind, Except.bind, pure,
      Except.pure]
  simp only [policy?, hfields, bind, Except.bind, Policy.ofFields_fields, pure, Except.pure]

theorem policy?_ofNew (id : Int) (now : Instant) (new : NewSite) :
    (ofNew id now new).policy? = .ok new.policy :=
  policy?_withFields (ofNew id now new) new.policy

/-- The row of a new site, if the present can be read back. -/
theorem isWritten_ofNew {id : Int} {now : Instant} {new : NewSite} (hnow : now.nano < nanosPerSecond)
    (hread : ∃ instant, storedInstant? 14 (millisText now) = .ok instant) :
    (ofNew id now new).IsWritten := by
  refine ⟨⟨new.policy, policy?_ofNew id now new⟩, ?_,
    ⟨new.takeScreenshot, rfl⟩, ?_, hread⟩
  · simp only [ofNew]
    cases new.paused <;> rfl
  · intro text htext
    simp only [ofNew] at htext
    split at htext
    · cases htext
    · exact ⟨now, hnow, (Option.some.inj htext).symm⟩

/-- The row of a new site stands for a site with its policy and its pause. -/
theorem exists_site?_ofNew {now : Instant} (hnano : now.nano < nanosPerSecond)
    (hyear : now.HasPlainYear) (id : Int) (new : NewSite) :
    ∃ site, (ofNew id now new).site? = .ok site ∧ site.policy = new.policy ∧
      site.paused = new.paused := by
  have hread (place : Nat) : storedInstant? place (millisText now) = .ok now.truncated :=
    storedInstant?_millisText hnano hyear place
  have hwritten := @isWritten_ofNew id now new hnano ⟨_, hread 14⟩
  have hnext : ∃ next, storedInstantOrNone? 13 (ofNew id now new).next = .ok next := by
    simp only [ofNew]
    split
    · exact ⟨none, rfl⟩
    · rw [storedInstantOrNone?, hread]
      exact ⟨some now.truncated, rfl⟩
  obtain ⟨next, hnext⟩ := hnext
  obtain ⟨site, hsite⟩ := hwritten.exists_site? hnext
  obtain ⟨-, hpolicy, -, hpaused, -⟩ := site?_eq_ok hsite
  rw [policy?_ofNew] at hpolicy
  rw [ofNew, Number.bool?_ofBool] at hpaused
  exact ⟨site, hsite, (Except.ok.inj hpolicy).symm, (Except.ok.inj hpaused).symm⟩

end SiteRow

namespace HistoryRow

theorem history?_eq_ok {row : HistoryRow} {entry : History} (h : row.history? = .ok entry) :
    entry.id = row.id ∧ entry.siteId = row.siteId ∧ row.status? = .ok entry.status := by
  unfold history? at h
  simp only [bind, Except.bind, pure, Except.pure] at h
  split at h
  · cases h
  rename_i status hstatus
  split at h
  · cases h
  split at h
  · cases h
  split at h
  · cases h
  cases h
  exact ⟨rfl, rfl, hstatus⟩

/-- The columns that an entry takes from its row with a look at what they say. -/
theorem history?_columns {row : HistoryRow} {entry : History} (h : row.history? = .ok entry) :
    storedInstant? 2 row.started = .ok entry.started ∧
      storedInstantOrNone? 3 row.ended = .ok entry.ended ∧ row.failure? = .ok entry.failure := by
  unfold history? at h
  simp only [bind, Except.bind, pure, Except.pure] at h
  split at h
  · cases h
  split at h
  · cases h
  rename_i failure hfailure
  split at h
  · cases h
  rename_i started hstarted
  split at h
  · cases h
  rename_i ended hended
  cases h
  exact ⟨hstarted, hended, hfailure⟩

/-- Whether a row is open is read off its status. -/
theorem isOpen_eq {row : HistoryRow} {status : ActionStatus} (h : row.status? = .ok status) :
    row.isOpen = !status.isTerminal := by
  unfold status? at h
  split at h
  · rename_i read hread
    cases h
    have hcode : status.code = row.status := by
      simpa using List.find?_some hread
    rw [isOpen, ← hcode]
    cases status <;> decide
  · cases h

end HistoryRow

end KeepAlive
