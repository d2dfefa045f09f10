import KeepAlive.Proofs.Ledger.Operation

/-!
# Operations that draw a site anew

An attempt enters a row, puts a missed run off, or is reconciled after it broke off.  Each of these
draws the next run of its site, unless the site is gone or a row cannot be read.
-/

namespace KeepAlive.Ledger

open Time

variable {ledger : Ledger} {moment : Moment} {offset : Int}

/-- A change plans a site anew and says so, or leaves the site without a plan. -/
structure Redraws {α : Type} (moment : Moment) (change : Change α) (siteId : Int) : Prop where
  isPlannedAt : change.ledger.IsPlannedAt moment siteId
  announced : change.ledger.plan siteId = none ∨ ∃ event ∈ change.events, event.siteId = siteId

theorem redraws_of_drawn {α : Type} (hsound : ledger.IsSound) (hat : moment.IsAt offset) {id : Int}
    {site : Site} (hsite : ledger.site id = .ok site) {change : Change α}
    (hsites : change.ledger.sites = (ledger.withNext id (drawn site moment)).sites)
    (hevents : site.paused = true ∨ ∃ event ∈ change.events, event.siteId = id) :
    Redraws moment change id := by
  obtain ⟨-, hahead, -⟩ := hsound.of_site hsite
  rw [withNext_drawn_eq_planned hsound hsite] at hsites
  refine ⟨?_, ?_⟩
  · intro text htext
    rw [plan_congr hsites] at htext
    exact isPlannedAt_planned ledger id (fun instant h => gives_drawn hat hahead h) text htext
  · rcases hevents with hpaused | hevent
    · left
      have hnone := isNone_drawn site moment
      rw [hpaused, Option.isNone_iff_eq_none] at hnone
      rw [plan_congr hsites, plan_planned_self, hnone]
      cases ledger.sites.find? (·.id = id) <;> rfl
    · exact Or.inr hevent

theorem redraws_insertHistory (hsound : ledger.IsSound) (hat : moment.IsAt offset) {siteId : Int}
    {new : NewHistory} {change : Change History}
    (h : ledger.insertHistory moment siteId new = .ok change) : Redraws moment change siteId := by
  obtain ⟨site, id, hsite, -, hledger, hevents⟩ := insertHistory_eq_ok h
  obtain ⟨hid, -⟩ := hsound.of_site hsite
  rw [hid] at hledger
  exact redraws_of_drawn hsound hat hsite (by rw [hledger]; rfl) (Or.inr (exists_event hevents rfl))

theorem redraws_reschedule (hsound : ledger.IsSound) (hat : moment.IsAt offset) {id : Int}
    {change : Change Site} (h : ledger.reschedule moment id = .ok change) :
    Redraws moment change id := by
  obtain ⟨site, hsite, -, hledger, hevents⟩ := reschedule_eq_ok h
  refine redraws_of_drawn hsound hat hsite (by rw [hledger]) ?_
  cases hpaused : site.paused with
  | true => exact Or.inl rfl
  | false =>
    rw [hpaused] at hevents
    exact Or.inr (exists_event hevents rfl)

theorem redraws_reconcile (hsound : ledger.IsSound) (hat : moment.IsAt offset) {fault : Fault}
    {change : Change History} (h : ledger.reconcile moment fault = .ok change) :
    Redraws moment change fault.siteId := by
  rcases reconcile_eq_ok h with ⟨-, hinsert⟩ | ⟨row, hrow, hfinish, hevents⟩
  · exact redraws_insertHistory hsound hat hinsert
  · obtain ⟨found, site, -, -, hsite, hledger, -, hsiteId⟩ := finish_row hfinish
    obtain ⟨hid, -⟩ := hsound.of_site hsite
    have hsame : found.siteId = fault.siteId :=
      hsiteId.symm.trans (siteId_of_isMeant hsound.toIsWritten hrow hfinish)
    rw [hid, hsame] at hledger
    rw [hsame] at hsite
    exact redraws_of_drawn hsound hat hsite (by rw [hledger]; rfl)
      (Or.inr (exists_event hevents rfl))

theorem plan_eq_none_of_find? {id : Int} (h : ledger.sites.find? (·.id = id) = none) :
    ledger.plan id = none := by
  rw [plan, h]
  rfl

/-- A site that is refused, though nothing is unreadable, is gone. -/
theorem plan_eq_none_of_site_refused {id : Int} {refusal : Refusal}
    (h : ledger.site id = .error refusal) (hreadable : ∀ cause, refusal ≠ .unreadable cause) :
    ledger.plan id = none := by
  rcases site_eq_error h with ⟨-, hnone⟩ | ⟨cause, hcause⟩
  · exact plan_eq_none_of_find? hnone
  · exact absurd hcause (hreadable cause)

theorem plan_eq_none_of_reschedule_refused {id : Int} {refusal : Refusal}
    (h : ledger.reschedule moment id = .error refusal)
    (hreadable : ∀ cause, refusal ≠ .unreadable cause) : ledger.plan id = none := by
  unfold reschedule at h
  rcases bind_eq_error.1 h with hsite | ⟨site, -, h⟩
  · exact plan_eq_none_of_site_refused hsite hreadable
  · cases h

theorem plan_eq_none_of_insertHistory_refused {siteId : Int} {new : NewHistory} {refusal : Refusal}
    (h : ledger.insertHistory moment siteId new = .error refusal)
    (hreadable : ∀ cause, refusal ≠ .unreadable cause) : ledger.plan siteId = none := by
  unfold insertHistory at h
  rcases bind_eq_error.1 h with hsite | ⟨site, -, h⟩
  · exact plan_eq_none_of_site_refused hsite hreadable
  -- The entry that has just been added is there.
  rcases bind_eq_error.1 h with hentry | ⟨entry, -, h⟩
  · rcases entry_eq_error hentry with ⟨-, hnone⟩ | ⟨cause, hcause⟩
    · have hself := @find?_placed_self HistoryRow (·.id)
        (.ofNew (nextId (ledger.history.map (·.id))) siteId new) ledger.history
      exact absurd (hself.symm.trans hnone) (Option.some_ne_none _)
    · exact absurd hcause (hreadable cause)
  · cases h

/-- An open row can be finished, unless its site is gone. -/
theorem plan_eq_none_of_finish_refused (hsound : ledger.IsSound) {row : HistoryRow}
    (hmem : row ∈ ledger.history) (hopen : row.isOpen = true) {how : Finish} {refusal : Refusal}
    (h : ledger.finish moment row.id how = .error refusal)
    (hreadable : ∀ cause, refusal ≠ .unreadable cause) : ledger.plan row.siteId = none := by
  have hself := find?_of_nodup hsound.history_nodup hmem
  unfold finish at h
  rcases bind_eq_error.1 h with hentry | ⟨current, hcurrent, h⟩
  · rcases entry_eq_error hentry with ⟨-, hnone⟩ | ⟨cause, hcause⟩
    · rw [hself] at hnone
      cases hnone
    · exact absurd hcause (hreadable cause)
  obtain ⟨found, hfound, hread⟩ := entry_eq_ok_iff.1 hcurrent
  rw [hself] at hfound
  cases hfound
  obtain ⟨-, hsiteId, hstatus⟩ := HistoryRow.history?_eq_ok hread
  split at h
  · rename_i hterminal
    rw [HistoryRow.isOpen_eq hstatus, hterminal] at hopen
    cases hopen
  rcases bind_eq_error.1 h with hsite | ⟨site, -, h⟩
  · rw [hsiteId] at hsite
    exact plan_eq_none_of_site_refused hsite hreadable
  rcases bind_eq_error.1 h with hentry | ⟨entry, -, h⟩
  · rcases entry_eq_error hentry with ⟨-, hnone⟩ | ⟨cause, hcause⟩
    · have hid : ∀ row : HistoryRow, (row.finished moment.now how).id = row.id := fun _ => rfl
      have hfinished := @find?_changed HistoryRow (·.id) row.id _ hid ledger.history row.id
      rw [hself] at hfinished
      exact absurd (hfinished.symm.trans hnone) (Option.some_ne_none _)
    · exact absurd hcause (hreadable cause)
  · cases h

theorem plan_eq_none_of_reconcile_refused (hsound : ledger.IsSound) {fault : Fault}
    {refusal : Refusal} (h : ledger.reconcile moment fault = .error refusal)
    (hreadable : ∀ cause, refusal ≠ .unreadable cause) : ledger.plan fault.siteId = none := by
  unfold reconcile at h
  rcases bind_eq_error.1 h with hfailed | ⟨failed, hfailed, h⟩
  · cases hrow : ledger.history.find? (isMeant fault.siteId fault.started) with
    | none =>
      rw [failInProgress_of_none hrow] at hfailed
      cases hfailed
    | some row =>
    rw [failInProgress_of_some hrow] at hfailed
    have hmeant := List.find?_some hrow
    simp only [isMeant, Bool.and_eq_true, decide_eq_true_eq] at hmeant
    rcases bind_eq_error.1 hfailed with hfinish | ⟨made, -, hreturn⟩
    · rw [← hmeant.1.1]
      exact plan_eq_none_of_finish_refused hsound (List.mem_of_find?_eq_some hrow) hmeant.2 hfinish
        hreadable
    · cases hreturn
  · rcases failInProgress_eq_ok hfailed with ⟨-, rfl⟩ | ⟨row, entry, -, -, hresult, -⟩
    · exact plan_eq_none_of_insertHistory_refused h hreadable
    · rw [hresult] at h
      cases h

end KeepAlive.Ledger
