import KeepAlive.Proofs.Ledger.Operation

/-!
# The rows of one attempt

An attempt is known by its site and its start, to the millisecond.  An operation that is not about an
attempt leaves its rows as they are, or finishes open ones of them.
-/

namespace KeepAlive

open Time

namespace HistoryRow

/-- The row of an attempt that is over. -/
def IsTerminal (row : HistoryRow) : Prop :=
  ∃ status, row.status? = .ok status ∧ status.isTerminal = true

/-- A row as it may be later: nothing has changed, or it was open and has been finished. -/
def IsLater (row later : HistoryRow) : Prop :=
  later = row ∨ row.isOpen = true ∧ ∃ now how, later = row.finished now how

theorem status?_of_code {row : HistoryRow} {status : ActionStatus}
    (h : row.status = status.code) : row.status? = .ok status := by
  rw [status?, h, ActionStatus.ofCode?_code]

theorem isTerminal_finished {row : HistoryRow} {now : Instant} {how : Finish}
    (h : how.status.isTerminal = true) : (row.finished now how).IsTerminal :=
  ⟨how.status, status?_of_code rfl, h⟩

theorem IsTerminal.isOpen_eq {row : HistoryRow} (h : row.IsTerminal) : row.isOpen = false := by
  obtain ⟨status, hstatus, hterminal⟩ := h
  rw [HistoryRow.isOpen_eq hstatus, hterminal]
  rfl

theorem isTerminal_of_isOpen {row : HistoryRow} (hstatus : ∃ status, row.status? = .ok status)
    (hopen : row.isOpen = false) : row.IsTerminal := by
  obtain ⟨status, hstatus⟩ := hstatus
  rw [HistoryRow.isOpen_eq hstatus, Bool.not_eq_false'] at hopen
  exact ⟨status, hstatus, hopen⟩

theorem IsTerminal.eq_of_isLater {row later : HistoryRow} (h : row.IsTerminal)
    (hlater : row.IsLater later) : later = row := by
  refine hlater.resolve_right fun ⟨hopen, _⟩ => ?_
  rw [h.isOpen_eq] at hopen
  cases hopen

theorem IsLater.id_eq {row later : HistoryRow} (h : row.IsLater later) : later.id = row.id := by
  rcases h with rfl | ⟨-, now, how, rfl⟩ <;> rfl

theorem IsLater.exists_status? {row later : HistoryRow} (h : row.IsLater later)
    (hstatus : ∃ status, row.status? = .ok status) : ∃ status, later.status? = .ok status := by
  rcases h with rfl | ⟨-, now, how, rfl⟩
  · exact hstatus
  · exact ⟨how.status, status?_of_code rfl⟩

/-- Whether a row is that of an attempt of a site with the given start. -/
def isOf (siteId : Int) (started : Instant) (row : HistoryRow) : Bool :=
  row.siteId = siteId && row.started = millisText started

theorem IsLater.isOf_eq {row later : HistoryRow} (h : row.IsLater later) (siteId : Int)
    (started : Instant) : later.isOf siteId started = row.isOf siteId started := by
  rcases h with rfl | ⟨-, now, how, rfl⟩ <;> rfl

end HistoryRow

namespace Ledger

theorem isTerminal_finished_broken (row : HistoryRow) (now : Instant) (message : Option String) :
    (row.finished now (broken message)).IsTerminal :=
  HistoryRow.isTerminal_finished (Finish.ofOutcome_isTerminal _ _ _)

theorem isMeant_eq (siteId : Int) (started : Instant) (row : HistoryRow) :
    isMeant siteId started row = (row.isOf siteId started && row.isOpen) :=
  rfl

/-- The later rows are the earlier ones, some of them finished since, in some order. -/
def Ages (before after : List HistoryRow) : Prop :=
  ∃ later : HistoryRow → HistoryRow, (∀ row ∈ before, row.IsLater (later row)) ∧
    after.Perm (before.map later)

theorem Ages.of_perm {before after : List HistoryRow} (h : after.Perm before) :
    Ages before after :=
  ⟨id, fun _ _ => Or.inl rfl, by rwa [List.map_id]⟩

theorem Ages.nodup {before after : List HistoryRow} (h : Ages before after)
    (hnodup : (before.map (·.id)).Nodup) : (after.map (·.id)).Nodup := by
  obtain ⟨later, hlater, hperm⟩ := h
  have hids : (before.map later).map (·.id) = before.map (·.id) := by
    rw [List.map_map]
    exact List.map_congr_left fun row hmem => (hlater row hmem).id_eq
  rw [← hids] at hnodup
  exact (hperm.map _).nodup_iff.2 hnodup

theorem Ages.filter {before after : List HistoryRow} (h : Ages before after) (siteId : Int)
    (started : Instant) : Ages (before.filter (·.isOf siteId started))
      (after.filter (·.isOf siteId started)) := by
  obtain ⟨later, hlater, hperm⟩ := h
  refine ⟨later, fun row hmem => hlater row (List.mem_filter.1 hmem).1, ?_⟩
  refine (hperm.filter _).trans (List.Perm.of_eq ?_)
  rw [List.filter_map]
  congr 1
  exact List.filter_congr fun row hmem => (hlater row hmem).isOf_eq siteId started

theorem Ages.nil {after : List HistoryRow} (h : Ages [] after) : after = [] := by
  obtain ⟨later, -, hperm⟩ := h
  exact hperm.eq_nil

theorem Ages.singleton {row : HistoryRow} {after : List HistoryRow} (h : Ages [row] after) :
    ∃ later, row.IsLater later ∧ after = [later] := by
  obtain ⟨later, hlater, hperm⟩ := h
  exact ⟨later row, hlater row (List.mem_singleton_self row), List.perm_singleton.1 hperm⟩

theorem Ages.length_eq {before after : List HistoryRow} (h : Ages before after) :
    after.length = before.length := by
  obtain ⟨later, -, hperm⟩ := h
  rw [hperm.length_eq, List.length_map]

theorem Ages.exists_of_mem {before after : List HistoryRow} (h : Ages before after)
    {row : HistoryRow} (hmem : row ∈ after) : ∃ earlier ∈ before, earlier.IsLater row := by
  obtain ⟨later, hlater, hperm⟩ := h
  obtain ⟨earlier, hearlier, rfl⟩ := List.mem_map.1 (hperm.mem_iff.1 hmem)
  exact ⟨earlier, hearlier, hlater earlier hearlier⟩

/-- The rows of an attempt. -/
def rowsOf (ledger : Ledger) (siteId : Int) (started : Instant) : List HistoryRow :=
  ledger.history.filter (·.isOf siteId started)

theorem perm_placed {ρ : Type} {id : ρ → Int} {row : ρ} {rows : List ρ}
    (h : id row ∉ rows.map id) : (placed id row rows).Perm (row :: rows) := by
  have hsplit : rows.filter (fun other => id row < id other) =
      rows.filter fun other => !decide (id other < id row) := by
    refine List.filter_congr fun other hmem => ?_
    have hne : id other ≠ id row := fun heq => h (List.mem_map.2 ⟨other, hmem, heq⟩)
    have hlt : id row < id other ↔ ¬id other < id row := by omega
    simp only [hlt, decide_not]
  unfold placed
  refine List.perm_middle.trans (List.Perm.cons row ?_)
  rw [hsplit]
  exact List.filter_append_perm _ rows

section

variable {ledger : Ledger} {moment : Moment}

/-- An entry that is added has a new id and leaves all other rows as they are. -/
theorem history_insertHistory {siteId : Int} {new : NewHistory} {change : Change History}
    (h : ledger.insertHistory moment siteId new = .ok change) :
    ∃ row, row = HistoryRow.ofNew change.result.id siteId new ∧
      row.id ∉ ledger.history.map (·.id) ∧
      change.ledger.history.Perm (row :: ledger.history) := by
  unfold insertHistory at h
  obtain ⟨site, -, h⟩ := bind_eq_ok.1 h
  obtain ⟨entry, hentry, h⟩ := bind_eq_ok.1 h
  cases h
  have hnew := nextId_not_mem (ledger.history.map (·.id))
  obtain ⟨row, hrow, hread⟩ := entry_eq_ok_iff.1 hentry
  have hid : entry.id = nextId (ledger.history.map (·.id)) := by
    rw [(HistoryRow.history?_eq_ok hread).1]
    simpa using List.find?_some hrow
  refine ⟨_, rfl, hid ▸ hnew, ?_⟩
  simp only [hid]
  exact perm_placed hnew

/-- An entry that is finished was open and is finished now; all other rows are as they were. -/
theorem history_finish {id : Int} {how : Finish} {entry : History} {after : Ledger}
    (h : ledger.finish moment id how = .ok (entry, after)) :
    (∃ row, ledger.history.find? (·.id = id) = some row ∧ row.isOpen = true) ∧
      after.history =
        ledger.history.map fun row => if row.id = id then row.finished moment.now how else row := by
  obtain ⟨row, site, hrow, hopen, -, hafter, -⟩ := finish_row h
  exact ⟨⟨row, hrow, hopen⟩, by rw [hafter]; rfl⟩

theorem rowsOf_finish {id : Int} {how : Finish} {entry : History} {after : Ledger}
    (h : ledger.finish moment id how = .ok (entry, after)) (siteId : Int) (started : Instant) :
    after.rowsOf siteId started = (ledger.rowsOf siteId started).map fun row =>
      if row.id = id then row.finished moment.now how else row := by
  obtain ⟨-, hafter⟩ := history_finish h
  rw [rowsOf, hafter, List.filter_map]
  congr 1
  refine List.filter_congr fun row _ => ?_
  simp only [Function.comp_apply]
  split <;> rfl

/-- The one row of an attempt is finished. -/
theorem rowsOf_finish_of_singleton {siteId : Int} {started : Instant} {row : HistoryRow}
    {how : Finish} {entry : History} {after : Ledger}
    (hrows : ledger.rowsOf siteId started = [row])
    (h : ledger.finish moment row.id how = .ok (entry, after)) :
    after.rowsOf siteId started = [row.finished moment.now how] := by
  rw [rowsOf_finish h, hrows, List.map_singleton, if_pos rfl]

theorem ages_finish (hnodup : (ledger.history.map (·.id)).Nodup) {id : Int} {how : Finish}
    {entry : History} {after : Ledger} (h : ledger.finish moment id how = .ok (entry, after)) :
    Ages ledger.history after.history := by
  obtain ⟨⟨row, hrow, hopen⟩, hafter⟩ := history_finish h
  refine ⟨_, fun other hmem => ?_, List.Perm.of_eq hafter⟩
  split
  · rename_i hid
    have hsame := find?_of_nodup hnodup hmem
    rw [hid, hrow] at hsame
    cases hsame
    exact Or.inr ⟨hopen, _, _, rfl⟩
  · exact Or.inl rfl

theorem ages_failInProgress (hnodup : (ledger.history.map (·.id)).Nodup) {siteId : Int}
    {started : Instant} {message : Option String} {change : Change (Option History)}
    (h : ledger.failInProgress moment siteId started message = .ok change) :
    Ages ledger.history change.ledger.history := by
  rcases failInProgress_eq_ok h with ⟨-, rfl⟩ | ⟨row, entry, -, hfinish, -⟩
  · exact .of_perm (List.Perm.refl _)
  · exact ages_finish hnodup hfinish

theorem ages_failStale (now : Instant) (message : String) :
    Ages ledger.history (ledger.failStale now message).ledger.history := by
  refine ⟨_, fun row _ => ?_, List.Perm.refl _⟩
  split
  · exact Or.inr ⟨‹_›, _, _, rfl⟩
  · exact Or.inl rfl

end

end Ledger

namespace Operation

/-- The operation does not delete the site of an attempt and enters no row for the attempt. -/
def IsForeign (siteId : Int) (started : Instant) : Operation → Prop
  | .deleteSite id => id ≠ siteId
  | .insertHistory id new => id = siteId → millisText new.started ≠ millisText started
  | .reconcile fault => fault.siteId = siteId → millisText fault.started ≠ millisText started
  | _ => True

end Operation

namespace Ledger

section

variable {ledger : Ledger} {moment : Moment} {siteId : Int} {started : Instant}

/-- The ids of rows tell them apart, and the rows of an attempt have at most been finished. -/
def Spares (ledger : Ledger) (siteId : Int) (started : Instant) (after : Ledger) : Prop :=
  (after.history.map (·.id)).Nodup ∧ Ages (ledger.rowsOf siteId started) (after.rowsOf siteId started)

theorem spares_of_ages {after : Ledger} (hnodup : (ledger.history.map (·.id)).Nodup)
    (h : Ages ledger.history after.history) : ledger.Spares siteId started after :=
  ⟨h.nodup hnodup, h.filter siteId started⟩

theorem spares_of_history_eq {after : Ledger} (hnodup : (ledger.history.map (·.id)).Nodup)
    (h : after.history = ledger.history) : ledger.Spares siteId started after :=
  spares_of_ages hnodup (.of_perm (List.Perm.of_eq h))

theorem nodup_of_perm_cons {row : HistoryRow} {rows after : List HistoryRow}
    (hnodup : (rows.map (·.id)).Nodup) (hnew : row.id ∉ rows.map (·.id))
    (hperm : after.Perm (row :: rows)) : (after.map (·.id)).Nodup :=
  (hperm.map _).nodup_iff.2 (List.nodup_cons.2 ⟨hnew, hnodup⟩)

/-- An entry that is added for an attempt is one more row of it. -/
theorem perm_rowsOf_insertHistory (hnodup : (ledger.history.map (·.id)).Nodup) {new : NewHistory}
    (hnew : new.started = started) {change : Change History}
    (h : ledger.insertHistory moment siteId new = .ok change) :
    (change.ledger.history.map (·.id)).Nodup ∧
      (change.ledger.rowsOf siteId started).Perm
        (.ofNew change.result.id siteId new :: ledger.rowsOf siteId started) := by
  obtain ⟨row, rfl, hfresh, hperm⟩ := history_insertHistory h
  refine ⟨nodup_of_perm_cons hnodup hfresh hperm, ?_⟩
  have hof : (HistoryRow.ofNew change.result.id siteId new).isOf siteId started = true := by
    rw [HistoryRow.isOf, Bool.and_eq_true, decide_eq_true_eq, decide_eq_true_eq]
    exact ⟨rfl, congrArg millisText hnew⟩
  have hfilter := hperm.filter (·.isOf siteId started)
  rwa [List.filter_cons_of_pos hof] at hfilter

theorem spares_insertHistory (hnodup : (ledger.history.map (·.id)).Nodup) {id : Int}
    {new : NewHistory} (hforeign : id = siteId → millisText new.started ≠ millisText started)
    {change : Change History} (h : ledger.insertHistory moment id new = .ok change) :
    ledger.Spares siteId started change.ledger := by
  obtain ⟨row, hrow, hnew, hperm⟩ := history_insertHistory h
  refine ⟨nodup_of_perm_cons hnodup hnew hperm, .of_perm ?_⟩
  have hother : row.isOf siteId started = false := by
    rw [hrow, HistoryRow.isOf, Bool.and_eq_false_imp]
    exact fun hsite => decide_eq_false (hforeign (of_decide_eq_true hsite))
  have hfilter := hperm.filter (·.isOf siteId started)
  rwa [List.filter_cons_of_neg (by rw [hother]; exact Bool.false_ne_true)] at hfilter

theorem spares_deleteSite (hnodup : (ledger.history.map (·.id)).Nodup) {id : Int}
    (hforeign : id ≠ siteId) {change : Change Unit} (h : ledger.deleteSite id = .ok change) :
    ledger.Spares siteId started change.ledger := by
  obtain ⟨-, hhistory, -⟩ := deleteSite_eq_ok h
  refine ⟨by rw [hhistory]; exact hnodup.sublist (List.filter_sublist.map _), .of_perm ?_⟩
  rw [rowsOf, hhistory, List.filter_filter]
  refine List.Perm.of_eq (List.filter_congr fun row _ => ?_)
  cases hof : row.isOf siteId started with
  | false => rfl
  | true =>
    have hsite : row.siteId = siteId := by
      rw [HistoryRow.isOf, Bool.and_eq_true, decide_eq_true_eq] at hof
      exact hof.1
    simp [hsite, hforeign.symm]

theorem spares_reconcile (hnodup : (ledger.history.map (·.id)).Nodup) {fault : Fault}
    (hforeign : fault.siteId = siteId → millisText fault.started ≠ millisText started)
    {change : Change History} (h : ledger.reconcile moment fault = .ok change) :
    ledger.Spares siteId started change.ledger := by
  rcases reconcile_eq_ok h with ⟨-, hinsert⟩ | ⟨row, -, hfinish, -⟩
  · refine spares_insertHistory hnodup ?_ hinsert
    exact hforeign
  · exact spares_of_ages hnodup (ages_finish hnodup hfinish)

end

end Ledger

/-- What is not about an attempt spares its rows. -/
theorem Operation.spares {ledger : Ledger} {moment : Moment} {siteId : Int} {started : Instant}
    (hnodup : (ledger.history.map (·.id)).Nodup) {operation : Operation}
    (hforeign : operation.IsForeign siteId started) {change : Change Unit}
    (h : operation.change moment ledger = .ok change) :
    ledger.Spares siteId started change.ledger := by
  have hmap {α : Type} {done : Except Refusal (Change α)} (hdone : done.map Change.bare = .ok change)
      (hspares : ∀ change, done = .ok change → ledger.Spares siteId started change.ledger) :
      ledger.Spares siteId started change.ledger := by
    obtain ⟨made, hmade, rfl⟩ := Change.map_bare_eq_ok hdone
    exact hspares made hmade
  cases operation with
  | addSite new =>
    refine hmap h fun change hchange => ?_
    obtain ⟨id, -, hledger, -⟩ := Ledger.addSite_eq_ok hchange
    exact Ledger.spares_of_history_eq hnodup (by rw [hledger])
  | updateSite id edit =>
    refine hmap h fun change hchange => ?_
    obtain ⟨before, -, ⟨hledger, -⟩ | ⟨-, -, hledger, -⟩⟩ := Ledger.updateSite_eq_ok hchange
    · exact Ledger.spares_of_history_eq hnodup (by rw [hledger]; rfl)
    · exact Ledger.spares_of_history_eq hnodup (by rw [hledger]; rfl)
  | setPaused id paused =>
    refine hmap h fun change hchange => ?_
    obtain ⟨site, -, ⟨hledger, -⟩ | ⟨-, hledger, -⟩⟩ := Ledger.setPaused_eq_ok hchange
    · exact Ledger.spares_of_history_eq hnodup (by rw [hledger])
    · exact Ledger.spares_of_history_eq hnodup (by rw [hledger]; rfl)
  | triggerNow id =>
    refine hmap h fun change hchange => ?_
    obtain ⟨site, -, -, hledger, -⟩ := Ledger.triggerNow_eq_ok hchange
    exact Ledger.spares_of_history_eq hnodup (by rw [hledger]; rfl)
  | reschedule id =>
    refine hmap h fun change hchange => ?_
    obtain ⟨site, -, -, hledger, -⟩ := Ledger.reschedule_eq_ok hchange
    exact Ledger.spares_of_history_eq hnodup (by rw [hledger]; rfl)
  | deleteSite id => exact hmap h fun _ => Ledger.spares_deleteSite hnodup hforeign
  | insertHistory id new => exact hmap h fun _ => Ledger.spares_insertHistory hnodup hforeign
  | finishHistory id how =>
    refine hmap h fun change hchange => ?_
    obtain ⟨hfinish, -⟩ := Ledger.finishHistory_eq_ok hchange
    exact Ledger.spares_of_ages hnodup (Ledger.ages_finish hnodup hfinish)
  | failInProgress id start message =>
    refine hmap h fun change hchange => ?_
    exact Ledger.spares_of_ages hnodup (Ledger.ages_failInProgress hnodup hchange)
  | failStale message =>
    cases h
    exact Ledger.spares_of_ages hnodup (Ledger.ages_failStale moment.now message)
  | reconcile fault => exact hmap h fun _ => Ledger.spares_reconcile hnodup hforeign

end KeepAlive
