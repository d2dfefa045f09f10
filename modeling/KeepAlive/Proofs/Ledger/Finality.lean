import KeepAlive.Proofs.Ledger.Entries
import KeepAlive.Proofs.Ledger.Leaving

/-!
# Recorded outcomes stay

An entry of the history is finished once.  Whichever way an operation reaches it, by its id, by its
site and start or with all others that are open, an entry that is over stays as it is or goes with its
site, and an open one keeps what it had when it began.  Hence no run rewrites an entry twice.
-/

namespace KeepAlive

open Time

namespace Operation

/-- Entries are finished with the outcome of a login. -/
def EndsWithOutcome : Operation → Prop
  | .finishHistory _ how => how.IsOutcome
  | _ => True

/-- The picture that an operation brings for the entry that it finishes. -/
def picture? : Operation → Option String
  | .finishHistory _ how => how.screenshotId
  | _ => none

/-- What an operation does to the rows of the history: it leaves them, adds one, takes those of a
deleted site away, or finishes open ones. -/
inductive Rewrites (operation : Operation) (rows : List HistoryRow) : List HistoryRow → Prop
  | nothing : Rewrites operation rows rows
  | added {row : HistoryRow} (hnew : row.id ∉ rows.map (·.id))
      (hstage : ∃ status, row.status? = .ok status) :
      Rewrites operation rows (Ledger.placed (·.id) row rows)
  | cleared {id : Int} (h : operation = .deleteSite id) :
      Rewrites operation rows (rows.filter (·.siteId ≠ id))
  | finished {isMeant : HistoryRow → Prop} [DecidablePred isMeant] {now : Instant} {how : Finish}
      (hopen : ∀ row ∈ rows, isMeant row → row.isOpen = true) (hhow : how.IsOutcome)
      (hpicture : how.screenshotId = operation.picture?) :
      Rewrites operation rows (rows.map fun row => if isMeant row then row.finished now how else row)

/-- What an operation makes of one row of the history: the same row, no row, or the row finished. -/
inductive Passes (operation : Operation) (row : HistoryRow) : Option HistoryRow → Prop
  | kept : Passes operation row (some row)
  | removed (h : operation = .deleteSite row.siteId) : Passes operation row none
  | finished (hopen : row.isOpen = true) {now : Instant} {how : Finish} (hhow : how.IsOutcome)
      (hpicture : how.screenshotId = operation.picture?) :
      Passes operation row (some (row.finished now how))

theorem id_of_finished (isMeant : HistoryRow → Prop) [DecidablePred isMeant] (now : Instant)
    (how : Finish) (row : HistoryRow) :
    (if isMeant row then row.finished now how else row).id = row.id := by
  split <;> rfl

/-- An operation that is carried out by another one, which deletes no site. -/
theorem Rewrites.of_part {operation part : Operation} {rows later : List HistoryRow}
    (h : part.Rewrites rows later) (hpart : ∀ id, part ≠ .deleteSite id)
    (hpicture : part.picture? = operation.picture?) : operation.Rewrites rows later := by
  cases h with
  | nothing => exact .nothing
  | added hnew hstage => exact .added hnew hstage
  | cleared h => exact absurd h (hpart _)
  | finished hopen hhow hpicturePart => exact .finished hopen hhow (hpicturePart.trans hpicture)

section

variable {ledger after : Ledger} {moment : Moment} {operation : Operation} {events : List Event}

theorem Leaves.rewrites (h : operation.Leaves ledger moment after events)
    (hnodup : (ledger.history.map (·.id)).Nodup) (hends : operation.EndsWithOutcome) :
    operation.Rewrites ledger.history after.history := by
  induction h with
  | added => exact .nothing
  | edited => exact .nothing
  | replanned => exact .nothing
  | unmoved => exact .nothing
  | switched => exact .nothing
  | triggered => exact .nothing
  | rescheduled => exact .nothing
  | deleted => exact .cleared rfl
  | entered _ hid =>
    apply Rewrites.added
    · rw [hid]
      exact Ledger.nextId_not_mem (ledger.history.map (·.id))
    · exact ⟨_, HistoryRow.status?_of_code rfl⟩
  | finished hfound hopen _ =>
    -- The one row with the id is the one that has been found open.
    refine .finished ?_ hends rfl
    intro row hmem hid
    have hrow := Ledger.find?_of_nodup hnodup hmem
    rw [hid, hfound] at hrow
    rwa [← Option.some.inj hrow]
  | missed => exact .nothing
  | failed _ _ ih => exact (ih (Ledger.isOutcome_broken _)).of_part nofun rfl
  | closed => exact .finished (fun _ _ hopen => hopen) (Ledger.isOutcome_broken _) rfl
  | reconciled _ _ ih => exact (ih trivial).of_part nofun rfl
  | recorded _ _ ih => exact (ih trivial).of_part nofun rfl

theorem Rewrites.nodup {rows later : List HistoryRow} (h : operation.Rewrites rows later)
    (hnodup : (rows.map (·.id)).Nodup) : (later.map (·.id)).Nodup := by
  cases h with
  | nothing => exact hnodup
  | added => exact Ledger.nodup_placed hnodup _
  | cleared => exact hnodup.sublist (List.filter_sublist.map _)
  | @finished isMeant _ now how =>
    rw [Ledger.map_id_map (id_of_finished isMeant now how)]
    exact hnodup

theorem Rewrites.exists_status? {rows later : List HistoryRow} (h : operation.Rewrites rows later)
    (hstages : ∀ row ∈ rows, ∃ status, row.status? = .ok status) :
    ∀ row ∈ later, ∃ status, row.status? = .ok status := by
  intro row hmem
  cases h with
  | nothing => exact hstages row hmem
  | added _ hstage =>
    rcases Ledger.mem_placed.1 hmem with rfl | ⟨hmem, -⟩
    · exact hstage
    · exact hstages row hmem
  | cleared => exact hstages row (List.mem_filter.1 hmem).1
  | @finished _ _ _ how =>
    obtain ⟨before, hbefore, rfl⟩ := List.mem_map.1 hmem
    split
    · exact ⟨how.status, HistoryRow.status?_of_code rfl⟩
    · exact hstages before hbefore

theorem Rewrites.passes {rows later : List HistoryRow} (h : operation.Rewrites rows later)
    (hnodup : (rows.map (·.id)).Nodup) {row : HistoryRow} (hmem : row ∈ rows) :
    operation.Passes row (later.find? (·.id = row.id)) := by
  have hrow : rows.find? (·.id = row.id) = some row := Ledger.find?_of_nodup hnodup hmem
  cases h with
  | nothing =>
    rw [hrow]
    exact .kept
  | @added new hnew _ =>
    have hne : row.id ≠ new.id := by
      intro hid
      rw [← hid] at hnew
      exact hnew (List.mem_map_of_mem hmem)
    rw [Ledger.find?_placed_of_ne hne, hrow]
    exact .kept
  | @cleared id hdelete =>
    by_cases hsite : row.siteId = id
    · have hnone : (rows.filter (·.siteId ≠ id)).find? (·.id = row.id) = none := by
        rw [List.find?_eq_none]
        intro other hother hid
        obtain ⟨hother, hne⟩ := List.mem_filter.1 hother
        rw [Ledger.eq_of_nodup hnodup hother hmem (of_decide_eq_true hid)] at hne
        exact of_decide_eq_true hne hsite
      rw [hnone]
      exact .removed (by rw [hsite, hdelete])
    · have hstays : row ∈ rows.filter (·.siteId ≠ id) :=
        List.mem_filter.2 ⟨hmem, decide_eq_true hsite⟩
      rw [Ledger.find?_of_nodup (hnodup.sublist (List.filter_sublist.map _)) hstays]
      exact .kept
  | @finished isMeant _ now how hopen hhow hpicture =>
    rw [Ledger.find?_map_of_id (id_of_finished isMeant now how), hrow, Option.map_some]
    split
    · rename_i hmeant
      exact .finished (hopen row hmem hmeant) hhow hpicture
    · exact .kept

end

end Operation

/-- The outcome of a login is no stage in which an entry could be finished again. -/
theorem Finish.IsOutcome.isTerminal_finished {how : Finish} (h : how.IsOutcome) (row : HistoryRow)
    (now : Instant) : (row.finished now how).IsTerminal := by
  obtain ⟨status, message, picture, rfl⟩ := h
  exact HistoryRow.isTerminal_finished (Finish.ofOutcome_isTerminal _ _ _)

namespace Ledger

/-- Ids tell the rows of the history apart, and each of them is at a stage. -/
structure HasStages (ledger : Ledger) : Prop where
  nodup : (ledger.history.map (·.id)).Nodup
  stages : ∀ row ∈ ledger.history, ∃ status, row.status? = .ok status

theorem HasStages.empty : HasStages {} := by
  constructor
  · exact List.nodup_nil
  · intro row hmem
    exact absurd hmem List.not_mem_nil

theorem HasStages.isOpen_or_isTerminal {ledger : Ledger} (h : ledger.HasStages) {row : HistoryRow}
    (hmem : row ∈ ledger.history) : row.isOpen = true ∨ row.IsTerminal := by
  by_cases hopen : row.isOpen = true
  · exact Or.inl hopen
  · right
    apply HistoryRow.isTerminal_of_isOpen (h.stages row hmem)
    simpa using hopen

end Ledger

namespace Store

variable {store : Store} {operation : Operation}

theorem hasStages_applied (h : store.ledger.HasStages) (moment : Moment)
    (hends : operation.EndsWithOutcome) :
    (operation.applied moment store).ledger.HasStages := by
  obtain hrefused | ⟨change, hleaves, hcommit⟩ := operation.applied_leaves moment store
  · rw [hrefused]
    exact h
  · have hrewrites := hleaves.rewrites h.nodup hends
    rw [hcommit]
    constructor
    · exact hrewrites.nodup h.nodup
    · exact hrewrites.exists_status? h.stages

theorem passes_applied (h : store.ledger.HasStages) (moment : Moment)
    (hends : operation.EndsWithOutcome) {row : HistoryRow} (hmem : row ∈ store.ledger.history) :
    operation.Passes row ((operation.applied moment store).ledger.row? row.id) := by
  obtain hrefused | ⟨change, hleaves, hcommit⟩ := operation.applied_leaves moment store
  · rw [hrefused, Ledger.row?_of_mem h.nodup hmem]
    exact .kept
  · rw [hcommit]
    exact (hleaves.rewrites h.nodup hends).passes h.nodup hmem

theorem hasStages_run (h : store.ledger.HasStages) {steps : Steps}
    (hends : ∀ step ∈ steps, step.2.EndsWithOutcome) : (store.run steps).ledger.HasStages := by
  apply run_induction (fun store => store.ledger.HasStages) _ h
  intro store h step hmem
  exact hasStages_applied h step.1 (hends step hmem)

/-- How often a row of the history is rewritten in a run, as long as it is there. -/
def rewritings (row : HistoryRow) : Store → Steps → Nat
  | _, [] => 0
  | store, (moment, operation) :: rest =>
    let after := operation.applied moment store
    match after.ledger.row? row.id with
    | none => 0
    | some later => (if later = row then 0 else 1) + rewritings later after rest

/-- A row that is over is not rewritten, and an open one at most once. -/
theorem rewritings_le (h : store.ledger.HasStages) {row : HistoryRow}
    (hmem : row ∈ store.ledger.history) {steps : Steps}
    (hends : ∀ step ∈ steps, step.2.EndsWithOutcome) :
    rewritings row store steps ≤ row.isOpen.toNat := by
  induction steps generalizing store row with
  | nil => exact Nat.zero_le _
  | cons step rest ih =>
    obtain ⟨moment, operation⟩ := step
    have hoperation := hends _ List.mem_cons_self
    have hafter := hasStages_applied h moment hoperation
    have hpasses := passes_applied h moment hoperation hmem
    rw [rewritings]
    generalize hlater : (operation.applied moment store).ledger.row? row.id = later at hpasses
    have hrest : ∀ later', later = some later' →
        rewritings later' (operation.applied moment store) rest ≤ later'.isOpen.toNat := by
      rintro later' rfl
      exact ih hafter (List.mem_of_find?_eq_some hlater) fun step hstep =>
        hends step (List.mem_cons_of_mem _ hstep)
    cases hpasses with
    | kept =>
      dsimp only
      rw [if_pos rfl, Nat.zero_add]
      exact hrest row rfl
    | removed => exact Nat.zero_le _
    | @finished _ now how hhow _ =>
      dsimp only
      -- What is left of the run starts with a row that is over.
      have hrest := hrest _ rfl
      rw [(hhow.isTerminal_finished row now).isOpen_eq] at hrest
      rw [‹row.isOpen = true›]
      split
      · exact Nat.le_trans (Nat.le_of_eq (Nat.zero_add _)) (Nat.le_trans hrest (Nat.zero_le _))
      · exact Nat.add_le_add_left hrest 1

/-- Whatever a new store is asked for, an entry that is over stays as it is or goes with its site, an
open one changes only by its end, and no entry is rewritten twice. -/
theorem outcomes_stay (feed : Feed) (steps : Steps)
    (hends : ∀ step ∈ steps, step.2.EndsWithOutcome) :
    let store := run { feed } steps
    ∀ row ∈ store.ledger.history,
      (row.isOpen = true ∨ row.IsTerminal) ∧
      (∀ (moment : Moment) (operation : Operation), operation.EndsWithOutcome →
        let later := (operation.applied moment store).ledger.row? row.id
        later = some row ∨ (operation = .deleteSite row.siteId ∧ later = none) ∨
          row.isOpen = true ∧ ∃ ended, later = some ended ∧ ended.IsTerminal ∧
            ended.id = row.id ∧ ended.siteId = row.siteId ∧ ended.started = row.started ∧
            ended.screenshotId = (operation.picture? <|> row.screenshotId)) ∧
      ∀ more : Steps, (∀ step ∈ more, step.2.EndsWithOutcome) →
        rewritings row store more ≤ row.isOpen.toNat := by
  intro store row hmem
  have h : store.ledger.HasStages := hasStages_run .empty hends
  refine ⟨h.isOpen_or_isTerminal hmem, ?_, fun more hmore => rewritings_le h hmem hmore⟩
  intro moment operation hoperation later
  have hpasses : operation.Passes row later := passes_applied h moment hoperation hmem
  clear_value later
  cases hpasses with
  | kept => exact Or.inl rfl
  | removed h => exact Or.inr (Or.inl ⟨h, rfl⟩)
  | @finished hopen now how hhow hpicture =>
    refine Or.inr (Or.inr ⟨hopen, _, rfl, hhow.isTerminal_finished row now, rfl, rfl, rfl, ?_⟩)
    rw [← hpicture]
    rfl

/-- An attempt fails, and is finished again by its id, by its start and with all that are open. -/
theorem outcome_stays_after_second_finish :
    let moment (second : Int) : Moment := ⟨⟨second, 0⟩, .utc, []⟩
    let steps : Steps := [
      (moment 1, .addSite NewSite.sample), (moment 2, .insertHistory 1 (.inProgress ⟨2, 0⟩ none))]
    let more : Steps := [
      (moment 3, .finishHistory 1 (.ofOutcome .textFieldNotFound none (some "3.png"))),
      (moment 4, .finishHistory 1 (.ofOutcome .success none none)),
      (moment 5, .failInProgress 1 ⟨2, 0⟩ none), (moment 6, .failStale "Stopped")]
    let store := run { feed := { capacity := 1 } } steps
    (∀ step ∈ steps ++ more, step.2.EndsWithOutcome) ∧
      store.ledger.history.map (·.isOpen) = [true] ∧
      (store.run more).ledger.history.map (fun row => (row.status, row.screenshotId)) =
        [(ActionStatus.failed.code, some "3.png")] ∧
      ∀ row ∈ store.ledger.history, rewritings row store more ≤ 1 := by
  intro moment steps more
  have hends : ∀ step ∈ steps ++ more, step.2.EndsWithOutcome := by
    simp only [steps, more, List.cons_append, List.nil_append, List.forall_mem_cons, List.not_mem_nil,
      false_implies, implies_true, and_true]
    exact ⟨trivial, trivial, ⟨_, _, _, rfl⟩, ⟨_, _, _, rfl⟩, trivial, trivial⟩
  refine ⟨hends, by decide +kernel, by decide +kernel, ?_⟩
  intro row hmem
  obtain ⟨-, -, hrewritings⟩ := outcomes_stay { capacity := 1 } steps
    (fun step hstep => hends step (List.mem_append_left _ hstep)) row hmem
  apply Nat.le_trans (hrewritings more ?_) (Bool.toNat_le _)
  intro step hstep
  exact hends step (List.mem_append_right _ hstep)

end Store

end KeepAlive
