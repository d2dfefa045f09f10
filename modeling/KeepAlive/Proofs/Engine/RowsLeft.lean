import KeepAlive.Proofs.Engine.Lifetime
import Mathlib.Data.List.Basic

/-!
# The rows that an attempt leaves

An attempt that is over has one row, and this is finished.  The exception is an attempt that is
reconciled too late: a row of it is finished already, and then it is given a second one.
-/

namespace KeepAlive

open Browser Time

/-- The rows that an attempt has at a point of its course. -/
def Phase.Fits (rows : List HistoryRow) : Phase → Prop
  | .going .missed => False
  | .going .load | .going (.enter _) => rows = []
  | .going (.login _ entry _) | .going (.finish _ entry _) => ∃ row, rows = [row] ∧ row.id = entry
  | .going (.reload _ _) | .going (.note _ _) => ∃ row, rows = [row] ∧ row.IsTerminal
  | .broken _ => rows.length ≤ 1
  | .settled late => rows.length = (if late then 2 else 1) ∧ ∀ row ∈ rows, row.IsTerminal

theorem Phase.Fits.length_le_one {rows : List HistoryRow} {stage : Stage}
    (h : Phase.Fits rows (.going stage)) : rows.length ≤ 1 := by
  cases stage with
  | missed => exact h.elim
  | load => rw [show rows = [] from h]; exact Nat.zero_le _
  | enter site => rw [show rows = [] from h]; exact Nat.zero_le _
  | login site entry rest => obtain ⟨row, rfl, -⟩ := h; exact Nat.le_refl _
  | finish site entry outcome => obtain ⟨row, rfl, -⟩ := h; exact Nat.le_refl _
  | reload site finished => obtain ⟨row, rfl, -⟩ := h; exact Nat.le_refl _
  | note site finished => obtain ⟨row, rfl, -⟩ := h; exact Nat.le_refl _

/-- Rows that fit an attempt still do so when open ones of them have been finished. -/
theorem Phase.Fits.of_ages {phase : Phase} {rows after : List HistoryRow} (h : phase.Fits rows)
    (hages : Ledger.Ages rows after) : phase.Fits after := by
  have hnone (hrows : rows = []) : after = [] := by
    subst hrows
    exact hages.nil
  have hown {entry : Int} (hrows : ∃ row, rows = [row] ∧ row.id = entry) :
      ∃ row, after = [row] ∧ row.id = entry := by
    obtain ⟨row, rfl, hid⟩ := hrows
    obtain ⟨later, hlater, rfl⟩ := hages.singleton
    exact ⟨later, rfl, hlater.id_eq.trans hid⟩
  have hover (hrows : ∃ row, rows = [row] ∧ row.IsTerminal) :
      ∃ row, after = [row] ∧ row.IsTerminal := by
    obtain ⟨row, rfl, hterminal⟩ := hrows
    obtain ⟨later, hlater, rfl⟩ := hages.singleton
    exact ⟨later, rfl, hterminal.eq_of_isLater hlater ▸ hterminal⟩
  cases phase with
  | going stage =>
    cases stage with
    | missed => exact h.elim
    | load => exact hnone h
    | enter site => exact hnone h
    | login site entry rest => exact hown h
    | finish site entry outcome => exact hown h
    | reload site finished => exact hover h
    | note site finished => exact hover h
  | broken reason => exact Nat.le_trans (Nat.le_of_eq hages.length_eq) h
  | settled late =>
    refine ⟨hages.length_eq.trans h.1, fun row hmem => ?_⟩
    obtain ⟨earlier, hearlier, hlater⟩ := hages.exists_of_mem hmem
    have hterminal := h.2 earlier hearlier
    exact hterminal.eq_of_isLater hlater ▸ hterminal

/-- The ids of all rows tell them apart, and the rows of an attempt fit the point of its course. -/
structure Ledger.Follows (ledger : Ledger) (siteId : Int) (started : Instant) (phase : Phase) :
    Prop where
  keyed : (ledger.history.map (·.id)).Nodup
  status : ∀ row ∈ ledger.rowsOf siteId started, ∃ status, row.status? = .ok status
  fits : phase.Fits (ledger.rowsOf siteId started)

namespace Ledger.Follows

variable {ledger after : Ledger} {siteId : Int} {started : Instant} {phase : Phase}

theorem spared (h : ledger.Follows siteId started phase)
    (hspares : ledger.Spares siteId started after) : after.Follows siteId started phase := by
  obtain ⟨hkeyed, hages⟩ := hspares
  refine ⟨hkeyed, fun row hmem => ?_, h.fits.of_ages hages⟩
  obtain ⟨earlier, hearlier, hlater⟩ := hages.exists_of_mem hmem
  exact hlater.exists_status? (h.status earlier hearlier)

theorem of_fits (h : ledger.Follows siteId started phase) {other : Phase}
    (hfits : phase.Fits (ledger.rowsOf siteId started) →
      other.Fits (ledger.rowsOf siteId started)) : ledger.Follows siteId started other :=
  ⟨h.keyed, h.status, hfits h.fits⟩

/-- An attempt enters its row. -/
theorem entered {site : Site} (h : ledger.Follows siteId started (.going (.enter site)))
    {moment : Moment} {picture : Option String} {change : Change History}
    (hchange : ledger.insertHistory moment siteId (.inProgress started picture) = .ok change)
    (rest : Dialogue (Except Stop Login.Outcome)) :
    change.ledger.Follows siteId started (.going (.login site change.result.id rest)) := by
  have hnew : (NewHistory.inProgress started picture).started = started := rfl
  obtain ⟨hkeyed, hperm⟩ := perm_rowsOf_insertHistory h.keyed hnew hchange
  have hnone : ledger.rowsOf siteId started = [] := h.fits
  rw [hnone, List.perm_singleton] at hperm
  refine ⟨hkeyed, fun row hmem => ?_, _, hperm, rfl⟩
  rw [hperm, List.mem_singleton] at hmem
  exact ⟨.inProgress, HistoryRow.status?_of_code (by rw [hmem]; rfl)⟩

/-- An attempt finishes its row. -/
theorem finished {site : Site} {entry : Int} {outcome : Login.Outcome}
    (h : ledger.Follows siteId started (.going (.finish site entry outcome))) {moment : Moment}
    {how : Finish} (hhow : how.status.isTerminal = true) {change : Change History}
    (hchange : ledger.finishHistory moment entry how = .ok change) (latest : Site) :
    change.ledger.Follows siteId started (.going (.reload latest change.result)) := by
  obtain ⟨hfinish, -⟩ := finishHistory_eq_ok hchange
  obtain ⟨row, hrow, rfl⟩ := h.fits
  have hafter := rowsOf_finish_of_singleton hrow hfinish
  refine ⟨(ages_finish h.keyed hfinish).nodup h.keyed, fun later hmem => ?_, _, hafter,
    HistoryRow.isTerminal_finished hhow⟩
  rw [hafter, List.mem_singleton] at hmem
  exact ⟨how.status, HistoryRow.status?_of_code (by rw [hmem]; rfl)⟩

/-- A reconciled attempt has one finished row, and a second one if it had one before. -/
theorem reconciled {reason : String} (h : ledger.Follows siteId started (.broken reason))
    {moment : Moment} {change : Change History}
    (hchange : ledger.reconcile moment ⟨siteId, started, reason⟩ = .ok change) :
    change.ledger.Follows siteId started
      (.settled ((ledger.rowsOf siteId started).any (!·.isOpen))) := by
  have hlength : (ledger.rowsOf siteId started).length ≤ 1 := h.fits
  rcases reconcile_eq_ok hchange with ⟨hnone, hinsert⟩ | ⟨row, hrow, hfinish, -⟩
  · -- No row of the attempt is open.
    have hclosed : ∀ row ∈ ledger.rowsOf siteId started, row.isOpen = false := by
      intro row hmem
      obtain ⟨hrow, hof⟩ := List.mem_filter.1 hmem
      have hmeant := List.find?_eq_none.1 hnone row hrow
      rw [isMeant_eq, hof, Bool.true_and] at hmeant
      exact Bool.eq_false_iff.2 hmeant
    obtain ⟨new, hnew, hfailed, hinsert⟩ : ∃ new : NewHistory, new.started = started ∧
        new.status = .failed ∧ ledger.insertHistory moment siteId new = .ok change :=
      ⟨_, rfl, rfl, hinsert⟩
    obtain ⟨hkeyed, hperm⟩ := perm_rowsOf_insertHistory h.keyed hnew hinsert
    have hterminal : ∀ row ∈ change.ledger.rowsOf siteId started, row.IsTerminal := by
      intro row hmem
      rcases List.mem_cons.1 (hperm.mem_iff.1 hmem) with rfl | hbefore
      · exact ⟨.failed, HistoryRow.status?_of_code (congrArg ActionStatus.code hfailed), rfl⟩
      · exact HistoryRow.isTerminal_of_isOpen (h.status row hbefore) (hclosed row hbefore)
    refine ⟨hkeyed, fun row hmem => ?_, ?_, hterminal⟩
    · obtain ⟨status, hstatus, -⟩ := hterminal row hmem
      exact ⟨status, hstatus⟩
    · rw [hperm.length_eq, List.length_cons]
      cases hrows : ledger.rowsOf siteId started with
      | nil => rfl
      | cons first rest =>
        rw [hrows] at hlength hclosed
        have hrest : rest = [] :=
          List.eq_nil_of_length_eq_zero (Nat.le_zero.1 (Nat.le_of_succ_le_succ hlength))
        rw [hrest, List.any_cons, hclosed first List.mem_cons_self]
        rfl
  · -- The attempt has one row, and that is open.
    have hmeant := List.find?_some hrow
    rw [isMeant_eq, Bool.and_eq_true] at hmeant
    obtain ⟨hof, hopen⟩ := hmeant
    have hmem : row ∈ ledger.rowsOf siteId started :=
      List.mem_filter.2 ⟨List.mem_of_find?_eq_some hrow, hof⟩
    have hrows : ledger.rowsOf siteId started = [row] := by
      obtain ⟨only, honly⟩ := List.length_eq_one_iff.1
        (Nat.le_antisymm hlength (List.length_pos_of_mem hmem))
      rw [honly, List.mem_singleton] at hmem
      rw [honly, hmem]
    have hafter := rowsOf_finish_of_singleton hrows hfinish
    have hterminal : ∀ later ∈ change.ledger.rowsOf siteId started, later.IsTerminal := by
      intro later hlater
      rw [hafter, List.mem_singleton] at hlater
      rw [hlater]
      exact isTerminal_finished_broken row moment.now _
    refine ⟨(ages_finish h.keyed hfinish).nodup h.keyed, fun later hlater => ?_, ?_, hterminal⟩
    · obtain ⟨status, hstatus, -⟩ := hterminal later hlater
      exact ⟨status, hstatus⟩
    · rw [hafter, hrows, List.any_cons, hopen]
      rfl

end Ledger.Follows

namespace Attempt

variable {siteId : Int} {started : Instant}

/-- One stage that is followed by another keeps to the course. -/
theorem follows_next {σ : Type} {supply : Supply σ} {around after : Surroundings σ}
    {stage next : Stage} {wakes : Nat}
    (h : around.store.ledger.Follows siteId started (.going stage))
    (hstep : stage.step supply siteId started around = (.next next wakes, after)) :
    after.store.ledger.Follows siteId started (.going next) := by
  rcases Stage.step_eq_next hstep with ⟨rfl, ⟨site, rfl⟩, hstore⟩ |
    ⟨site, entry, rest, picture, rfl, rfl, hinsert⟩ |
    ⟨site, entry, rest, rfl, ⟨rest, rfl⟩ | ⟨outcome, rfl⟩, hstore⟩ |
    ⟨site, entry, outcome, finished, how, rfl, rfl, hhow, hfinish⟩ |
    ⟨site, latest, finished, rfl, rfl, hstore⟩
  · rw [hstore]
    exact h.of_fits id
  · obtain ⟨change, hchange, rfl, hstore⟩ := Store.perform_eq_ok hinsert
    rw [hstore]
    exact h.entered hchange rest
  · rw [hstore]
    exact h.of_fits id
  · rw [hstore]
    exact h.of_fits id
  · obtain ⟨change, hchange, rfl, hstore⟩ := Store.perform_eq_ok hfinish
    rw [hstore]
    exact h.finished hhow hchange site
  · rw [hstore]
    exact h.of_fits id

/-- In its whole course an attempt has the rows that fit. -/
theorem Course.follows {phase : Phase} {store : Store} (h : Course siteId started phase store) :
    store.ledger.Follows siteId started phase := by
  induction h with
  | fired hkeyed hfirst =>
    refine ⟨hkeyed, fun row hmem => ?_, hfirst⟩
    rw [hfirst] at hmem
    cases hmem
  | operated _ operation hforeign moment ih =>
    unfold Operation.applied
    rename_i store _
    cases hchange : operation.change moment store.ledger with
    | error refusal =>
      rw [Store.perform_of_refused hchange]
      exact ih
    | ok change =>
      rw [Store.perform_of_ok hchange]
      exact ih.spared (Operation.spares ih.keyed hforeign hchange)
  | proceeded _ hstep ih => exact follows_next ih hstep
  | done _ hstep hending hloaded ih =>
    rename_i stage _ _
    have hmissed : stage ≠ .missed := by
      rintro rfl
      exact ih.fits
    obtain ⟨hstore, hlast⟩ := Stage.step_eq_closed hmissed hstep
    obtain ⟨site, finished, rfl⟩ := (hlast hending).resolve_left hloaded
    rw [hstore]
    refine ih.of_fits fun ⟨row, hrow, hterminal⟩ => ?_
    rw [hrow]
    exact ⟨rfl, fun other hother => List.mem_singleton.1 hother ▸ hterminal⟩
  | failed _ hstep hending ih =>
    rename_i stage _ _ _
    have hmissed : stage ≠ .missed := by
      rintro rfl
      exact ih.fits
    rw [(Stage.step_eq_closed hmissed hstep).1]
    exact ih.of_fits fun hfits => hfits.length_le_one
  | crashed _ reason ih => exact ih.of_fits fun hfits => hfits.length_le_one
  | reconciled _ moment hreconcile ih =>
    obtain ⟨change, hchange, -, rfl⟩ := Store.perform_eq_ok hreconcile
    exact ih.reconciled hchange

theorem Course.fired_of_history {store : Store} (h : store.ledger.history = []) :
    Course siteId started (.going .load) store := by
  refine .fired ?_ ?_
  · rw [h]
    exact List.nodup_nil
  · rw [Ledger.rowsOf, h]
    rfl

/-- An attempt whose site has been loaded enters its row. -/
theorem Course.enter {store entered : Store} (h : Course siteId started (.going .load) store)
    {site : Site} (hsite : store.ledger.site siteId = .ok site) (hpaused : site.paused = false)
    (hpicture : site.takeScreenshot = false) (timing : Login.Timing) {moment : Moment}
    {entry : History}
    (hentry : store.perform (·.insertHistory moment siteId (.inProgress started none)) =
      (.ok entry, entered)) :
    Course siteId started
      (.going (.login site entry.id (Login.login timing (site.request none)).caught)) entered := by
  let around : Surroundings Unit := { store, browser := (), time := 0 }
  let supply : Supply Unit := {
    server := fun _ _ => ⟨.error (.refused (.session "no browser")), (), 0⟩, timing, moment
    picture := "" }
  have hload : Stage.load.step supply siteId started around = (.next (.enter site) 0, around) := by
    simp only [Stage.step, around, hsite, Stage.loaded, hpaused, Bool.false_eq_true, if_false]
  have hloaded : Course siteId started (.going (.enter site)) around.store := .proceeded h hload
  have henter : (Stage.enter site).step supply siteId started around = (.next (.login site entry.id
      (Login.login timing (site.request none)).caught) 0, { around with store := entered }) := by
    simp only [Stage.step, hpicture, Bool.false_eq_true, if_false, around, supply, hentry]
  exact .proceeded hloaded henter

/-- An attempt that finds no browser finishes its row all the same. -/
theorem Course.finish {entered closed : Store} {site : Site} {entry : Int} {timing : Login.Timing}
    {request : Login.Request}
    (h : Course siteId started (.going (.login site entry (Login.login timing request).caught))
      entered)
    {moment : Moment} {finished : History}
    (hfinished : entered.perform
      (·.finishHistory moment entry (.ofOutcome .unknownExecutionError none none)) =
        (.ok finished, closed)) :
    ∃ latest, Course siteId started (.going (.note latest finished)) closed := by
  let around : Surroundings Unit := { store := entered, browser := (), time := 0 }
  let supply : Supply Unit := {
    server := fun _ _ => ⟨.error (.refused (.session "no browser")), (), 0⟩, timing, moment
    picture := "" }
  have hlogin : (Stage.login site entry (Login.login timing request).caught).step supply siteId
      started around = (.next (.finish site entry .unknown) 0, around) := rfl
  have hlogged : Course siteId started (.going (.finish site entry .unknown)) around.store :=
    .proceeded h hlogin
  have hfinish : (Stage.finish site entry .unknown).step supply siteId started around =
      (.next (.reload site finished) 0, { around with store := closed }) := by
    simp only [Stage.step, around, supply, Login.Outcome.unknown, hfinished]
  have hclosed : Course siteId started (.going (.reload site finished)) closed :=
    .proceeded hlogged hfinish
  have hreload : ∃ latest, (Stage.reload site finished).step supply siteId started
      { around with store := closed } =
        (.next (.note latest finished) 0, { around with store := closed }) := ⟨_, rfl⟩
  obtain ⟨latest, hreload⟩ := hreload
  exact ⟨latest, .proceeded hclosed hreload⟩

/-- A crash that comes when the row is finished comes too late. -/
theorem Course.late_of_note {store : Store} {site : Site} {finished : History}
    (h : Course siteId started (.going (.note site finished)) store) :
    (store.ledger.rowsOf siteId started).any (!·.isOpen) = true := by
  obtain ⟨row, hrow, hterminal⟩ := h.follows.fits
  rw [hrow, List.any_cons, hterminal.isOpen_eq]
  rfl

/-- An attempt that is over, and reconciled if it broke off, has one row and this is finished, unless
it was reconciled when it had a finished row already.  Then it has two, and both are finished. -/
theorem Course.rows_of_settled {late : Bool} {store : Store}
    (h : Course siteId started (.settled late) store) :
    ((∃ row, store.ledger.rowsOf siteId started = [row] ∧ row.IsTerminal) ↔ late = false) ∧
      (late = true → ∃ first second, store.ledger.rowsOf siteId started = [first, second] ∧
        first.IsTerminal ∧ second.IsTerminal) := by
  obtain ⟨hlength, hterminal⟩ := h.follows.fits
  cases late with
  | false =>
    obtain ⟨row, hrow⟩ := List.length_eq_one_iff.1 hlength
    exact ⟨⟨fun _ => rfl, fun _ => ⟨row, hrow, hterminal row (by simp [hrow])⟩⟩, nofun⟩
  | true =>
    obtain ⟨first, second, hrows⟩ := List.length_eq_two.1 hlength
    refine ⟨⟨?_, nofun⟩, fun _ => ⟨first, second, hrows, hterminal first (by simp [hrows]),
      hterminal second (by simp [hrows])⟩⟩
    rintro ⟨row, hrow, -⟩
    rw [hrow] at hrows
    cases hrows

/-- An attempt that crashes during its login has one row, which its reconciliation finishes. -/
theorem one_row_after_crashed_login :
    let moment (second : Int) : Moment := ⟨⟨second, 0⟩, .fixed 0, []⟩
    ∃ store, Course 1 (moment 20).now (.settled false) store ∧
      ∃ row, store.ledger.rowsOf 1 (moment 20).now = [row] ∧ row.IsTerminal := by
  intro moment
  let added := (Operation.addSite .sample).applied (moment 10) { feed := { capacity := 1 } }
  let entered := added.perform (·.insertHistory (moment 20) 1 (.inProgress (moment 20).now none))
  let reconciled := entered.2.perform (·.reconcile (moment 30) ⟨1, (moment 20).now, "crashed"⟩)
  obtain ⟨hnone, hsite, hentry, hopen, hrow⟩ : added.ledger.history = [] ∧
      (added.ledger.site 1).toOption.map (fun site => (site.paused, site.takeScreenshot)) =
        some (false, false) ∧
      entered.1.toOption.map (·.id) = some 1 ∧
      (entered.2.ledger.rowsOf 1 (moment 20).now).any (!·.isOpen) = false ∧
      reconciled.1.toOption.map (·.id) = some 1 := by decide +kernel
  have hentered : added.perform _ = entered := rfl
  have hreconciled : entered.2.perform _ = reconciled := rfl
  clear_value reconciled entered added
  obtain ⟨site, hsite, hasked⟩ := exists_ok_of_map hsite
  obtain ⟨entry, hentry, -⟩ := exists_ok_of_map hentry
  obtain ⟨row, hrow, -⟩ := exists_ok_of_map hrow
  obtain ⟨hactive, hscreenshot⟩ := Prod.mk.inj hasked
  have hlogin := (Course.fired_of_history hnone).enter hsite hactive hscreenshot
    ⟨0, 0, 0, 0, 0, 0⟩ (hentered.trans (Prod.ext hentry rfl))
  have hover := Course.reconciled (hlogin.crashed "crashed") (moment 30)
    (hreconciled.trans (Prod.ext hrow rfl))
  rw [hopen] at hover
  exact ⟨_, hover, hover.rows_of_settled.1.2 rfl⟩

/-- An attempt that crashes when it has finished its row has two rows after its reconciliation. -/
theorem two_rows_after_late_crash :
    let moment (second : Int) : Moment := ⟨⟨second, 0⟩, .fixed 0, []⟩
    ∃ store, Course 1 (moment 20).now (.settled true) store ∧
      (store.ledger.rowsOf 1 (moment 20).now).length = 2 := by
  intro moment
  let added := (Operation.addSite .sample).applied (moment 10) { feed := { capacity := 1 } }
  let entered := added.perform (·.insertHistory (moment 20) 1 (.inProgress (moment 20).now none))
  let closed := entered.2.perform
    (·.finishHistory (moment 30) 1 (.ofOutcome .unknownExecutionError none none))
  let reconciled := closed.2.perform (·.reconcile (moment 40) ⟨1, (moment 20).now, "crashed"⟩)
  obtain ⟨hnone, hsite, hentry, hfinished, hrow⟩ : added.ledger.history = [] ∧
      (added.ledger.site 1).toOption.map (fun site => (site.paused, site.takeScreenshot)) =
        some (false, false) ∧
      entered.1.toOption.map (·.id) = some 1 ∧ closed.1.toOption.map (·.id) = some 1 ∧
      reconciled.1.toOption.map (·.id) = some 2 := by decide +kernel
  have hentered : added.perform _ = entered := rfl
  have hclosed : entered.2.perform _ = closed := rfl
  have hreconciled : closed.2.perform _ = reconciled := rfl
  clear_value reconciled closed entered added
  obtain ⟨site, hsite, hasked⟩ := exists_ok_of_map hsite
  obtain ⟨entry, hentry, hid⟩ := exists_ok_of_map hentry
  obtain ⟨finished, hfinished, -⟩ := exists_ok_of_map hfinished
  obtain ⟨row, hrow, -⟩ := exists_ok_of_map hrow
  obtain ⟨hactive, hscreenshot⟩ := Prod.mk.inj hasked
  have hlogin := (Course.fired_of_history hnone).enter hsite hactive hscreenshot
    ⟨0, 0, 0, 0, 0, 0⟩ (hentered.trans (Prod.ext hentry rfl))
  rw [hid] at hlogin
  obtain ⟨latest, hnote⟩ := hlogin.finish (hclosed.trans (Prod.ext hfinished rfl))
  have hover := Course.reconciled (hnote.crashed "crashed") (moment 40)
    (hreconciled.trans (Prod.ext hrow rfl))
  rw [hnote.late_of_note] at hover
  exact ⟨_, hover, hover.follows.fits.1⟩

end Attempt

end KeepAlive
