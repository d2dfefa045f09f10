import KeepAlive.Proofs.Feed.Announced

/-!
# What an operation leaves

An operation that takes place has found what it needs, and leaves one ledger and the events that it
announces.  `Operation.Leaves` says this once for all operations, so that what they have in common is
shown by going through its cases.  A run is a row of operations one after the other; those that are
refused are part of it and change nothing.
-/

namespace KeepAlive

open Time

namespace Ledger

/-- The row of an entry. -/
def row? (ledger : Ledger) (id : Int) : Option HistoryRow :=
  ledger.history.find? (·.id = id)

theorem row?_of_mem {ledger : Ledger} {row : HistoryRow}
    (hnodup : (ledger.history.map (·.id)).Nodup) (hmem : row ∈ ledger.history) :
    ledger.row? row.id = some row :=
  find?_of_nodup hnodup hmem

end Ledger

/-- A script, if there is one, can be read. -/
def IsReadableScript (script : Option String) : Prop :=
  ∀ source, script = some source → ∃ commands, Script.parse source = .ok commands

theorem isReadableScript_of_checkScript {script : Option String}
    (h : Ledger.checkScript script = .ok ()) : IsReadableScript script := by
  rintro source rfl
  unfold Ledger.checkScript at h
  cases hparse : Script.parse source with
  | ok commands => exact ⟨commands, rfl⟩
  | error error => simp [hparse] at h

/-- The finish is that of a login with its outcome. -/
def Finish.IsOutcome (how : Finish) : Prop :=
  ∃ status message picture, how = .ofOutcome status message picture

theorem Ledger.isOutcome_broken (message : Option String) : (Ledger.broken message).IsOutcome :=
  ⟨_, _, _, rfl⟩

namespace Operation

/-- The ledger after an operation that takes place, and the events that it announces. -/
inductive Leaves (ledger : Ledger) (moment : Moment) : Operation → Ledger → List Event → Prop
  | added {new : NewSite} {id : Int} (hid : id = Ledger.nextId (ledger.sites.map (·.id)))
      (hscript : IsReadableScript new.script)
      (hclock : ∃ instant, storedInstant? 14 (millisText moment.now) = .ok instant) :
      Leaves ledger moment (.addSite new)
        { ledger with sites := Ledger.placed (·.id) (.ofNew id moment.now new) ledger.sites }
        [.siteCreated id]
  | edited {id : Int} {edit : SiteEdit} {site : Site} (hsite : ledger.site id = .ok site)
      (hscript : IsReadableScript (edit.script.bind (·)))
      (hsame : (site.edited edit).policy = site.policy ∨ site.paused = true) :
      Leaves ledger moment (.updateSite id edit)
        (ledger.withSite id (·.withEdit (site.edited edit))) []
  | replanned {id : Int} {edit : SiteEdit} {site : Site} (hsite : ledger.site id = .ok site)
      (hscript : IsReadableScript (edit.script.bind (·)))
      (hpolicy : (site.edited edit).policy ≠ site.policy) (hactive : site.paused = false) :
      Leaves ledger moment (.updateSite id edit)
        ((ledger.withSite id (·.withEdit (site.edited edit))).withNext id
          (Ledger.drawn (site.edited edit) moment))
        [.siteRescheduled id]
  | unmoved {id : Int} {site : Site} (hsite : ledger.site id = .ok site) :
      Leaves ledger moment (.setPaused id site.paused) ledger []
  | switched {id : Int} {paused : Bool} {site : Site} (hsite : ledger.site id = .ok site)
      (hne : site.paused ≠ paused) :
      Leaves ledger moment (.setPaused id paused)
        (ledger.withSite id (SiteRow.planned (Ledger.drawn { site with paused } moment)))
        [.sitePaused id paused]
  | triggered {id : Int} {site : Site} (hsite : ledger.site id = .ok site)
      (hactive : site.paused = false) :
      Leaves ledger moment (.triggerNow id) (ledger.withNext id (some moment.now))
        [.siteRescheduled id]
  | rescheduled {id : Int} {site : Site} (hsite : ledger.site id = .ok site) :
      Leaves ledger moment (.reschedule id) (ledger.withNext id (Ledger.drawn site moment))
        (if site.paused then [] else [.siteRescheduled id])
  | deleted {id : Int} (hsite : ∃ row ∈ ledger.sites, row.id = id) :
      Leaves ledger moment (.deleteSite id)
        { sites := ledger.sites.filter (·.id ≠ id)
          history := ledger.history.filter (·.siteId ≠ id) }
        [.siteDeleted id]
  | entered {siteId id : Int} {new : NewHistory} {site : Site}
      (hsite : ledger.site siteId = .ok site)
      (hid : id = Ledger.nextId (ledger.history.map (·.id))) :
      Leaves ledger moment (.insertHistory siteId new)
        (Ledger.withNext { ledger with
          history := Ledger.placed (·.id) (.ofNew id siteId new) ledger.history } siteId
          (Ledger.drawn site moment))
        [.historyLogged siteId id]
  | finished {id : Int} {how : Finish} {row : HistoryRow} {site : Site}
      (hrow : ledger.history.find? (·.id = id) = some row) (hopen : row.isOpen = true)
      (hsite : ledger.site row.siteId = .ok site) :
      Leaves ledger moment (.finishHistory id how)
        ((ledger.withHistory id (·.finished moment.now how)).withNext row.siteId
          (Ledger.drawn site moment))
        [.historyChanged row.siteId id]
  | missed {siteId : Int} {started : Instant} {message : Option String}
      (hnone : ledger.history.find? (Ledger.isMeant siteId started) = none) :
      Leaves ledger moment (.failInProgress siteId started message) ledger []
  | failed {siteId : Int} {started : Instant} {message : Option String} {row : HistoryRow}
      {after : Ledger} {events : List Event}
      (hrow : ledger.history.find? (Ledger.isMeant siteId started) = some row)
      (hfinish : Leaves ledger moment (.finishHistory row.id (Ledger.broken message)) after events) :
      Leaves ledger moment (.failInProgress siteId started message) after
        [.historyChanged siteId row.id]
  | closed {message : String} :
      Leaves ledger moment (.failStale message) (ledger.failStale moment.now message).ledger
        (ledger.failStale moment.now message).events
  | reconciled {fault : Ledger.Fault} {row : HistoryRow} {after : Ledger} {events : List Event}
      (hrow : ledger.history.find? (Ledger.isMeant fault.siteId fault.started) = some row)
      (hfail : Leaves ledger moment
        (.failInProgress fault.siteId fault.started (some fault.message)) after events) :
      Leaves ledger moment (.reconcile fault) after events
  | recorded {fault : Ledger.Fault} {after : Ledger} {events : List Event}
      (hnone : ledger.history.find? (Ledger.isMeant fault.siteId fault.started) = none)
      (hinsert : Leaves ledger moment (.insertHistory fault.siteId
        (.crashed fault.started moment.now (some fault.message))) after events) :
      Leaves ledger moment (.reconcile fault) after events

section

variable {ledger : Ledger} {moment : Moment}

theorem leaves_addSite {new : NewSite} {change : Change Site}
    (h : ledger.addSite moment new = .ok change) :
    Leaves ledger moment (.addSite new) change.ledger change.events := by
  unfold Ledger.addSite at h
  obtain ⟨⟨⟩, hscript, h⟩ := Ledger.bind_eq_ok.1 h
  obtain ⟨site, hsite, h⟩ := Ledger.bind_eq_ok.1 h
  cases h
  obtain ⟨row, hrow, hread⟩ := Ledger.site_eq_ok_iff.1 hsite
  have hself := @Ledger.find?_placed_self SiteRow (·.id)
    (.ofNew (Ledger.nextId (ledger.sites.map (·.id))) moment.now new) ledger.sites
  cases hrow.symm.trans hself
  obtain ⟨hid, -, -, -, haddedAt⟩ := SiteRow.site?_eq_ok hread
  have hleaves := @Leaves.added ledger moment new _ rfl (isReadableScript_of_checkScript hscript)
    ⟨_, haddedAt⟩
  have hkey : site.id = Ledger.nextId (ledger.sites.map (·.id)) := hid
  rw [← hkey] at hleaves ⊢
  exact hleaves

theorem leaves_updateSite {id : Int} {edit : SiteEdit} {change : Change Site}
    (h : ledger.updateSite moment id edit = .ok change) :
    Leaves ledger moment (.updateSite id edit) change.ledger change.events := by
  unfold Ledger.updateSite at h
  obtain ⟨⟨⟩, hscript, h⟩ := Ledger.bind_eq_ok.1 h
  obtain ⟨site, hsite, h⟩ := Ledger.bind_eq_ok.1 h
  have hscript := isReadableScript_of_checkScript hscript
  dsimp only at h
  split at h
  · rename_i hchanged
    cases h
    exact .replanned hsite hscript hchanged.1 (by simpa using hchanged.2)
  · rename_i hunchanged
    cases h
    refine .edited hsite hscript ?_
    by_cases hpolicy : (site.edited edit).policy = site.policy
    · exact Or.inl hpolicy
    · exact Or.inr (by simpa [hpolicy] using hunchanged)

theorem leaves_setPaused {id : Int} {paused : Bool} {change : Change Site}
    (h : ledger.setPaused moment id paused = .ok change) :
    Leaves ledger moment (.setPaused id paused) change.ledger change.events := by
  unfold Ledger.setPaused at h
  obtain ⟨site, hsite, h⟩ := Ledger.bind_eq_ok.1 h
  split at h
  · rename_i hsame
    cases h
    exact hsame ▸ .unmoved hsite
  · rename_i hne
    cases h
    have hleaves := @Leaves.switched ledger moment id paused site hsite hne
    unfold SiteRow.planned at hleaves
    rw [Ledger.isNone_drawn] at hleaves
    rw [Ledger.withNext, Ledger.withSite_withSite]
    · exact hleaves
    · intro row
      rfl

theorem leaves_insertHistory {siteId : Int} {new : NewHistory} {change : Change History}
    (h : ledger.insertHistory moment siteId new = .ok change) :
    Leaves ledger moment (.insertHistory siteId new) change.ledger change.events := by
  obtain ⟨site, id, hsite, hid, hledger, hevents⟩ := Ledger.insertHistory_eq_ok h
  rw [hledger, hevents, Ledger.id_of_site hsite]
  exact .entered hsite hid

theorem leaves_finish {id : Int} {how : Finish} {entry : History} {after : Ledger}
    (h : ledger.finish moment id how = .ok (entry, after)) :
    Leaves ledger moment (.finishHistory id how) after [.historyChanged entry.siteId id] := by
  obtain ⟨row, site, hrow, hopen, hsite, hafter, -, hsiteId⟩ := Ledger.finish_row h
  rw [hafter, hsiteId, Ledger.id_of_site hsite]
  exact .finished hrow hopen hsite

theorem leaves_failInProgress {siteId : Int} {started : Instant} {message : Option String}
    {change : Change (Option History)}
    (h : ledger.failInProgress moment siteId started message = .ok change) :
    Leaves ledger moment (.failInProgress siteId started message) change.ledger change.events := by
  rcases Ledger.failInProgress_eq_ok h with ⟨hnone, rfl⟩ | ⟨row, entry, hrow, hfinish, -, hevents⟩
  · exact .missed hnone
  · rw [hevents]
    exact .failed hrow (leaves_finish hfinish)

/-- What an operation does is one of the cases above. -/
theorem leaves_of_change {operation : Operation} {change : Change Unit}
    (h : operation.change moment ledger = .ok change) :
    operation.Leaves ledger moment change.ledger change.events := by
  have hmap {α : Type} {done : Except Refusal (Change α)} (hdone : done.map Change.bare = .ok change)
      (hleaves : ∀ made, done = .ok made →
        operation.Leaves ledger moment made.ledger made.events) :
      operation.Leaves ledger moment change.ledger change.events := by
    obtain ⟨made, hmade, rfl⟩ := Change.map_bare_eq_ok hdone
    exact hleaves made hmade
  cases operation with
  | addSite new => exact hmap h fun _ => leaves_addSite
  | updateSite id edit => exact hmap h fun _ => leaves_updateSite
  | setPaused id paused => exact hmap h fun _ => leaves_setPaused
  | triggerNow id =>
    refine hmap h fun made hmade => ?_
    obtain ⟨site, hsite, hactive, hledger, hevents⟩ := Ledger.triggerNow_eq_ok hmade
    rw [hledger, hevents]
    exact .triggered hsite hactive
  | reschedule id =>
    refine hmap h fun made hmade => ?_
    obtain ⟨site, hsite, -, hledger, hevents⟩ := Ledger.reschedule_eq_ok hmade
    rw [hledger, hevents]
    exact .rescheduled hsite
  | deleteSite id =>
    refine hmap h fun made hmade => ?_
    unfold Ledger.deleteSite at hmade
    split at hmade
    · rename_i hsite
      cases hmade
      exact .deleted (by simpa using hsite)
    · cases hmade
  | insertHistory siteId new => exact hmap h fun _ => leaves_insertHistory
  | finishHistory id how =>
    refine hmap h fun made hmade => ?_
    obtain ⟨hfinish, hevents⟩ := Ledger.finishHistory_eq_ok hmade
    rw [hevents]
    exact leaves_finish hfinish
  | failInProgress siteId started message => exact hmap h fun _ => leaves_failInProgress
  | failStale message =>
    cases h
    exact .closed
  | reconcile fault =>
    refine hmap h fun made hmade => ?_
    rcases Ledger.reconcile_eq_ok hmade with ⟨hnone, hinsert⟩ | ⟨row, hrow, hfinish, hevents⟩
    · exact .recorded hnone (leaves_insertHistory hinsert)
    · rw [hevents]
      exact .reconciled hrow (.failed hrow (leaves_finish hfinish))

end

/-- An operation is refused and nothing has happened, or the store is what the operation leaves. -/
theorem applied_leaves (operation : Operation) (moment : Moment) (store : Store) :
    operation.applied moment store = store ∨
      ∃ change : Change Unit, operation.Leaves store.ledger moment change.ledger change.events ∧
        operation.applied moment store = store.commit change := by
  unfold applied
  cases hchange : operation.change moment store.ledger with
  | error refusal =>
    left
    rw [Store.perform_of_refused hchange]
  | ok change =>
    right
    exact ⟨change, leaves_of_change hchange, by rw [Store.perform_of_ok hchange]⟩

end Operation

/-- Operations at their moments, one after the other. -/
abbrev Steps : Type :=
  List (Moment × Operation)

namespace Store

/-- The store after operations, the first one first. -/
def run (store : Store) (steps : Steps) : Store :=
  steps.foldl (fun store step => step.2.applied step.1 store) store

theorem run_cons (store : Store) (moment : Moment) (operation : Operation) (rest : Steps) :
    store.run ((moment, operation) :: rest) = (operation.applied moment store).run rest :=
  rfl

/-- What every operation of a run keeps is kept by the run. -/
theorem run_induction (Kept : Store → Prop) {steps : Steps}
    (hstep : ∀ store, Kept store → ∀ step ∈ steps, Kept (step.2.applied step.1 store))
    {store : Store} (h : Kept store) : Kept (store.run steps) := by
  induction steps generalizing store with
  | nil => exact h
  | cons step rest ih =>
    apply ih
    · intro store h step hmem
      exact hstep store h step (List.mem_cons_of_mem _ hmem)
    · exact hstep store h step List.mem_cons_self

end Store

end KeepAlive
