import KeepAlive.Proofs.Ledger.Writing

/-!
# What an operation does to the plan of one site

An operation draws the next run of a site when it enters or finishes a row of the site or
reschedules it.  Anything else that does not pause, delete or trigger the site, nor give it another
policy, leaves the plan of the site as it is and withdraws nothing.
-/

namespace KeepAlive

open Time

namespace Operation

/-- Whether an operation enters or finishes a row of a site, or reschedules the site. -/
def draws (ledger : Ledger) (siteId : Int) : Operation → Bool
  | .insertHistory id _ => id = siteId
  | .finishHistory id _ => (ledger.history.find? (·.id = id)).any (·.siteId = siteId)
  | .failInProgress id started _ =>
    id = siteId && (ledger.history.find? (Ledger.isMeant id started)).isSome
  | .reconcile fault => fault.siteId = siteId
  | .reschedule id => id = siteId
  | _ => false

/-- The next run that an operation draws for a site, if it draws one. -/
def drawn? (operation : Operation) (moment : Moment) (ledger : Ledger) (siteId : Int) :
    Option Instant :=
  if operation.draws ledger siteId && (operation.change moment ledger).toOption.isSome then
    (ledger.site siteId).toOption.bind (Ledger.drawn · moment)
  else none

/-- Whether an operation neither pauses, deletes nor triggers a site, nor gives it another policy.
-/
def Spares (ledger : Ledger) (siteId : Int) : Operation → Prop
  | .updateSite id edit => id = siteId →
    ∀ site, ledger.site id = .ok site → (site.edited edit).policy = site.policy
  | .setPaused id paused => id = siteId → paused = false
  | .triggerNow id => id ≠ siteId
  | .deleteSite id => id ≠ siteId
  | _ => True

end Operation

namespace Ledger

variable {ledger : Ledger} {moment : Moment} {siteId : Int}

theorem plan_withNext_of_ne {id : Int} (h : siteId ≠ id) (next : Option Instant) :
    (ledger.withNext id next).plan siteId = ledger.plan siteId :=
  plan_withSite_of_ne (fun _ => rfl) h

theorem plan_withNext_self {id : Int} {site : Site} (h : ledger.site id = .ok site)
    (next : Option Instant) : (ledger.withNext id next).plan id = next.map millisText := by
  obtain ⟨row, hrow, -⟩ := site_eq_ok_iff.1 h
  have hkey : row.id = id := by simpa using List.find?_some hrow
  have hid : ∀ row : SiteRow, ({ row with next := next.map millisText } : SiteRow).id = row.id :=
    fun _ => rfl
  rw [plan, withNext, withSite, find?_changed hid, hrow, Option.map_some, if_pos hkey]
  rfl

/-- What an operation that takes place does to the plan of a site. -/
inductive Steers {α : Type} (ledger : Ledger) (moment : Moment) (siteId : Int) (change : Change α) :
    Bool → Prop
  | drawn {site : Site} (hsite : ledger.site siteId = .ok site)
      (hplan : change.ledger.plan siteId = (drawn site moment).map millisText) :
      Steers ledger moment siteId change true
  | spared (hplan : change.ledger.plan siteId = ledger.plan siteId)
      (hevents : ∀ event ∈ change.events, event.siteId = siteId → ¬event.IsWithdrawal) :
      Steers ledger moment siteId change false

theorem Steers.bare {α : Type} {change : Change α} {draws : Bool}
    (h : ledger.Steers moment siteId change draws) :
    ledger.Steers moment siteId change.bare draws := by
  cases h with
  | drawn hsite hplan => exact .drawn hsite hplan
  | spared hplan hevents => exact .spared hplan hevents

/-- An operation that draws the next run of a site leaves all other sites alone. -/
theorem steers_of_drawn {α : Type} {id : Int} {site : Site} (hsite : ledger.site id = .ok site)
    {change : Change α}
    (hsites : change.ledger.sites = (ledger.withNext id (drawn site moment)).sites)
    (hevents : ∀ event ∈ change.events, ¬event.IsWithdrawal) :
    ledger.Steers moment siteId change (decide (id = siteId)) := by
  have hplan := plan_congr hsites
  by_cases hid : id = siteId
  · subst hid
    rw [decide_eq_true rfl]
    exact .drawn hsite ((hplan id).trans (plan_withNext_self hsite _))
  · rw [decide_eq_false hid]
    exact .spared ((hplan siteId).trans (plan_withNext_of_ne (Ne.symm hid) _))
      fun event hevent _ => hevents event hevent

/-- An operation that leaves the rows of sites alone. -/
theorem steers_of_sites {α : Type} {change : Change α} (hsites : change.ledger.sites = ledger.sites)
    (hevents : ∀ event ∈ change.events, ¬event.IsWithdrawal) :
    ledger.Steers moment siteId change false :=
  .spared (plan_congr hsites siteId) fun event hevent _ => hevents event hevent

theorem steers_addSite {new : NewSite} (hplan : ledger.plan siteId ≠ none) {change : Change Site}
    (hchange : ledger.addSite moment new = .ok change) :
    ledger.Steers moment siteId change false := by
  obtain ⟨id, hid, hledger, -, hevents⟩ := addSite_eq_ok hchange
  have hne : siteId ≠ id := by
    rintro rfl
    obtain ⟨text, htext⟩ := Option.ne_none_iff_exists'.1 hplan
    obtain ⟨row, hrow, -⟩ := Option.bind_eq_some_iff.1 htext
    have hkey : row.id = siteId := by simpa using List.find?_some hrow
    have hfree := nextId_not_mem (ledger.sites.map (·.id))
    rw [← hid, ← hkey] at hfree
    exact hfree (List.mem_map_of_mem (List.mem_of_find?_eq_some hrow))
  refine .spared ?_ (by simp [hevents, Event.IsWithdrawal])
  rw [plan, hledger, find?_placed_of_ne hne, plan]

theorem steers_updateSite {id : Int} {edit : SiteEdit}
    (hspares : (Operation.updateSite id edit).Spares ledger siteId) {change : Change Site}
    (hchange : ledger.updateSite moment id edit = .ok change) :
    ledger.Steers moment siteId change false := by
  obtain ⟨before, hbefore, hcase⟩ := updateSite_eq_ok hchange
  have hedited := @plan_withSite_of_next ledger id (·.withEdit (before.edited edit)) (fun _ => rfl)
    (fun _ => rfl) siteId
  rcases hcase with ⟨hledger, hevents⟩ | ⟨hpolicy, -, hledger, hevents⟩
  · exact .spared (by rw [hledger, hedited]) (by simp [hevents])
  · have hne : siteId ≠ id := fun heq => hpolicy (hspares heq.symm before hbefore)
    exact .spared (by rw [hledger, plan_withNext_of_ne hne, hedited])
      (by simp [hevents, Event.IsWithdrawal])

theorem steers_setPaused (h : ledger.IsWritten) {id : Int} {paused : Bool}
    (hplan : ledger.plan siteId ≠ none)
    (hspares : (Operation.setPaused id paused).Spares ledger siteId) {change : Change Site}
    (hchange : ledger.setPaused moment id paused = .ok change) :
    ledger.Steers moment siteId change false := by
  obtain ⟨site, hsite, ⟨hledger, hevents⟩ | ⟨hchanged, hledger, hevents⟩⟩ := setPaused_eq_ok hchange
  · exact .spared (by rw [hledger]) (by simp [hevents])
  · have hne : siteId ≠ id := by
      rintro rfl
      have hactive := h.isNone_plan hsite
      rw [Option.isNone_eq_false_iff.2 (Option.isSome_iff_ne_none.2 hplan)] at hactive
      exact hchanged (hactive.symm.trans (hspares rfl).symm)
    refine .spared ?_ ?_
    · rw [hledger, plan_withNext_of_ne hne]
      exact plan_withSite_of_ne (fun _ => rfl) hne
    · intro event hevent hid
      rw [hevents, List.mem_singleton] at hevent
      rw [hevent] at hid
      exact absurd hid.symm hne

theorem steers_triggerNow {id : Int} (hne : id ≠ siteId) {change : Change Site}
    (hchange : ledger.triggerNow moment id = .ok change) :
    ledger.Steers moment siteId change false := by
  obtain ⟨site, -, -, hledger, hevents⟩ := triggerNow_eq_ok hchange
  exact .spared (by rw [hledger, plan_withNext_of_ne hne.symm])
    (by simp [hevents, Event.IsWithdrawal])

theorem steers_reschedule {id : Int} {change : Change Site}
    (hchange : ledger.reschedule moment id = .ok change) :
    ledger.Steers moment siteId change (decide (id = siteId)) := by
  obtain ⟨site, hsite, -, hledger, hevents⟩ := reschedule_eq_ok hchange
  refine steers_of_drawn hsite (by rw [hledger]) ?_
  rw [hevents]
  cases site.paused <;> simp [Event.IsWithdrawal]

theorem steers_deleteSite {id : Int} (hne : id ≠ siteId) {change : Change Unit}
    (hchange : ledger.deleteSite id = .ok change) : ledger.Steers moment siteId change false := by
  obtain ⟨hsites, -, hevents⟩ := deleteSite_eq_ok hchange
  refine .spared ?_ ?_
  · rw [plan, hsites, find?_filter_of_imp, plan]
    intro row hrow
    have hkey : row.id = siteId := by simpa using hrow
    simpa [hkey] using hne.symm
  · intro event hevent hid
    rw [hevents, List.mem_singleton] at hevent
    rw [hevent] at hid
    exact absurd hid hne

theorem steers_insertHistory {id : Int} {new : NewHistory} {change : Change History}
    (hchange : ledger.insertHistory moment id new = .ok change) :
    ledger.Steers moment siteId change (decide (id = siteId)) := by
  obtain ⟨site, entry, hsite, -, hledger, hevents⟩ := insertHistory_eq_ok hchange
  rw [id_of_site hsite] at hledger
  exact steers_of_drawn hsite (by rw [hledger]; rfl) (by simp [hevents, Event.IsWithdrawal])

/-- The site of the row is drawn. -/
theorem steers_finish {α : Type} {id : Int} {how : Finish} {entry : History} {change : Change α}
    (hfinish : ledger.finish moment id how = .ok (entry, change.ledger)) {eventSite : Int}
    (hevents : change.events = [.historyChanged eventSite id]) :
    ledger.Steers moment siteId change (decide (entry.siteId = siteId)) := by
  obtain ⟨row, site, -, -, hsite, hledger, -, hrow⟩ := finish_row hfinish
  rw [id_of_site hsite] at hledger
  rw [hrow]
  exact steers_of_drawn hsite (by rw [hledger]; rfl) (by simp [hevents, Event.IsWithdrawal])

theorem steers_finishHistory {id : Int} {how : Finish} {change : Change History}
    (hchange : ledger.finishHistory moment id how = .ok change) :
    ledger.Steers moment siteId change ((Operation.finishHistory id how).draws ledger siteId) := by
  obtain ⟨hfinish, hevents⟩ := finishHistory_eq_ok hchange
  obtain ⟨row, -, hfound, -, -, -, -, hsiteId⟩ := finish_row hfinish
  rw [Operation.draws, hfound, Option.any_some, ← hsiteId]
  exact steers_finish hfinish hevents

theorem steers_failInProgress (h : ledger.IsWritten) {id : Int} {started : Instant}
    {message : Option String} {change : Change (Option History)}
    (hchange : ledger.failInProgress moment id started message = .ok change) :
    ledger.Steers moment siteId change
      ((Operation.failInProgress id started message).draws ledger siteId) := by
  rcases failInProgress_eq_ok hchange with ⟨hnone, rfl⟩ | ⟨row, entry, hrow, hfinish, -, hevents⟩
  · rw [Operation.draws, hnone, Option.isSome_none, Bool.and_false]
    exact steers_of_sites rfl (by simp)
  · rw [Operation.draws, hrow, Option.isSome_some, Bool.and_true,
      ← siteId_of_isMeant h hrow hfinish]
    exact steers_finish hfinish hevents

theorem steers_reconcile (h : ledger.IsWritten) {fault : Fault} {change : Change History}
    (hchange : ledger.reconcile moment fault = .ok change) :
    ledger.Steers moment siteId change (decide (fault.siteId = siteId)) := by
  rcases reconcile_eq_ok hchange with ⟨-, hinsert⟩ | ⟨row, hrow, hfinish, hevents⟩
  · exact steers_insertHistory hinsert
  · rw [← siteId_of_isMeant h hrow hfinish]
    exact steers_finish hfinish hevents

end Ledger

/-- An operation that spares a site with a plan draws its next run or leaves its plan as it is. -/
theorem Operation.steers {ledger : Ledger} (h : ledger.IsWritten) {siteId : Int}
    (hplan : ledger.plan siteId ≠ none) {operation : Operation}
    (hspares : operation.Spares ledger siteId) {moment : Moment} {change : Change Unit}
    (hchange : operation.change moment ledger = .ok change) :
    ledger.Steers moment siteId change (operation.draws ledger siteId) := by
  have hmap {α : Type} {done : Except Refusal (Change α)} {draws : Bool}
      (hdone : done.map Change.bare = .ok change)
      (hsteers : ∀ change, done = .ok change → ledger.Steers moment siteId change draws) :
      ledger.Steers moment siteId change draws := by
    obtain ⟨made, hmade, rfl⟩ := Change.map_bare_eq_ok hdone
    exact (hsteers made hmade).bare
  cases operation with
  | addSite new => exact hmap hchange fun _ => Ledger.steers_addSite hplan
  | updateSite id edit => exact hmap hchange fun _ => Ledger.steers_updateSite hspares
  | setPaused id paused => exact hmap hchange fun _ => Ledger.steers_setPaused h hplan hspares
  | triggerNow id => exact hmap hchange fun _ => Ledger.steers_triggerNow hspares
  | reschedule id => exact hmap hchange fun _ => Ledger.steers_reschedule
  | deleteSite id => exact hmap hchange fun _ => Ledger.steers_deleteSite hspares
  | insertHistory id new => exact hmap hchange fun _ => Ledger.steers_insertHistory
  | finishHistory id how => exact hmap hchange fun _ => Ledger.steers_finishHistory
  | failInProgress id started message =>
    exact hmap hchange fun _ => Ledger.steers_failInProgress h
  | failStale message =>
    cases hchange
    refine Ledger.steers_of_sites rfl fun event hevent => ?_
    obtain ⟨row, -, rfl⟩ := List.mem_map.1 hevent
    exact fun hwithdrawal => hwithdrawal
  | reconcile fault => exact hmap hchange fun _ => Ledger.steers_reconcile h

/-- An operation that spares a site with a plan draws its next run, and the site has got what was
drawn, or it leaves the plan as it is and withdraws nothing. -/
theorem Operation.drawn?_cases {store : Store} (h : store.ledger.IsWritten) {siteId : Int}
    (hplan : store.ledger.plan siteId ≠ none) {operation : Operation}
    (hspares : operation.Spares store.ledger siteId) (moment : Moment) :
    (∃ next, operation.drawn? moment store.ledger siteId = some next ∧
      (operation.applied moment store).ledger.plan siteId = some (millisText next)) ∨
    (operation.drawn? moment store.ledger siteId = none ∧
      ∃ change : Change Unit, operation.applied moment store = store.commit change ∧
        change.ledger.plan siteId = store.ledger.plan siteId ∧
        ∀ event ∈ change.events, event.siteId = siteId → ¬event.IsWithdrawal) := by
  unfold Operation.applied Operation.drawn?
  cases hchange : operation.change moment store.ledger with
  | error refusal =>
    right
    refine ⟨by simp [Except.toOption], ⟨(), store.ledger, []⟩, ?_, rfl, nofun⟩
    rw [Store.perform_of_refused hchange]
    rfl
  | ok change =>
    rw [Store.perform_of_ok hchange]
    have hsteers := operation.steers h hplan hspares hchange
    generalize operation.draws store.ledger siteId = draws at hsteers ⊢
    cases hsteers with
    | spared hsame hevents => exact Or.inr ⟨rfl, change, rfl, hsame, hevents⟩
    | drawn hsite hdrawn =>
      left
      rename_i site
      have hactive := h.isNone_plan hsite
      rw [Option.isNone_eq_false_iff.2 (Option.isSome_iff_ne_none.2 hplan)] at hactive
      refine ⟨site.policy.drawAt moment, ?_, ?_⟩
      · simp [hsite, Except.toOption, Ledger.drawn, ← hactive]
      · change change.ledger.plan siteId = _
        rw [hdrawn, Ledger.drawn, ← hactive]
        rfl

theorem Operation.nano_drawn?_lt {operation : Operation} {moment : Moment}
    (hnano : moment.now.nano < nanosPerSecond) {ledger : Ledger} {siteId : Int} {next : Instant}
    (h : operation.drawn? moment ledger siteId = some next) : next.nano < nanosPerSecond := by
  unfold Operation.drawn? at h
  split at h
  · obtain ⟨site, -, hdrawn⟩ := Option.bind_eq_some_iff.1 h
    exact Ledger.nano_drawn_lt hnano hdrawn
  · cases h

end KeepAlive
