import KeepAlive.Proofs.Ledger.Leaving

/-!
# Ledgers in order

A ledger is in order when every site has a sound policy, a script that can be read and a next run
exactly when it is not paused, when every entry of the history belongs to a site, and when what an
entry says of its end fits its stage.  Each operation, refused or not, keeps a ledger in order; so
the script that an attempt is given can always be run.
-/

namespace KeepAlive

open Time

namespace Login

open Browser

/-- The run of a script that has been read. -/
def runCommands (timing : Timing) (request : Request) (commands : List Script.Command) :
    Session (Except Outcome Unit) := do
  let locators ← if Script.needsLocators commands then Form.find else pure {}
  match ← Script.run (settingFor timing request locators) commands with
  | .ok () => return .ok ()
  | .error stopped => return .error ⟨stopped.status, stopped.detail⟩

theorem runScript_of_parse {source : String} {commands : List Script.Command}
    (h : Script.parse source = .ok commands) (timing : Timing) (request : Request) :
    runScript timing request source = runCommands timing request commands := by
  unfold runScript
  rw [h]
  rfl

end Login

namespace SiteRow

/-- The policy is sound, the script can be read, and there is a next run unless the site is paused. -/
structure IsInOrder (row : SiteRow) : Prop where
  policy : ∃ policy : Policy, row.policy? = .ok policy
  script : IsReadableScript row.script
  paused : row.paused = .ofBool row.next.isNone

/-- A row that takes over another pause and next run stays in order if the two fit each other. -/
theorem IsInOrder.withNext {row : SiteRow} (h : row.IsInOrder) {next : Option Instant} {paused : Number}
    (hpaused : paused = .ofBool next.isNone) :
    IsInOrder { row with paused, next := next.map millisText } := by
  constructor
  · exact h.policy
  · exact h.script
  · rw [hpaused, Option.isNone_map]

theorem IsInOrder.withEdit {row : SiteRow} (h : row.IsInOrder) {site : Site}
    (hscript : IsReadableScript site.script) : (row.withEdit site).IsInOrder := by
  constructor
  · exact ⟨site.policy, policy?_withFields _ site.policy⟩
  · exact hscript
  · exact h.paused

theorem isInOrder_ofNew {new : NewSite} (hscript : IsReadableScript new.script) (id : Int)
    (now : Instant) : (ofNew id now new).IsInOrder := by
  constructor
  · exact ⟨new.policy, policy?_ofNew id now new⟩
  · exact hscript
  · simp only [ofNew]
    cases new.paused <;> rfl

end SiteRow

namespace HistoryRow

/-- What a row says of the end of its attempt fits its stage. -/
def IsInOrder (row : HistoryRow) : Prop :=
  (row.status = ActionStatus.inProgress.code ∧ row.ended = none ∧ row.failure = none) ∨
  (row.status = ActionStatus.success.code ∧ row.ended ≠ none ∧ row.failure = none) ∨
  (row.status = ActionStatus.failed.code ∧ row.ended ≠ none ∧
    ∃ failure : LoginStatus, failure ≠ .success ∧ row.failure = some failure.code)

theorem isInOrder_finished (row : HistoryRow) (now : Instant) (status : LoginStatus)
    (message picture : Option String) :
    (row.finished now (.ofOutcome status message picture)).IsInOrder := by
  have hended : (row.finished now (.ofOutcome status message picture)).ended ≠ none :=
    Option.some_ne_none _
  unfold IsInOrder
  by_cases hsuccess : status = .success
  · right; left
    subst hsuccess
    exact ⟨rfl, hended, rfl⟩
  · right; right
    have hfailed : Finish.ofOutcome status message picture =
        ⟨.failed, some status, message, picture⟩ := by
      simp [Finish.ofOutcome, LoginStatus.isSuccess, hsuccess]
    rw [hfailed] at hended ⊢
    exact ⟨rfl, hended, status, hsuccess, rfl⟩

end HistoryRow

/-- An entry as the attempts make it: one that begins, a login by hand, or one that broke off. -/
def NewHistory.IsUsual (new : NewHistory) : Prop :=
  (∃ started picture, new = .inProgress started picture) ∨ (∃ now, new = .manual now) ∨
    ∃ started ended message, new = .crashed started ended message

theorem NewHistory.IsUsual.isInOrder {new : NewHistory} (h : new.IsUsual) (id siteId : Int) :
    (HistoryRow.ofNew id siteId new).IsInOrder := by
  obtain ⟨started, picture, rfl⟩ | ⟨now, rfl⟩ | ⟨started, ended, message, rfl⟩ := h
  · exact Or.inl ⟨rfl, rfl, rfl⟩
  · exact Or.inr (Or.inl ⟨rfl, Option.some_ne_none _, rfl⟩)
  · exact Or.inr (Or.inr ⟨rfl, Option.some_ne_none _, .unknownExecutionError, by decide, rfl⟩)

namespace Operation

/-- Entries are added as the attempts make them, and finished with the outcome of a login. -/
def IsUsual : Operation → Prop
  | .insertHistory _ new => new.IsUsual
  | .finishHistory _ how => how.IsOutcome
  | _ => True

end Operation

namespace Ledger

/-- Every row is in order, ids tell the sites apart, and every entry belongs to a site. -/
structure IsInOrder (ledger : Ledger) : Prop where
  sites_nodup : (ledger.sites.map (·.id)).Nodup
  sites : ∀ row ∈ ledger.sites, row.IsInOrder
  history : ∀ row ∈ ledger.history, row.IsInOrder
  housed : ∀ row ∈ ledger.history, ∃ site ∈ ledger.sites, site.id = row.siteId

theorem IsInOrder.empty : IsInOrder {} := by
  constructor
  · exact List.nodup_nil
  all_goals
    intro row hmem
    exact absurd hmem List.not_mem_nil

section

variable {ledger : Ledger} {moment : Moment}

/-- Entries keep their sites if no id of a site is given up. -/
theorem exists_house {sites later : List SiteRow} (hids : sites.map (·.id) ⊆ later.map (·.id))
    {row : HistoryRow} (h : ∃ site ∈ sites, site.id = row.siteId) :
    ∃ site ∈ later, site.id = row.siteId :=
  List.mem_map.1 (hids (List.mem_map.2 h))

theorem ids_subset_placed (row : SiteRow) (sites : List SiteRow) :
    sites.map (·.id) ⊆ (placed (·.id) row sites).map (·.id) := by
  intro id hmem
  obtain ⟨site, hsite, rfl⟩ := List.mem_map.1 hmem
  by_cases hid : site.id = row.id
  · exact List.mem_map.2 ⟨row, mem_placed.2 (Or.inl rfl), hid.symm⟩
  · exact List.mem_map_of_mem (mem_placed.2 (Or.inr ⟨hsite, hid⟩))

/-- The entries that are left after a site is deleted have their sites. -/
theorem exists_house_of_deleted {id : Int} {row : HistoryRow}
    (hmem : row ∈ ledger.history.filter (·.siteId ≠ id))
    (h : ∃ site ∈ ledger.sites, site.id = row.siteId) :
    ∃ site ∈ ledger.sites.filter (·.id ≠ id), site.id = row.siteId := by
  obtain ⟨site, hsite, hhouse⟩ := h
  refine ⟨site, List.mem_filter.2 ⟨hsite, ?_⟩, hhouse⟩
  rw [hhouse]
  exact (List.mem_filter.1 hmem).2

theorem exists_row_of_site {id : Int} {site : Site} (hsite : ledger.site id = .ok site) :
    ∃ row ∈ ledger.sites, row.id = id := by
  obtain ⟨row, hrow, -⟩ := site_eq_ok_iff.1 hsite
  exact ⟨row, List.mem_of_find?_eq_some hrow, by simpa using List.find?_some hrow⟩

/-- What a site says of its pause is what its row says. -/
theorem IsInOrder.paused_of_site (h : ledger.IsInOrder) {id : Int} {site : Site}
    (hsite : ledger.site id = .ok site) {row : SiteRow} (hmem : row ∈ ledger.sites)
    (hid : row.id = id) : row.paused = .ofBool site.paused := by
  obtain ⟨found, hfound, hread⟩ := site_eq_ok_iff.1 hsite
  have hsame := find?_of_nodup h.sites_nodup hmem
  rw [hid, hfound] at hsame
  cases hsame
  obtain ⟨-, -, -, hpaused, -⟩ := SiteRow.site?_eq_ok hread
  have hrow := (h.sites row hmem).paused
  rw [hrow, Number.bool?_ofBool] at hpaused
  rw [hrow, Except.ok.inj hpaused]

theorem IsInOrder.script_of_site (h : ledger.IsInOrder) {id : Int} {site : Site}
    (hsite : ledger.site id = .ok site) : IsReadableScript site.script := by
  obtain ⟨row, hrow, hread⟩ := site_eq_ok_iff.1 hsite
  obtain ⟨-, -, -, -, hscript, -⟩ := SiteRow.site?_columns hread
  rw [hscript]
  exact (h.sites row (List.mem_of_find?_eq_some hrow)).script

theorem IsInOrder.withSite (h : ledger.IsInOrder) {id : Int} {change : SiteRow → SiteRow}
    (hid : ∀ row, (change row).id = row.id)
    (hrow : ∀ row ∈ ledger.sites, row.id = id → (change row).IsInOrder) :
    (ledger.withSite id change).IsInOrder := by
  have hids : (ledger.withSite id change).sites.map (·.id) = ledger.sites.map (·.id) :=
    map_id_changed hid ledger.sites
  constructor
  · rw [hids]
    exact h.sites_nodup
  · intro row hmem
    obtain ⟨before, hbefore, rfl⟩ := List.mem_map.1 hmem
    split
    · exact hrow before hbefore ‹_›
    · exact h.sites before hbefore
  · exact h.history
  · intro row hmem
    exact exists_house (hids ▸ List.Subset.refl _) (h.housed row hmem)

/-- A next run that fits the pause of its site is stored. -/
theorem IsInOrder.withNext (h : ledger.IsInOrder) {id : Int} {next : Option Instant}
    (hpaused : ∀ row ∈ ledger.sites, row.id = id → row.paused = .ofBool next.isNone) :
    (ledger.withNext id next).IsInOrder := by
  apply h.withSite
  · intro row
    rfl
  · intro row hmem hid
    exact (h.sites row hmem).withNext (hpaused row hmem hid)

theorem IsInOrder.drawn (h : ledger.IsInOrder) {id : Int} {site : Site}
    (hsite : ledger.site id = .ok site) :
    (ledger.withNext id (Ledger.drawn site moment)).IsInOrder := by
  apply h.withNext
  intro row hmem hid
  rw [isNone_drawn]
  exact h.paused_of_site hsite hmem hid

theorem IsInOrder.withEntries (h : ledger.IsInOrder) {history : List HistoryRow}
    (hrows : ∀ row ∈ history, row.IsInOrder ∧ ∃ site ∈ ledger.sites, site.id = row.siteId) :
    IsInOrder { ledger with history } := by
  constructor
  · exact h.sites_nodup
  · exact h.sites
  · intro row hmem
    exact (hrows row hmem).1
  · intro row hmem
    exact (hrows row hmem).2

theorem IsInOrder.withEntry (h : ledger.IsInOrder) {row : HistoryRow} (hrow : row.IsInOrder)
    (hhouse : ∃ site ∈ ledger.sites, site.id = row.siteId) :
    IsInOrder { ledger with history := placed (·.id) row ledger.history } := by
  apply h.withEntries
  intro other hmem
  rcases mem_placed.1 hmem with rfl | ⟨hmem, -⟩
  · exact ⟨hrow, hhouse⟩
  · exact ⟨h.history other hmem, h.housed other hmem⟩

/-- Rows that are finished stay with their sites. -/
theorem IsInOrder.withFinished (h : ledger.IsInOrder) {isMeant : HistoryRow → Prop}
    [DecidablePred isMeant] {how : Finish} (hhow : how.IsOutcome) (now : Instant) :
    IsInOrder { ledger with
      history := ledger.history.map fun row => if isMeant row then row.finished now how else row } := by
  obtain ⟨status, message, picture, rfl⟩ := hhow
  apply h.withEntries
  intro row hmem
  obtain ⟨before, hbefore, rfl⟩ := List.mem_map.1 hmem
  split
  · exact ⟨before.isInOrder_finished now status message picture, h.housed before hbefore⟩
  · exact ⟨h.history before hbefore, h.housed before hbefore⟩

theorem IsInOrder.withNewSite (h : ledger.IsInOrder) {row : SiteRow} (hrow : row.IsInOrder) :
    IsInOrder { ledger with sites := placed (·.id) row ledger.sites } := by
  constructor
  · exact nodup_placed h.sites_nodup row
  · intro other hmem
    rcases mem_placed.1 hmem with rfl | ⟨hmem, -⟩
    · exact hrow
    · exact h.sites other hmem
  · exact h.history
  · intro entry hmem
    exact exists_house (ids_subset_placed row ledger.sites) (h.housed entry hmem)

/-- A site goes with all its entries, so that none is left without a site. -/
theorem IsInOrder.withoutSite (h : ledger.IsInOrder) (id : Int) :
    IsInOrder
      { sites := ledger.sites.filter (·.id ≠ id)
        history := ledger.history.filter (·.siteId ≠ id) } := by
  constructor
  · exact h.sites_nodup.sublist (List.filter_sublist.map _)
  · intro row hmem
    exact h.sites row (List.mem_filter.1 hmem).1
  · intro row hmem
    exact h.history row (List.mem_filter.1 hmem).1
  · intro row hmem
    exact exists_house_of_deleted hmem (h.housed row (List.mem_filter.1 hmem).1)

/-- An edited site keeps its pause, so a next run is due to it exactly when it had one. -/
theorem IsInOrder.withEdit (h : ledger.IsInOrder) {id : Int} {site : Site} {edit : SiteEdit}
    (hsite : ledger.site id = .ok site) (hscript : IsReadableScript (edit.script.bind (·))) :
    (ledger.withSite id (·.withEdit (site.edited edit))).IsInOrder := by
  have hedited : IsReadableScript (site.edited edit).script := by
    simp only [Site.edited]
    cases hnew : edit.script with
    | none => exact h.script_of_site hsite
    | some script =>
      rw [hnew] at hscript
      exact hscript
  apply h.withSite
  · intro row
    rfl
  · intro row hmem _
    exact (h.sites row hmem).withEdit hedited

end

end Ledger

/-- What an operation leaves of a ledger in order is in order. -/
theorem Operation.Leaves.isInOrder {ledger after : Ledger} {moment : Moment} {operation : Operation}
    {events : List Event} (hleaves : operation.Leaves ledger moment after events)
    (husual : operation.IsUsual) (h : ledger.IsInOrder) : after.IsInOrder := by
  induction hleaves with
  | added _ hscript _ => exact h.withNewSite (SiteRow.isInOrder_ofNew hscript _ _)
  | edited hsite hscript _ => exact h.withEdit hsite hscript
  | replanned hsite hscript _ hactive =>
    apply (h.withEdit hsite hscript).withNext
    intro row hmem hid
    obtain ⟨before, hbefore, rfl⟩ := List.mem_map.1 hmem
    rw [Ledger.isNone_drawn]
    split at hid
    · rename_i hkey
      rw [if_pos hkey]
      exact (h.paused_of_site hsite hbefore hkey :)
    · contradiction
  | unmoved _ => exact h
  | switched hsite _ =>
    apply h.withSite
    · intro row
      rfl
    · intro row hmem _
      exact (h.sites row hmem).withNext rfl
  | triggered hsite hactive =>
    apply h.withNext
    intro row hmem hid
    rw [h.paused_of_site hsite hmem hid, hactive]
    rfl
  | rescheduled hsite => exact h.drawn hsite
  | deleted _ => exact h.withoutSite _
  | entered hsite _ =>
    exact (h.withEntry (husual.isInOrder _ _) (Ledger.exists_row_of_site hsite)).drawn hsite
  | finished _ _ hsite => exact (h.withFinished husual _).drawn hsite
  | missed _ => exact h
  | failed _ _ ih => exact ih (Ledger.isOutcome_broken _)
  | closed => exact h.withFinished (Ledger.isOutcome_broken _) _
  | reconciled _ _ ih => exact ih trivial
  | recorded _ _ ih => exact ih (Or.inr (Or.inr ⟨_, _, _, rfl⟩))

theorem Store.isInOrder_run {store : Store} (h : store.ledger.IsInOrder) {steps : Steps}
    (husual : ∀ step ∈ steps, step.2.IsUsual) : (store.run steps).ledger.IsInOrder := by
  apply Store.run_induction (fun store => store.ledger.IsInOrder) _ h
  intro store h step hmem
  obtain hrefused | ⟨change, hleaves, hcommit⟩ := step.2.applied_leaves step.1 store
  · rw [hrefused]
    exact h
  · rw [hcommit]
    exact hleaves.isInOrder (husual step hmem) h

namespace Store

/-- Whatever a new store is asked for, each of its sites has a sound policy, a script that attempts
can run and a next run exactly when it is not paused, and each entry of its history belongs to a site
and says of its end what fits its stage. -/
theorem rows_in_order_after_run (feed : Feed) (steps : Steps)
    (husual : ∀ step ∈ steps, step.2.IsUsual) :
    let ledger := (run { feed } steps).ledger
    (∀ row ∈ ledger.sites,
      (∃ policy : Policy, row.policy? = .ok policy) ∧
      (∀ source, row.script = some source → ∃ commands, Script.parse source = .ok commands ∧
        ∀ timing request, Login.runScript timing request source =
          Login.runCommands timing request commands) ∧
      row.paused = .ofBool row.next.isNone) ∧
    (∀ id site, ledger.site id = .ok site → (site.next = none ↔ site.paused = true)) ∧
    ∀ row ∈ ledger.history, row.IsInOrder ∧ ∃ site ∈ ledger.sites, site.id = row.siteId := by
  intro ledger
  have h : ledger.IsInOrder := isInOrder_run .empty husual
  refine ⟨?_, ?_, ?_⟩
  · intro row hmem
    refine ⟨(h.sites row hmem).policy, ?_, (h.sites row hmem).paused⟩
    intro source hsource
    obtain ⟨commands, hparse⟩ := (h.sites row hmem).script source hsource
    exact ⟨commands, hparse, Login.runScript_of_parse hparse⟩
  · intro id site hsite
    obtain ⟨row, hrow, hread⟩ := Ledger.site_eq_ok_iff.1 hsite
    obtain ⟨-, -, hnext, hpaused, -⟩ := SiteRow.site?_eq_ok hread
    rw [(h.sites row (List.mem_of_find?_eq_some hrow)).paused, Number.bool?_ofBool,
      isNone_of_storedInstantOrNone? hnext] at hpaused
    rw [← Except.ok.inj hpaused, Option.isNone_iff_eq_none]
  · intro row hmem
    exact ⟨h.history row hmem, h.housed row hmem⟩

/-- A site with a script of its own, an attempt of it that fails, a finish that is refused, and a
pause. -/
theorem rows_in_order_after_failed_attempt :
    let moment (second : Int) : Moment := ⟨⟨second, 0⟩, .utc, []⟩
    let failure : Finish := .ofOutcome .textFieldNotFound none none
    let steps : Steps := [
      (moment 1, .addSite { NewSite.sample with script := some "fillUsername()" }),
      (moment 2, .insertHistory 1 (.inProgress ⟨2, 0⟩ none)), (moment 3, .finishHistory 1 failure),
      (moment 4, .finishHistory 1 failure), (moment 5, .setPaused 1 true)]
    let ledger := (run { feed := { capacity := 1 } } steps).ledger
    (∀ step ∈ steps, step.2.IsUsual) ∧
      ledger.sites.map (·.script) = [some "fillUsername()"] ∧
      ledger.history.map (·.status) = [ActionStatus.failed.code] ∧
      (∀ row ∈ ledger.sites, row.paused = .ofBool row.next.isNone) ∧
      ∀ row ∈ ledger.history, row.IsInOrder ∧ ∃ site ∈ ledger.sites, site.id = row.siteId := by
  intro moment failure steps ledger
  have husual : ∀ step ∈ steps, step.2.IsUsual := by
    simp only [steps, List.forall_mem_cons, List.not_mem_nil, false_implies, implies_true, and_true]
    exact ⟨trivial, Or.inl ⟨_, _, rfl⟩, ⟨_, _, _, rfl⟩, ⟨_, _, _, rfl⟩, trivial⟩
  obtain ⟨hsites, -, hhistory⟩ := rows_in_order_after_run { capacity := 1 } steps husual
  refine ⟨husual, by decide +kernel, by decide +kernel, ?_, hhistory⟩
  intro row hmem
  exact (hsites row hmem).2.2

end Store

end KeepAlive
