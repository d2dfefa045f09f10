import KeepAlive.Proofs.Ledger.Changes
import KeepAlive.Store

/-!
# Ledgers without credentials

The operations that make a site due, or enter and finish its attempts, make nothing of its
credentials: it comes to the same whether these are taken out before an operation or after it.
-/

namespace KeepAlive

/-- The site without its credentials. -/
def Site.withoutCredentials (site : Site) : Site :=
  { site with credentials := ⟨"", ""⟩ }

/-- The row without its credentials. -/
def SiteRow.withoutCredentials (row : SiteRow) : SiteRow :=
  { row with username := "", password := "" }

/-- The ledger without the credentials of its sites. -/
def Ledger.withoutCredentials (ledger : Ledger) : Ledger :=
  { ledger with sites := ledger.sites.map SiteRow.withoutCredentials }

/-- The store without the credentials of its sites. -/
def Store.withoutCredentials (store : Store) : Store :=
  { store with ledger := store.ledger.withoutCredentials }

@[simp] theorem Site.toJson_withoutCredentials (site : Site) :
    site.withoutCredentials.toJson = site.toJson :=
  site.toJson_credentials _

theorem SiteRow.site?_withoutCredentials (row : SiteRow) :
    row.withoutCredentials.site? = Site.withoutCredentials <$> row.site? := by
  simp only [site?, map_bind, map_pure]
  rfl

/-- Two answers that are the same but for what is taken out are both refusals, or none of them is. -/
theorem refused_or_ok_of_map_eq {ε α β : Type} {strip : α → β} {answer other : Except ε α}
    (h : answer.map strip = other.map strip) :
    (∃ refusal, answer = .error refusal ∧ other = .error refusal) ∨
      ∃ result last, answer = .ok result ∧ other = .ok last ∧ strip result = strip last := by
  cases answer with
  | error refusal =>
    cases other with
    | error reason => exact .inl ⟨refusal, rfl, congrArg Except.error (Except.error.inj h).symm⟩
    | ok last => cases h
  | ok result =>
    cases other with
    | error reason => cases h
    | ok last => exact .inr ⟨result, last, rfl, rfl, Except.ok.inj h⟩

/-- What comes of an operation, without the credentials. -/
def Change.withoutCredentials {α : Type} (strip : α → α) (change : Change α) : Change α :=
  ⟨strip change.result, change.ledger.withoutCredentials, change.events⟩

namespace Ledger

/-- Whether an operation makes nothing of the credentials: `strip` takes them out of its result. -/
def Disregards {α : Type} (strip : α → α) (operation : Ledger → Except Refusal (Change α)) : Prop :=
  ∀ ledger : Ledger, operation ledger.withoutCredentials =
    Change.withoutCredentials strip <$> operation ledger

variable (ledger : Ledger) (moment : Moment) (key : Int)

/-! ### What is read -/

theorem site_withoutCredentials :
    ledger.withoutCredentials.site key = Site.withoutCredentials <$> ledger.site key := by
  unfold site withoutCredentials
  rw [List.find?_map]
  change read _ _ (Option.map _ (ledger.sites.find? (·.id = key))) = _
  cases ledger.sites.find? (·.id = key) with
  | none => rfl
  | some row =>
    simp only [Option.map_some, read, SiteRow.site?_withoutCredentials]
    cases row.site? <;> rfl

theorem site_of_same {ledger other : Ledger}
    (h : ledger.withoutCredentials = other.withoutCredentials) (key : Int) :
    (ledger.site key).map Site.withoutCredentials =
      (other.site key).map Site.withoutCredentials := by
  have hsite := site_withoutCredentials ledger key
  rw [h, site_withoutCredentials] at hsite
  exact hsite.symm

theorem allSites_withoutCredentials :
    ledger.withoutCredentials.allSites =
      List.map Site.withoutCredentials <$> ledger.allSites := by
  have hrows (rows : List SiteRow) :
      (rows.map SiteRow.withoutCredentials).mapM SiteRow.site? =
        List.map Site.withoutCredentials <$> rows.mapM SiteRow.site? := by
    induction rows with
    | nil => rfl
    | cons row rest ih =>
      simp only [List.map_cons, List.mapM_cons, SiteRow.site?_withoutCredentials, ih, bind_map_left,
        map_bind, map_pure]
  unfold allSites withoutCredentials
  rw [hrows]
  cases ledger.sites.mapM SiteRow.site? <;> rfl

theorem allSites_of_same {ledger other : Ledger}
    (h : ledger.withoutCredentials = other.withoutCredentials) :
    ledger.allSites.map (List.map Site.withoutCredentials) =
      other.allSites.map (List.map Site.withoutCredentials) := by
  have hsites := allSites_withoutCredentials ledger
  rw [h, allSites_withoutCredentials] at hsites
  exact hsites.symm

@[simp] theorem history_withoutCredentials :
    ledger.withoutCredentials.history = ledger.history := rfl

@[simp] theorem entry_withoutCredentials :
    ledger.withoutCredentials.entry key = ledger.entry key := rfl

theorem withNext_withoutCredentials (next : Option Time.Instant) :
    ledger.withoutCredentials.withNext key next = (ledger.withNext key next).withoutCredentials := by
  simp only [withNext, withSite, withoutCredentials, List.map_map]
  congr 1
  refine List.map_congr_left fun row _ => ?_
  simp only [Function.comp_apply, apply_ite SiteRow.withoutCredentials]
  rfl

/-! ### What is changed -/

theorem disregards_triggerNow : Disregards Site.withoutCredentials (·.triggerNow moment key) := by
  intro ledger
  simp only [triggerNow, site_withoutCredentials, bind_map_left, map_bind]
  refine congrArg _ (funext fun site => ?_)
  have hpaused : site.withoutCredentials.paused = site.paused := rfl
  rw [hpaused]
  split
  · rfl
  · rw [withNext_withoutCredentials]
    rfl

theorem disregards_reschedule : Disregards Site.withoutCredentials (·.reschedule moment key) := by
  intro ledger
  simp only [reschedule, site_withoutCredentials, bind_map_left, map_bind, map_pure,
    withNext_withoutCredentials]
  rfl

theorem disregards_insertHistory (new : NewHistory) :
    Disregards id (·.insertHistory moment key new) := by
  intro ledger
  simp only [insertHistory, site_withoutCredentials, bind_map_left, map_bind, map_pure]
  refine congrArg _ (funext fun site => congrArg _ (funext fun entry => ?_))
  have hentered (history : List HistoryRow) : { ledger.withoutCredentials with history } =
      { ledger with history }.withoutCredentials := rfl
  rw [hentered, withNext_withoutCredentials]
  rfl

theorem finish_withoutCredentials (how : Finish) :
    ledger.withoutCredentials.finish moment key how =
      Prod.map id withoutCredentials <$> ledger.finish moment key how := by
  have hwritten (change : HistoryRow → HistoryRow) : ledger.withoutCredentials.withHistory key change =
      (ledger.withHistory key change).withoutCredentials := rfl
  simp only [finish, entry_withoutCredentials, map_bind]
  refine congrArg _ (funext fun current => ?_)
  split
  · rfl
  · simp only [hwritten, site_withoutCredentials, bind_map_left, map_bind, map_pure]
    refine congrArg _ (funext fun site => ?_)
    have hdrawn : drawn site.withoutCredentials moment = drawn site moment := rfl
    have hid : site.withoutCredentials.id = site.id := rfl
    rw [hdrawn, hid, withNext_withoutCredentials]
    rfl

theorem disregards_finishHistory (how : Finish) :
    Disregards id (·.finishHistory moment key how) := by
  intro ledger
  simp only [finishHistory, finish_withoutCredentials, bind_map_left, map_bind, map_pure]
  rfl

theorem disregards_failInProgress (started : Time.Instant) (message : Option String) :
    Disregards id (·.failInProgress moment key started message) := by
  intro ledger
  simp only [failInProgress, history_withoutCredentials]
  split
  · rfl
  · simp only [finish_withoutCredentials, bind_map_left, map_bind, map_pure]
    rfl

theorem disregards_reconcile (fault : Fault) : Disregards id (·.reconcile moment fault) := by
  intro ledger
  have hfail := disregards_failInProgress moment fault.siteId fault.started (some fault.message) ledger
  dsimp only at hfail
  simp only [reconcile]
  rw [hfail]
  simp only [bind_map_left, map_bind]
  refine congrArg _ (funext fun change => ?_)
  simp only [Change.withoutCredentials]
  cases change.result with
  | none => exact disregards_insertHistory moment fault.siteId _ ledger
  | some entry => rfl

end Ledger

namespace Store

variable {store other : Store}

theorem perform_withoutCredentials {α : Type} {strip : α → α}
    {operation : Ledger → Except Refusal (Change α)} (h : Ledger.Disregards strip operation)
    (store : Store) :
    store.withoutCredentials.perform operation =
      ((store.perform operation).1.map strip, (store.perform operation).2.withoutCredentials) := by
  have hoperation : operation store.withoutCredentials.ledger =
      Change.withoutCredentials strip <$> operation store.ledger := h store.ledger
  unfold perform
  rw [hoperation]
  cases operation store.ledger <;> rfl

/-- An operation that makes nothing of the credentials is refused by both of two stores that are the
same but for credentials, or by none, and leaves them so. -/
theorem perform_of_same (h : store.withoutCredentials = other.withoutCredentials) {α : Type}
    {strip : α → α} {operation : Ledger → Except Refusal (Change α)}
    (hoperation : Ledger.Disregards strip operation) :
    (∃ refusal, store.perform operation = (.error refusal, store) ∧
      other.perform operation = (.error refusal, other)) ∨
    ∃ result answer after last, store.perform operation = (.ok result, after) ∧
      other.perform operation = (.ok answer, last) ∧ strip result = strip answer ∧
      after.withoutCredentials = last.withoutCredentials := by
  have hstore := perform_withoutCredentials hoperation store
  rw [h, perform_withoutCredentials hoperation other, Prod.mk.injEq] at hstore
  obtain ⟨hresult, hafter⟩ := hstore
  unfold perform at hresult hafter ⊢
  generalize operation store.ledger = change at hresult hafter ⊢
  generalize operation other.ledger = made at hresult hafter ⊢
  cases change with
  | error refusal =>
    cases made with
    | error reason =>
      cases hresult
      exact .inl ⟨_, rfl, rfl⟩
    | ok made => cases hresult
  | ok change =>
    cases made with
    | error reason => cases hresult
    | ok made => exact .inr ⟨_, _, _, _, rfl, rfl, (Except.ok.inj hresult).symm, hafter.symm⟩

end Store

end KeepAlive
