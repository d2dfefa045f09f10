import KeepAlive.Proofs.Ledger.Leaving

/-!
# One site at a time

Apart from the end of all open entries at once, an operation is for one site.  It is refused, and then
nothing has happened, or it touches no other site and no entry of another site, and announces once
what it has changed.  Only a ledger that somebody else has written has a gap: a new draw takes the
next run of a paused site away and announces nothing.
-/

namespace KeepAlive

open Time

namespace Ledger

/-- The row of a site. -/
def siteRow? (ledger : Ledger) (siteId : Int) : Option SiteRow :=
  ledger.sites.find? (·.id = siteId)

/-- Whether a site is there, and then its pause and its next run. -/
def standing? (ledger : Ledger) (siteId : Int) : Option (Number × Option String) :=
  (ledger.siteRow? siteId).map fun row => (row.paused, row.next)

/-- Two ledgers differ in one site and its history at most. -/
structure AgreesBeside (ledger other : Ledger) (siteId : Int) : Prop where
  sites : ∀ row : SiteRow, row.id ≠ siteId → (row ∈ other.sites ↔ row ∈ ledger.sites)
  history : ∀ row : HistoryRow, row.siteId ≠ siteId →
    (row ∈ other.history ↔ row ∈ ledger.history)

section

variable {ledger other : Ledger} {siteId : Int}

theorem AgreesBeside.refl (ledger : Ledger) (siteId : Int) : ledger.AgreesBeside ledger siteId :=
  ⟨fun _ _ => Iff.rfl, fun _ _ => Iff.rfl⟩

theorem AgreesBeside.trans {last : Ledger} (h : ledger.AgreesBeside other siteId)
    (hlast : other.AgreesBeside last siteId) : ledger.AgreesBeside last siteId := by
  constructor
  · intro row hrow
    exact (hlast.sites row hrow).trans (h.sites row hrow)
  · intro row hrow
    exact (hlast.history row hrow).trans (h.history row hrow)

/-- A row is left alone when those that are changed are others and become others. -/
theorem mem_changed_iff {ρ : Type} {isMeant : ρ → Prop} [DecidablePred isMeant] {change : ρ → ρ}
    {rows : List ρ} {row : ρ} (h : ∀ other ∈ rows, isMeant other → other ≠ row ∧ change other ≠ row) :
    (row ∈ rows.map fun other => if isMeant other then change other else other) ↔ row ∈ rows := by
  constructor
  · intro hmem
    obtain ⟨other, hother, heq⟩ := List.mem_map.1 hmem
    split at heq
    · rename_i hmeant
      exact absurd heq (h other hother hmeant).2
    · rwa [← heq]
  · intro hmem
    refine List.mem_map.2 ⟨row, hmem, if_neg ?_⟩
    intro hmeant
    exact (h row hmem hmeant).1 rfl

theorem agreesBeside_withSite (ledger : Ledger) (siteId : Int) {change : SiteRow → SiteRow}
    (hid : ∀ row, (change row).id = row.id) :
    ledger.AgreesBeside (ledger.withSite siteId change) siteId := by
  constructor
  · intro row hrow
    apply mem_changed_iff
    intro other _ hother
    constructor
    · rintro rfl
      exact hrow hother
    · rintro rfl
      exact hrow ((hid other).trans hother)
  · intro row _
    exact Iff.rfl

theorem agreesBeside_withNext (ledger : Ledger) (siteId : Int) (next : Option Instant) :
    ledger.AgreesBeside (ledger.withNext siteId next) siteId :=
  agreesBeside_withSite ledger siteId fun _ => rfl

/-- An entry is finished, and ids tell the entries apart. -/
theorem agreesBeside_withHistory (hnodup : (ledger.history.map (·.id)).Nodup) {id : Int}
    {row : HistoryRow} (hrow : ledger.row? id = some row) (now : Instant) (how : Finish) :
    ledger.AgreesBeside (ledger.withHistory id (·.finished now how)) row.siteId := by
  constructor
  · intro site _
    exact Iff.rfl
  · intro entry hentry
    apply mem_changed_iff
    intro other hmem hid
    have hsame : other = row := by
      have hother := row?_of_mem hnodup hmem
      rw [hid, hrow] at hother
      exact (Option.some.inj hother).symm
    constructor
    · rintro rfl
      exact hentry (congrArg (·.siteId) hsame)
    · rintro rfl
      exact hentry (congrArg (·.siteId) hsame)

/-- A row with a new id comes in beside all others. -/
theorem mem_placed_iff {ρ : Type} {id : ρ → Int} {row other : ρ} {rows : List ρ}
    (hnew : id row ∉ rows.map id) (hne : other ≠ row) : other ∈ placed id row rows ↔ other ∈ rows := by
  rw [mem_placed]
  constructor
  · rintro (heq | ⟨hmem, -⟩)
    · exact absurd heq hne
    · exact hmem
  · intro hmem
    refine Or.inr ⟨hmem, ?_⟩
    intro hid
    exact hnew (hid ▸ List.mem_map_of_mem hmem)

theorem agreesBeside_of_newSite {row : SiteRow} (hnew : row.id ∉ ledger.sites.map (·.id)) :
    ledger.AgreesBeside { ledger with sites := placed (·.id) row ledger.sites } row.id := by
  constructor
  · intro other hother
    apply mem_placed_iff hnew
    rintro rfl
    exact hother rfl
  · intro entry _
    exact Iff.rfl

theorem agreesBeside_of_newEntry {row : HistoryRow} (hnew : row.id ∉ ledger.history.map (·.id)) :
    ledger.AgreesBeside { ledger with history := placed (·.id) row ledger.history } row.siteId := by
  constructor
  · intro site _
    exact Iff.rfl
  · intro other hother
    apply mem_placed_iff hnew
    rintro rfl
    exact hother rfl

theorem agreesBeside_of_deleted (ledger : Ledger) (siteId : Int) :
    ledger.AgreesBeside
      { sites := ledger.sites.filter (·.id ≠ siteId)
        history := ledger.history.filter (·.siteId ≠ siteId) } siteId := by
  constructor
  · intro row hrow
    rw [List.mem_filter, decide_eq_true_eq]
    exact and_iff_left hrow
  · intro row hrow
    rw [List.mem_filter, decide_eq_true_eq]
    exact and_iff_left hrow

/-- The row of a site after a change of it. -/
theorem siteRow?_withSite (ledger : Ledger) (siteId : Int) {change : SiteRow → SiteRow}
    (hid : ∀ row, (change row).id = row.id) :
    (ledger.withSite siteId change).siteRow? siteId = (ledger.siteRow? siteId).map change := by
  rw [siteRow?, withSite, find?_changed hid, siteRow?]
  cases hrow : ledger.sites.find? (·.id = siteId) with
  | none => rfl
  | some row =>
    have hkey : row.id = siteId := by simpa using List.find?_some hrow
    rw [Option.map_some, Option.map_some, if_pos hkey]

theorem siteRow?_withNext (ledger : Ledger) (siteId : Int) (next : Option Instant) :
    (ledger.withNext siteId next).siteRow? siteId =
      (ledger.siteRow? siteId).map fun row => { row with next := next.map millisText } := by
  apply siteRow?_withSite
  intro row
  rfl

/-- A change of a row that keeps its pause and its next run. -/
theorem standing?_withSite (ledger : Ledger) (siteId : Int) {change : SiteRow → SiteRow}
    (hid : ∀ row, (change row).id = row.id)
    (hsame : ∀ row, (change row).paused = row.paused ∧ (change row).next = row.next) (other : Int) :
    (ledger.withSite siteId change).standing? other = ledger.standing? other := by
  simp only [standing?, siteRow?, withSite, find?_changed hid, Option.map_map]
  congr 1
  funext row
  simp only [Function.comp_apply]
  split
  · rw [(hsame row).1, (hsame row).2]
  · rfl

/-- Taking the next run away from a site that has none changes nothing. -/
theorem standing?_withNext_none {site : Site} (hsite : ledger.site siteId = .ok site)
    (hnone : site.next = none) :
    (ledger.withNext siteId none).standing? siteId = ledger.standing? siteId := by
  obtain ⟨row, hrow, hread⟩ := site_eq_ok_iff.1 hsite
  obtain ⟨-, -, hnext, -⟩ := SiteRow.site?_eq_ok hread
  have hrowNone : row.next = none := by
    rw [← Option.isNone_iff_eq_none, isNone_of_storedInstantOrNone? hnext, hnone]
    rfl
  have hrow : ledger.siteRow? siteId = some row := hrow
  rw [standing?, siteRow?_withNext, standing?, hrow]
  simp only [Option.map_some, Option.map_none, hrowNone]

end

end Ledger

namespace Operation

/-- The site that an operation is for, unless it is for all of them. -/
def subject? (ledger : Ledger) : Operation → Option Int
  | .addSite _ => some (Ledger.nextId (ledger.sites.map (·.id)))
  | .updateSite id _ | .setPaused id _ | .triggerNow id | .reschedule id | .deleteSite id => some id
  | .insertHistory siteId _ | .failInProgress siteId _ _ => some siteId
  | .finishHistory id _ => (ledger.row? id).map (·.siteId)
  | .failStale _ => none
  | .reconcile fault => some fault.siteId

/-- What is announced about the site of an operation. -/
inductive Announces (operation : Operation) (ledger after : Ledger) (siteId : Int) :
    List Event → Prop
  | once {event : Event} (h : event.siteId = siteId) : Announces operation ledger after siteId [event]
  | unmoved (hhistory : after.history = ledger.history)
      (hstanding : after.standing? siteId = ledger.standing? siteId) :
      Announces operation ledger after siteId []
  | withdrawn {site : Site} {next : Instant} (h : operation = .reschedule siteId)
      (hhistory : after.history = ledger.history) (hsite : ledger.site siteId = .ok site)
      (hpaused : site.paused = true) (hnext : site.next = some next) :
      Announces operation ledger after siteId []

section

variable {ledger after : Ledger} {moment : Moment} {operation : Operation} {events : List Event}
variable {siteId : Int}

theorem subject?_finishHistory (hnodup : (ledger.history.map (·.id)).Nodup) {started : Instant}
    {row : HistoryRow} (hrow : ledger.history.find? (Ledger.isMeant siteId started) = some row)
    (how : Finish) : (Operation.finishHistory row.id how).subject? ledger = some siteId := by
  have hmeant : row.siteId = siteId := by
    have hmeant := List.find?_some hrow
    simp only [Ledger.isMeant, Bool.and_eq_true, decide_eq_true_eq] at hmeant
    exact hmeant.1.1
  rw [subject?, Ledger.row?_of_mem hnodup (List.mem_of_find?_eq_some hrow), Option.map_some, hmeant]

theorem Leaves.agreesBeside (h : operation.Leaves ledger moment after events)
    (hnodup : (ledger.history.map (·.id)).Nodup) (hsubject : operation.subject? ledger = some siteId) :
    ledger.AgreesBeside after siteId := by
  induction h with
  | added hid _ _ =>
    cases hsubject
    rw [hid]
    exact Ledger.agreesBeside_of_newSite (Ledger.nextId_not_mem _)
  | edited _ _ _ =>
    cases hsubject
    exact ledger.agreesBeside_withSite _ fun _ => rfl
  | replanned _ _ _ _ =>
    cases hsubject
    refine Ledger.AgreesBeside.trans ?_ (Ledger.agreesBeside_withNext _ _ _)
    exact ledger.agreesBeside_withSite _ fun _ => rfl
  | unmoved _ => exact .refl ledger siteId
  | switched _ _ =>
    cases hsubject
    exact ledger.agreesBeside_withSite _ fun _ => rfl
  | triggered _ _ =>
    cases hsubject
    exact ledger.agreesBeside_withNext _ _
  | rescheduled _ =>
    cases hsubject
    exact ledger.agreesBeside_withNext _ _
  | deleted _ =>
    cases hsubject
    exact ledger.agreesBeside_of_deleted _
  | @entered _ id new _ _ hid =>
    cases hsubject
    have hnew : (HistoryRow.ofNew id siteId new).id ∉ ledger.history.map (·.id) := by
      rw [HistoryRow.ofNew, hid]
      exact Ledger.nextId_not_mem _
    exact (Ledger.agreesBeside_of_newEntry hnew).trans (Ledger.agreesBeside_withNext _ _ _)
  | @finished id how row _ hrow _ _ =>
    have hrow : ledger.row? id = some row := hrow
    rw [subject?, hrow] at hsubject
    cases hsubject
    exact (Ledger.agreesBeside_withHistory hnodup hrow _ _).trans
      (Ledger.agreesBeside_withNext _ _ _)
  | missed _ => exact .refl ledger siteId
  | failed hrow _ ih =>
    cases hsubject
    exact ih (subject?_finishHistory hnodup hrow _)
  | closed => cases hsubject
  | reconciled _ _ ih => exact ih hsubject
  | recorded _ _ ih => exact ih hsubject

theorem Leaves.exists_subject? (h : operation.Leaves ledger moment after events)
    (hone : ∀ message, operation ≠ .failStale message) :
    ∃ siteId, operation.subject? ledger = some siteId := by
  cases h with
  | @finished id how row _ hrow _ _ =>
    have hrow : ledger.row? id = some row := hrow
    exact ⟨row.siteId, by rw [subject?, hrow, Option.map_some]⟩
  | closed => exact absurd rfl (hone _)
  | _ => exact ⟨_, rfl⟩

/-- An operation that another one carries out; only a new draw can be silent about what it takes
away. -/
theorem Announces.of_part {part : Operation} (h : part.Announces ledger after siteId events)
    (hpart : part ≠ .reschedule siteId) : operation.Announces ledger after siteId events := by
  cases h with
  | once h => exact .once h
  | unmoved hhistory hstanding => exact .unmoved hhistory hstanding
  | withdrawn h => exact absurd h hpart

theorem Leaves.announces (h : operation.Leaves ledger moment after events)
    (hsubject : operation.subject? ledger = some siteId) :
    operation.Announces ledger after siteId events := by
  induction h with
  | added hid _ _ =>
    cases hsubject
    exact .once hid
  | edited _ _ _ =>
    cases hsubject
    refine .unmoved rfl ?_
    apply Ledger.standing?_withSite
    · intro row
      rfl
    · intro row
      exact ⟨rfl, rfl⟩
  | replanned _ _ _ _ =>
    cases hsubject
    exact .once rfl
  | unmoved _ => exact .unmoved rfl rfl
  | switched _ _ =>
    cases hsubject
    exact .once rfl
  | triggered _ _ =>
    cases hsubject
    exact .once rfl
  | @rescheduled _ site hsite =>
    cases hsubject
    cases hpaused : site.paused with
    | false => exact .once rfl
    | true =>
      -- A paused site that only the library has written has no next run to lose.
      rw [Ledger.drawn, hpaused, if_pos rfl]
      cases hnext : site.next with
      | none => exact .unmoved rfl (Ledger.standing?_withNext_none hsite hnext)
      | some next => exact .withdrawn rfl rfl hsite hpaused hnext
  | deleted _ =>
    cases hsubject
    exact .once rfl
  | entered _ _ =>
    cases hsubject
    exact .once rfl
  | @finished id _ row _ hrow _ _ =>
    have hrow : ledger.row? id = some row := hrow
    rw [subject?, hrow] at hsubject
    cases hsubject
    exact .once rfl
  | missed _ => exact .unmoved rfl rfl
  | failed _ _ _ =>
    cases hsubject
    exact .once rfl
  | closed => cases hsubject
  | reconciled _ _ ih => exact (ih hsubject).of_part nofun
  | recorded _ _ ih => exact (ih hsubject).of_part nofun

end

end Operation

/-- What an edit makes of the row of a site: what it does not name reads as before, and a new next run
is drawn from a new policy unless the site is paused. -/
structure SiteRow.IsEdited (row : SiteRow) (edit : SiteEdit) (moment : Moment) (later : SiteRow) :
    Prop where
  id : later.id = row.id
  name : later.name = edit.name.getD row.name
  url : later.url = edit.url.getD row.url
  successUrl : later.successUrl = edit.successUrl.getD row.successUrl
  credentials : (⟨later.username, later.password⟩ : Credentials) =
    edit.credentials.getD ⟨row.username, row.password⟩
  takeScreenshot : ∃ before, row.takeScreenshot.bool? 6 "take_screenshot" = .ok before ∧
    later.takeScreenshot = .ofBool (edit.takeScreenshot.getD before)
  script : later.script = edit.script.getD row.script
  paused : later.paused = row.paused
  addedAt : later.addedAt = row.addedAt
  policy : ∃ before paused, row.policy? = .ok before ∧ row.paused.bool? 7 "paused" = .ok paused ∧
    later.policy? = .ok (edit.policy.getD before) ∧
    later.next =
      if edit.policy.getD before ≠ before ∧ paused = false then
        some (millisText ((edit.policy.getD before).drawAt moment))
      else row.next

namespace Operation

section

variable {ledger after : Ledger} {moment : Moment} {events : List Event}

theorem isEdited_of_site {row : SiteRow} {site : Site} (hread : row.site? = .ok site)
    (edit : SiteEdit) {next : Option String}
    (hnext : next = if (site.edited edit).policy ≠ site.policy ∧ site.paused = false then
        some (millisText ((site.edited edit).policy.drawAt moment)) else row.next) :
    row.IsEdited edit moment { row.withEdit (site.edited edit) with next } := by
  obtain ⟨-, hpolicy, -, hpaused, -⟩ := SiteRow.site?_eq_ok hread
  obtain ⟨hname, hurl, hsuccessUrl, hcredentials, hscript, htakeScreenshot⟩ :=
    SiteRow.site?_columns hread
  constructor
  · rfl
  · rw [← hname]
    rfl
  · rw [← hurl]
    rfl
  · rw [← hsuccessUrl]
    rfl
  · rw [← hcredentials]
    rfl
  · exact ⟨site.takeScreenshot, htakeScreenshot, rfl⟩
  · rw [← hscript]
    rfl
  · rfl
  · rfl
  · have hlater : (row.withEdit (site.edited edit)).policy? = .ok (site.edited edit).policy :=
      SiteRow.policy?_withFields _ _
    exact ⟨site.policy, site.paused, hpolicy, hpaused, hlater, hnext⟩

theorem Leaves.isEdited {id : Int} {edit : SiteEdit}
    (h : (Operation.updateSite id edit).Leaves ledger moment after events) :
    ∃ row later, ledger.siteRow? id = some row ∧ after.siteRow? id = some later ∧
      row.IsEdited edit moment later := by
  have hedit (site : Site) (row : SiteRow) : (row.withEdit (site.edited edit)).id = row.id := rfl
  cases h with
  | @edited _ _ site hsite _ hsame =>
    obtain ⟨row, hfound, hread⟩ := Ledger.site_eq_ok_iff.1 hsite
    have hrow : ledger.siteRow? id = some row := hfound
    refine ⟨row, row.withEdit (site.edited edit), hrow, ?_, isEdited_of_site hread edit ?_⟩
    · rw [Ledger.siteRow?_withSite _ _ (hedit site), hrow]
      rfl
    · refine (if_neg ?_).symm
      rintro ⟨hpolicy, hactive⟩
      rcases hsame with hsame | hpaused
      · exact hpolicy hsame
      · rw [hactive] at hpaused
        cases hpaused
  | @replanned _ _ site hsite _ hpolicy hactive =>
    obtain ⟨row, hfound, hread⟩ := Ledger.site_eq_ok_iff.1 hsite
    have hrow : ledger.siteRow? id = some row := hfound
    have hdrawn : Ledger.drawn (site.edited edit) moment =
        some ((site.edited edit).policy.drawAt moment) := by
      have hedited : (site.edited edit).paused = false := hactive
      rw [Ledger.drawn, hedited]
      rfl
    refine ⟨row, _, hrow, ?_, isEdited_of_site hread edit rfl⟩
    rw [Ledger.siteRow?_withNext, Ledger.siteRow?_withSite _ _ (hedit site), hrow, hdrawn,
      if_pos ⟨hpolicy, hactive⟩]
    rfl

end

end Operation

namespace Store

/-- What can be seen of a store while events are announced one after the other. -/
def announcing (store : Store) : List Event → List Store
  | [] => [store]
  | event :: rest => store :: announcing { store with feed := store.feed.publish event } rest

/-- What can be seen of a store while a change is made: the store before it, the store with the
changed ledger, written in one piece, and then each announcement. -/
def stages {α : Type} (store : Store) (change : Change α) : List Store :=
  store :: announcing { store with ledger := change.ledger } change.events

theorem ledger_of_mem_announcing {store stage : Store} {events : List Event}
    (h : stage ∈ store.announcing events) : stage.ledger = store.ledger := by
  induction events generalizing store with
  | nil => rw [List.mem_singleton.1 h]
  | cons event rest ih =>
    rcases List.mem_cons.1 h with rfl | h
    · rfl
    · have hledger := ih h
      exact hledger

theorem getLast?_announcing (store : Store) (events : List Event) :
    (store.announcing events).getLast? =
      some { store with feed := store.feed.publishAll events } := by
  induction events generalizing store with
  | nil => rfl
  | cons event rest ih =>
    rw [announcing, List.getLast?_cons, ih]
    rfl

theorem getLast?_stages {α : Type} (store : Store) (change : Change α) :
    (store.stages change).getLast? = some (store.commit change) := by
  rw [stages, List.getLast?_cons, getLast?_announcing]
  rfl

end Store

namespace Operation

/-- An operation for one site that is refused leaves everything as it was.  One that takes place
touches that site and its history only, writes the ledger before it announces anything, and announces
once what it has changed, but for a next run that a paused site should not have had. -/
theorem refused_or_announced_once (store : Store)
    (hnodup : (store.ledger.history.map (·.id)).Nodup) (moment : Moment) (operation : Operation)
    (hone : ∀ message, operation ≠ .failStale message) :
    let after := operation.applied moment store
    (∀ refusal, operation.change moment store.ledger = .error refusal → after = store) ∧
      ∀ change, operation.change moment store.ledger = .ok change →
        ∃ siteId, operation.subject? store.ledger = some siteId ∧
          store.ledger.AgreesBeside after.ledger siteId ∧
          (∀ edit, operation = .updateSite siteId edit →
            ∃ row later, store.ledger.siteRow? siteId = some row ∧
              after.ledger.siteRow? siteId = some later ∧ row.IsEdited edit moment later) ∧
          (∃ events, after.feed = store.feed.publishAll events ∧
            operation.Announces store.ledger after.ledger siteId events) ∧
          (store.stages change).getLast? = some after ∧
          ∀ stage ∈ store.stages change, stage = store ∨ stage.ledger = after.ledger := by
  intro after
  constructor
  · intro refusal hrefusal
    exact congrArg Prod.snd (Store.perform_of_refused hrefusal)
  · intro change hchange
    have hleaves := leaves_of_change hchange
    have hafter : after = store.commit change := congrArg Prod.snd (Store.perform_of_ok hchange)
    obtain ⟨siteId, hsubject⟩ := hleaves.exists_subject? hone
    rw [hafter]
    refine ⟨siteId, hsubject, hleaves.agreesBeside hnodup hsubject, ?_,
      ⟨change.events, rfl, hleaves.announces hsubject⟩, store.getLast?_stages change, ?_⟩
    · rintro edit rfl
      exact hleaves.isEdited
    · intro stage hstage
      rcases List.mem_cons.1 hstage with rfl | hstage
      · exact Or.inl rfl
      · have hledger := Store.ledger_of_mem_announcing hstage
        exact Or.inr hledger

/-- Of two sites the second one is edited, and draws a new next run from its new policy. -/
theorem edit_announced_once_beside_another :
    let moment (second : Int) : Moment := ⟨⟨second, 0⟩, .utc, []⟩
    let store := Store.run { feed := { capacity := 8 } } [
      (moment 1, .addSite NewSite.sample), (moment 2, .addSite NewSite.sample),
      (moment 3, .insertHistory 1 (.inProgress ⟨3, 0⟩ none))]
    let edit : SiteEdit := { policy := some ⟨{ dateStart := 60 }, Policy.flaw?_of_dateStart 60⟩ }
    let operation : Operation := .updateSite 2 edit
    let after := operation.applied (moment 4) store
    (store.ledger.history.map (·.id)).Nodup ∧ (∀ message, operation ≠ .failStale message) ∧
      (operation.change (moment 4) store.ledger).isOk = true ∧
      store.ledger.AgreesBeside after.ledger 2 ∧
      (∃ row later, store.ledger.siteRow? 2 = some row ∧ after.ledger.siteRow? 2 = some later ∧
        row.IsEdited edit (moment 4) later) ∧
      after.feed.kept = .siteRescheduled 2 :: store.feed.kept := by
  intro moment store edit operation after
  have hnodup : (store.ledger.history.map (·.id)).Nodup := by decide +kernel
  have hone : ∀ message, operation ≠ .failStale message := nofun
  have htakes : (operation.change (moment 4) store.ledger).isOk = true := by decide +kernel
  obtain ⟨-, hdone⟩ := refused_or_announced_once store hnodup (moment 4) operation hone
  cases hchange : operation.change (moment 4) store.ledger with
  | error refusal =>
    rw [hchange] at htakes
    cases htakes
  | ok change =>
    obtain ⟨siteId, hsubject, hbeside, hedited, -⟩ := hdone change hchange
    cases hsubject
    exact ⟨hnodup, hone, rfl, hbeside, hedited edit rfl, by decide +kernel⟩

/-- A paused site with a next run, such as only somebody else writes, loses it without a word. -/
theorem draw_of_paused_is_silent :
    let row : SiteRow := { SiteRow.ofNew 1 ⟨1, 0⟩ { NewSite.sample with paused := true } with
      next := some "2030-01-01T00:00:00.000Z" }
    let store : Store := { ledger := { sites := [row] }, feed := { capacity := 1 } }
    let moment : Moment := ⟨⟨2, 0⟩, .utc, []⟩
    let after := (reschedule 1).applied moment store
    ((reschedule 1).change moment store.ledger).isOk = true ∧
      store.ledger.standing? 1 = some (.integer 1, some "2030-01-01T00:00:00.000Z") ∧
      after.ledger.standing? 1 = some (.integer 1, none) ∧ after.feed.sent = store.feed.sent := by
  intro row store moment after
  exact ⟨by decide +kernel, by decide +kernel, by decide +kernel, by decide +kernel⟩

end Operation

end KeepAlive
