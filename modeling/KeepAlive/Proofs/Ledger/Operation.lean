import KeepAlive.Proofs.Ledger.Plan
import KeepAlive.Store

/-!
# Operations on a store

The operations on a ledger as values, and the stores that come about when a new store undergoes them
one after the other.  Whatever the operation, the plan of a site changes only together with an event
about the site, and then the site is planned anew.
-/

namespace KeepAlive

open Time

/-- What can be asked of a store. -/
inductive Operation
  | addSite (new : NewSite)
  | updateSite (id : Int) (edit : SiteEdit)
  | setPaused (id : Int) (paused : Bool)
  | triggerNow (id : Int)
  | reschedule (id : Int)
  | deleteSite (id : Int)
  | insertHistory (siteId : Int) (new : NewHistory)
  | finishHistory (id : Int) (how : Finish)
  | failInProgress (siteId : Int) (started : Instant) (message : Option String)
  | failStale (message : String)
  | reconcile (fault : Ledger.Fault)

/-- A change without its result. -/
def Change.bare {α : Type} (change : Change α) : Change Unit :=
  ⟨(), change.ledger, change.events⟩

theorem Change.map_bare_eq_ok {α : Type} {done : Except Refusal (Change α)} {change : Change Unit}
    (h : done.map Change.bare = .ok change) : ∃ made, done = .ok made ∧ change = made.bare := by
  cases done with
  | error refusal => cases h
  | ok made => exact ⟨made, rfl, (Except.ok.inj h).symm⟩

namespace Operation

/-- What an operation does to a ledger at a moment. -/
def change (moment : Moment) (ledger : Ledger) : Operation → Except Refusal (Change Unit)
  | .addSite new => (ledger.addSite moment new).map Change.bare
  | .updateSite id edit => (ledger.updateSite moment id edit).map Change.bare
  | .setPaused id paused => (ledger.setPaused moment id paused).map Change.bare
  | .triggerNow id => (ledger.triggerNow moment id).map Change.bare
  | .reschedule id => (ledger.reschedule moment id).map Change.bare
  | .deleteSite id => (ledger.deleteSite id).map Change.bare
  | .insertHistory siteId new => (ledger.insertHistory moment siteId new).map Change.bare
  | .finishHistory id how => (ledger.finishHistory moment id how).map Change.bare
  | .failInProgress siteId started message =>
    (ledger.failInProgress moment siteId started message).map Change.bare
  | .failStale message => .ok (ledger.failStale moment.now message).bare
  | .reconcile fault => (ledger.reconcile moment fault).map Change.bare

/-- The store after an operation. -/
def applied (operation : Operation) (moment : Moment) (store : Store) : Store :=
  (store.perform (operation.change moment)).2

/-- Every policy that the operation brings in is at least a minute ahead. -/
def IsAhead : Operation → Prop
  | .addSite new => 1 ≤ new.policy.fields.dateStart.toNat
  | .updateSite _ edit => ∀ policy, edit.policy = some policy → 1 ≤ policy.fields.dateStart.toNat
  | _ => True

end Operation

/-- A site as a user might add it. -/
def NewSite.sample : NewSite := {
  name := "mail", url := "https://mail.example/", successUrl := "https://mail.example/home"
  credentials := ⟨"alice", "hunter2"⟩
  policy := ⟨{ dateStart := 10 }, Policy.flaw?_of_dateStart 10⟩ }

namespace Ledger

section

variable {ledger : Ledger} {moment : Moment} {offset : Int}

theorem exists_event {events : List Event} {event : Event} (h : events = [event]) {siteId : Int}
    (hsite : event.siteId = siteId) : ∃ event ∈ events, event.siteId = siteId :=
  ⟨event, by rw [h]; exact List.mem_singleton_self event, hsite⟩

/-- An operation that plans a site and says so. -/
theorem tracks_of_planned {α : Type} (hsound : ledger.IsSound) {id : Int} {next : Option Instant}
    (hnext : ∀ instant, next = some instant → moment.Gives instant) {change : Change α}
    (hsites : change.ledger.sites = (ledger.withSite id (SiteRow.planned next)).sites)
    (hhistory : (change.ledger.history.map (·.id)).Nodup)
    (hevents : (next = none ∧ ledger.plan id = none) ∨
      ∃ event ∈ change.events, event.siteId = id)
    (hwithdrawn : ∀ event ∈ change.events, event.IsWithdrawal → event.siteId = id ∧ next = none) :
    ledger.Tracks moment change := by
  have hid : ∀ row : SiteRow, (row.planned next).id = row.id := fun _ => rfl
  have hrows : (ledger.withSite id (SiteRow.planned next)).IsSound := by
    refine hsound.withSite hid ?_
    intro row hmem _
    exact (hsound.row hmem).planned fun instant h => (hnext instant h).1
  have hnone (h : next = none) : change.ledger.plan id = none := by
    rw [plan_congr hsites, plan_planned_self, h]
    cases ledger.sites.find? (·.id = id) <;> rfl
  refine ⟨.of_rows ?_ hhistory ?_, ?_, ?_⟩
  · rw [hsites]
    exact hrows.sites_nodup
  · rw [hsites]
    exact fun _ => hrows.row
  · intro key
    by_cases hkey : key = id
    · subst hkey
      rcases hevents with ⟨hpaused, hplan⟩ | hevent
      · left
        rw [hnone hpaused, hplan]
      · right
        refine ⟨?_, hevent⟩
        intro text htext
        rw [plan_congr hsites key] at htext
        exact isPlannedAt_planned ledger key hnext text htext
    · left
      rw [plan_congr hsites key, plan_withSite_of_ne hid hkey]
  · intro event hevent hwithdrawal
    obtain ⟨hsame, hpaused⟩ := hwithdrawn event hevent hwithdrawal
    rw [hsame, hnone hpaused]

theorem withNext_drawn_eq_planned (hsound : ledger.IsSound) {id : Int} {site : Site}
    (hsite : ledger.site id = .ok site) :
    ledger.withNext id (drawn site moment) =
      ledger.withSite id (SiteRow.planned (drawn site moment)) := by
  apply withNext_eq_planned
  intro row hmem hid
  rw [isNone_drawn]
  exact hsound.paused_of_site hsite hmem hid

/-- An operation that draws the next run of a site and says so. -/
theorem tracks_of_drawn {α : Type} (hsound : ledger.IsSound) (hat : moment.IsAt offset) {id : Int}
    {site : Site} (hsite : ledger.site id = .ok site) {change : Change α}
    (hsites : change.ledger.sites = (ledger.withNext id (drawn site moment)).sites)
    (hhistory : (change.ledger.history.map (·.id)).Nodup)
    (hevents : site.paused = true ∨ ∃ event ∈ change.events, event.siteId = id)
    (hstays : ∀ event ∈ change.events, ¬event.IsWithdrawal) : ledger.Tracks moment change := by
  obtain ⟨-, hahead, -⟩ := hsound.of_site hsite
  rw [withNext_drawn_eq_planned hsound hsite] at hsites
  refine tracks_of_planned hsound (fun instant h => gives_drawn hat hahead h)
    hsites hhistory ?_ fun event hevent h => absurd h (hstays event hevent)
  rcases hevents with hpaused | hevent
  · left
    rw [← Option.isNone_iff_eq_none, ← Option.isNone_iff_eq_none, isNone_drawn,
      hsound.isNone_plan hsite]
    exact ⟨hpaused, hpaused⟩
  · exact Or.inr hevent

theorem tracks_addSite (hsound : ledger.IsSound) (hat : moment.IsAt offset) {new : NewSite}
    (hnew : 1 ≤ new.policy.fields.dateStart.toNat) {change : Change Site}
    (h : ledger.addSite moment new = .ok change) : ledger.Tracks moment change := by
  obtain ⟨id, -, hledger, hsite, hevents⟩ := addSite_eq_ok h
  obtain ⟨row, hrowEq⟩ : ∃ row, row = SiteRow.ofNew id moment.now new := ⟨_, rfl⟩
  have hid : row.id = id := by rw [hrowEq]; rfl
  rw [← hrowEq] at hledger
  obtain ⟨found, hfound, hread⟩ := site_eq_ok_iff.1 hsite
  have hfoundSelf : found = row := by
    rw [hledger, ← hid, find?_placed_self] at hfound
    exact (Option.some.inj hfound).symm
  rw [hfoundSelf] at hread
  obtain ⟨hresult, -, -, -, haddedAt⟩ := SiteRow.site?_eq_ok hread
  have hnext : ∀ text, row.next = some text → text = millisText moment.now := by
    intro text htext
    rw [hrowEq] at htext
    simp only [SiteRow.ofNew] at htext
    split at htext
    · cases htext
    · exact (Option.some.inj htext).symm
  have hrow : row.IsSound := by
    rw [hrowEq]
    refine ⟨SiteRow.isWritten_ofNew hat.nano ⟨_, hrowEq ▸ haddedAt⟩, fun policy hread => ?_⟩
    rw [SiteRow.policy?_ofNew] at hread
    cases hread
    exact hnew
  refine ⟨?_, ?_, ?_⟩
  · rw [hledger]
    refine hsound.withSites (nodup_placed hsound.sites_nodup _) ?_
    intro other hother
    rcases mem_placed.1 hother with rfl | ⟨hmem, -⟩
    · exact hrow
    · exact hsound.row hmem
  · intro key
    by_cases hkey : key = id
    · right
      refine ⟨?_, exists_event hevents (hresult.trans (hid.trans hkey.symm))⟩
      intro text htext
      rw [hkey, plan, hledger, ← hid, find?_placed_self] at htext
      exact ⟨moment.now, hat.gives_now, hnext text htext⟩
    · left
      rw [plan, hledger, find?_placed_of_ne (by rw [hid]; exact hkey), plan]
  · simp [hevents, Event.IsWithdrawal]

theorem tracks_updateSite (hsound : ledger.IsSound) (hat : moment.IsAt offset) {id : Int}
    {edit : SiteEdit}
    (hedit : ∀ policy, edit.policy = some policy → 1 ≤ policy.fields.dateStart.toNat)
    {change : Change Site} (h : ledger.updateSite moment id edit = .ok change) :
    ledger.Tracks moment change := by
  obtain ⟨before, hbefore, hcase⟩ := updateSite_eq_ok h
  obtain ⟨-, hahead, -⟩ := hsound.of_site hbefore
  have hpolicy : 1 ≤ (before.edited edit).policy.fields.dateStart.toNat := by
    simp only [Site.edited]
    cases hnew : edit.policy with
    | none => exact hahead
    | some policy => exact hedit policy hnew
  have hid : ∀ row : SiteRow, (row.withEdit (before.edited edit)).id = row.id := fun _ => rfl
  have hplan := @plan_withSite_of_next ledger id _ hid fun _ => rfl
  have hmid : (ledger.withSite id (·.withEdit (before.edited edit))).IsSound :=
    hsound.withSite hid fun row hmem _ => (hsound.row hmem).withEdit hpolicy
  rcases hcase with ⟨hledger, hevents⟩ | ⟨-, hpaused, hledger, hevents⟩
  · refine ⟨hledger ▸ hmid, fun key => Or.inl ?_, by simp [hevents]⟩
    rw [hledger, hplan]
  · refine Tracks.of_plan_eq ?_ hplan
    have hplanned : (ledger.withSite id (·.withEdit (before.edited edit))).withNext id
          (drawn (before.edited edit) moment) =
        (ledger.withSite id (·.withEdit (before.edited edit))).withSite id
          (SiteRow.planned (drawn (before.edited edit) moment)) := by
      apply withNext_eq_planned
      intro row hmem hrow
      obtain ⟨old, hold : old ∈ ledger.sites, rfl⟩ := List.mem_map.1 hmem
      rw [isNone_drawn]
      split at hrow
      · rename_i hkey
        rw [if_pos hkey]
        exact (hsound.paused_of_site hbefore hold hkey :)
      · contradiction
    have hevent : ∃ event ∈ change.events, event.siteId = id := exists_event hevents rfl
    refine tracks_of_planned hmid (fun instant h => gives_drawn hat hpolicy h)
      (by rw [hledger, hplanned]) (by rw [hledger]; exact hsound.history_nodup) (Or.inr hevent) ?_
    simp [hevents, Event.IsWithdrawal]

theorem tracks_setPaused (hsound : ledger.IsSound) (hat : moment.IsAt offset) {id : Int}
    {paused : Bool} {change : Change Site} (h : ledger.setPaused moment id paused = .ok change) :
    ledger.Tracks moment change := by
  obtain ⟨site, hsite, ⟨hledger, hevents⟩ | ⟨-, hledger, hevents⟩⟩ := setPaused_eq_ok h
  · exact ⟨hledger ▸ hsound, fun key => Or.inl (by rw [hledger]), by simp [hevents]⟩
  · obtain ⟨-, hahead, -⟩ := hsound.of_site hsite
    obtain ⟨changed, hchanged⟩ : ∃ changed : Site, changed = { site with paused } := ⟨_, rfl⟩
    have hpolicy : 1 ≤ changed.policy.fields.dateStart.toNat := by
      rw [hchanged]
      exact hahead
    have hnone : (drawn changed moment).isNone = paused := by
      rw [isNone_drawn, hchanged]
    rw [← hchanged] at hledger
    have hplanned : change.ledger.sites =
        (ledger.withSite id (SiteRow.planned (drawn changed moment))).sites := by
      have hid : ∀ row : SiteRow, ({ row with paused := .ofBool paused } : SiteRow).id = row.id :=
        fun _ => rfl
      rw [hledger, withNext, withSite_withSite hid]
      congr 2
      funext row
      rw [SiteRow.planned, hnone]
      rfl
    have hevent : ∃ event ∈ change.events, event.siteId = id := exists_event hevents rfl
    refine tracks_of_planned hsound (fun instant h => gives_drawn hat hpolicy h) hplanned
      (by rw [hledger]; exact hsound.history_nodup) (Or.inr hevent) ?_
    rw [hevents]
    intro event hevent hwithdrawal
    rw [List.mem_singleton.1 hevent] at hwithdrawal ⊢
    refine ⟨rfl, Option.isNone_iff_eq_none.1 ?_⟩
    rw [hnone]
    exact hwithdrawal

theorem tracks_triggerNow (hsound : ledger.IsSound) (hat : moment.IsAt offset) {id : Int}
    {change : Change Site} (h : ledger.triggerNow moment id = .ok change) :
    ledger.Tracks moment change := by
  obtain ⟨site, hsite, hpaused, hledger, hevents⟩ := triggerNow_eq_ok h
  have hplanned : ledger.withNext id (some moment.now) =
      ledger.withSite id (SiteRow.planned (some moment.now)) := by
    apply withNext_eq_planned
    intro row hmem hid
    rw [hsound.paused_of_site hsite hmem hid, hpaused]
    rfl
  have hevent : ∃ event ∈ change.events, event.siteId = id := exists_event hevents rfl
  refine tracks_of_planned hsound ?_ (by rw [hledger, hplanned])
    (by rw [hledger]; exact hsound.history_nodup) (Or.inr hevent) ?_
  · rintro _ ⟨rfl⟩
    exact hat.gives_now
  · simp [hevents, Event.IsWithdrawal]

theorem tracks_reschedule (hsound : ledger.IsSound) (hat : moment.IsAt offset) {id : Int}
    {change : Change Site} (h : ledger.reschedule moment id = .ok change) :
    ledger.Tracks moment change := by
  obtain ⟨site, hsite, -, hledger, hevents⟩ := reschedule_eq_ok h
  refine tracks_of_drawn hsound hat hsite (by rw [hledger])
    (by rw [hledger]; exact hsound.history_nodup) ?_ ?_
  · cases hpaused : site.paused with
    | true => exact Or.inl rfl
    | false =>
      rw [hpaused] at hevents
      exact Or.inr (exists_event hevents rfl)
  · rw [hevents]
    cases site.paused <;> simp [Event.IsWithdrawal]

theorem tracks_deleteSite (hsound : ledger.IsSound) {id : Int} {change : Change Unit}
    (h : ledger.deleteSite id = .ok change) : ledger.Tracks moment change := by
  obtain ⟨hsites, hhistory, hevents⟩ := deleteSite_eq_ok h
  have hgone : change.ledger.plan id = none := by
    rw [plan, hsites, find?_filter_of_not]
    · rfl
    · intro row hrow
      simpa using hrow
  refine ⟨.of_rows ?_ ?_ ?_, ?_, ?_⟩
  · rw [hsites]
    exact hsound.sites_nodup.sublist (List.filter_sublist.map _)
  · rw [hhistory]
    exact hsound.history_nodup.sublist (List.filter_sublist.map _)
  · rw [hsites]
    exact fun row hmem => hsound.row (List.mem_filter.1 hmem).1
  · intro key
    by_cases hkey : key = id
    · right
      refine ⟨?_, exists_event hevents hkey.symm⟩
      intro text htext
      rw [hkey, hgone] at htext
      cases htext
    · left
      rw [plan, hsites, find?_filter_of_imp, plan]
      intro row hrow
      have : row.id = key := by simpa using hrow
      simpa [this] using hkey
  · rw [hevents]
    intro event hevent _
    rw [List.mem_singleton.1 hevent]
    exact hgone

theorem tracks_insertHistory (hsound : ledger.IsSound) (hat : moment.IsAt offset) {siteId : Int}
    {new : NewHistory} {change : Change History}
    (h : ledger.insertHistory moment siteId new = .ok change) : ledger.Tracks moment change := by
  obtain ⟨site, id, hsite, -, hledger, hevents⟩ := insertHistory_eq_ok h
  obtain ⟨hid, -⟩ := hsound.of_site hsite
  rw [hid] at hledger
  refine tracks_of_drawn hsound hat hsite (by rw [hledger]; rfl) ?_
    (Or.inr (exists_event hevents rfl)) (by simp [hevents, Event.IsWithdrawal])
  rw [hledger]
  exact nodup_placed hsound.history_nodup _

/-- The site of an entry that is finished is drawn anew. -/
theorem tracks_finish {α : Type} (hsound : ledger.IsSound) (hat : moment.IsAt offset) {id : Int}
    {how : Finish} {entry : History} {change : Change α}
    (h : ledger.finish moment id how = .ok (entry, change.ledger))
    (hevents : change.events = [.historyChanged entry.siteId id]) : ledger.Tracks moment change := by
  obtain ⟨row, site, -, -, hsite, hledger, -, hsiteId⟩ := finish_row h
  obtain ⟨hid, -⟩ := hsound.of_site hsite
  rw [hid] at hledger
  refine tracks_of_drawn hsound hat hsite (by rw [hledger]; rfl) ?_
    (Or.inr (exists_event hevents hsiteId)) (by simp [hevents, Event.IsWithdrawal])
  rw [hledger]
  have hid : ∀ row : HistoryRow, (row.finished moment.now how).id = row.id := fun _ => rfl
  have hids : (ledger.withHistory id (·.finished moment.now how)).history.map (·.id) =
      ledger.history.map (·.id) := map_id_changed hid ledger.history
  exact hids ▸ hsound.history_nodup

/-- An open row that is found by its site and start is the one that is finished. -/
theorem siteId_of_isMeant (hwritten : ledger.IsWritten) {siteId : Int} {started : Instant}
    {row : HistoryRow} (hrow : ledger.history.find? (isMeant siteId started) = some row)
    {how : Finish} {entry : History} {after : Ledger}
    (h : ledger.finish moment row.id how = .ok (entry, after)) : entry.siteId = siteId := by
  obtain ⟨found, -, hfound, -, -, -, -, hsiteId⟩ := finish_row h
  have hself := find?_of_nodup hwritten.history_nodup (List.mem_of_find?_eq_some hrow)
  have hmeant := List.find?_some hrow
  simp only [isMeant, Bool.and_eq_true, decide_eq_true_eq] at hmeant
  rw [hself] at hfound
  cases hfound
  rw [hsiteId, hmeant.1.1]

theorem tracks_failInProgress (hsound : ledger.IsSound) (hat : moment.IsAt offset) {siteId : Int}
    {started : Instant} {message : Option String} {change : Change (Option History)}
    (h : ledger.failInProgress moment siteId started message = .ok change) :
    ledger.Tracks moment change := by
  rcases failInProgress_eq_ok h with ⟨-, rfl⟩ | ⟨row, entry, hrow, hfinish, -, hevents⟩
  · exact ⟨hsound, fun _ => Or.inl rfl, by simp⟩
  · refine tracks_finish hsound hat hfinish ?_
    rw [hevents, siteId_of_isMeant hsound.toIsWritten hrow hfinish]

theorem tracks_failStale (hsound : ledger.IsSound) (message : String) :
    ledger.Tracks moment (ledger.failStale moment.now message) := by
  have hnodup : ((ledger.failStale moment.now message).ledger.history.map (·.id)).Nodup := by
    rw [ids_failStale]
    exact hsound.history_nodup
  refine ⟨hsound.withHistory hnodup, fun _ => Or.inl rfl, ?_⟩
  · intro event hevent hwithdrawal
    obtain ⟨row, -, rfl⟩ := List.mem_map.1 hevent
    exact hwithdrawal.elim

theorem tracks_reconcile (hsound : ledger.IsSound) (hat : moment.IsAt offset) {fault : Fault}
    {change : Change History} (h : ledger.reconcile moment fault = .ok change) :
    ledger.Tracks moment change := by
  rcases reconcile_eq_ok h with ⟨-, hinsert⟩ | ⟨row, hrow, hfinish, hevents⟩
  · exact tracks_insertHistory hsound hat hinsert
  · refine tracks_finish hsound hat hfinish ?_
    rw [hevents, siteId_of_isMeant hsound.toIsWritten hrow hfinish]

theorem Tracks.bare {α : Type} {change : Change α} (h : ledger.Tracks moment change) :
    ledger.Tracks moment change.bare :=
  ⟨h.isSound, h.plan, h.withdrawn⟩

end

end Ledger

theorem Operation.tracks {ledger : Ledger} {moment : Moment} {offset : Int}
    (hsound : ledger.IsSound) (hat : moment.IsAt offset) {operation : Operation}
    (hahead : operation.IsAhead) {change : Change Unit}
    (h : operation.change moment ledger = .ok change) : ledger.Tracks moment change := by
  have hmap {α : Type} {done : Except Refusal (Change α)} (hdone : done.map Change.bare = .ok change)
      (htracks : ∀ change, done = .ok change → ledger.Tracks moment change) :
      ledger.Tracks moment change := by
    obtain ⟨made, hmade, rfl⟩ := Change.map_bare_eq_ok hdone
    exact (htracks made hmade).bare
  cases operation with
  | addSite new => exact hmap h fun _ => Ledger.tracks_addSite hsound hat hahead
  | updateSite id edit => exact hmap h fun _ => Ledger.tracks_updateSite hsound hat hahead
  | setPaused id paused => exact hmap h fun _ => Ledger.tracks_setPaused hsound hat
  | triggerNow id => exact hmap h fun _ => Ledger.tracks_triggerNow hsound hat
  | reschedule id => exact hmap h fun _ => Ledger.tracks_reschedule hsound hat
  | deleteSite id => exact hmap h fun _ => Ledger.tracks_deleteSite hsound
  | insertHistory siteId new => exact hmap h fun _ => Ledger.tracks_insertHistory hsound hat
  | finishHistory id how =>
    refine hmap h fun change hchange => ?_
    obtain ⟨hfinish, hevents⟩ := Ledger.finishHistory_eq_ok hchange
    exact Ledger.tracks_finish hsound hat hfinish hevents
  | failInProgress siteId started message =>
    exact hmap h fun _ => Ledger.tracks_failInProgress hsound hat
  | failStale message =>
    cases h
    exact (Ledger.tracks_failStale hsound message).bare
  | reconcile fault => exact hmap h fun _ => Ledger.tracks_reconcile hsound hat

end KeepAlive
