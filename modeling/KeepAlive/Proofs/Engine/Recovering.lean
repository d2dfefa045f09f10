import KeepAlive.Proofs.Engine.Orders
import KeepAlive.Proofs.Engine.Restarting
import KeepAlive.Proofs.Jobs.Standing
import Mathlib.Data.List.Forall2

/-!
# What a recovery does

Whatever a process has left behind, a recovery closes the attempts that were open and gives every
site that is not paused its one job.  Of the sites it changes those alone whose next run is too old,
and of them only the next run.  Its turns touch one site each, so the sites that are still to come
stand in the ledger as they were read.
-/

namespace KeepAlive

open Time

namespace Ledger

/-- Every next run that is stored lies in a year of four digits. -/
def HasPlainYears (ledger : Ledger) : Prop :=
  ∀ row ∈ ledger.sites, ∀ text, row.next = some text →
    ∃ next : Instant, next.nano < nanosPerSecond ∧ next.HasPlainYear ∧ text = millisText next

theorem IsWritten.exists_allSites {ledger : Ledger} (h : ledger.IsWritten)
    (hyears : ledger.HasPlainYears) : ∃ sites, ledger.allSites = .ok sites := by
  have hrows : ∀ row ∈ ledger.sites, ∃ site, row.site? = .ok site := by
    intro row hrow
    have hwritten := h.rows row hrow
    cases hnext : row.next with
    | none => exact hwritten.exists_site? (by rw [hnext]; rfl)
    | some text =>
      obtain ⟨next, hnano, hyear, rfl⟩ := hyears row hrow text hnext
      have hread : storedInstantOrNone? 13 row.next = .ok (some next.truncated) := by
        rw [hnext, storedInstantOrNone?, storedInstant?_millisText hnano hyear]
        rfl
      exact hwritten.exists_site? hread
  obtain ⟨sites, hsites⟩ := exists_mapM_eq_ok hrows
  exact ⟨sites, mapError_unreadable_eq_ok.2 hsites⟩

/-- Sites that can be read together can be read one by one. -/
theorem IsWritten.exists_site {ledger : Ledger} (h : ledger.IsWritten) {sites : List Site}
    (hsites : ledger.allSites = .ok sites) {row : SiteRow} (hmem : row ∈ ledger.sites) :
    ∃ site, ledger.site row.id = .ok site := by
  obtain ⟨site, hread⟩ := isReadable_of_mapM_eq_ok (mapError_unreadable_eq_ok.1 hsites) hmem
  exact ⟨site, site_eq_ok_iff.2 ⟨row, find?_of_nodup h.sites_nodup hmem, hread⟩⟩

/-- A site that has been read is paused exactly when it has no next run. -/
theorem IsWritten.paused_eq_isNone {ledger : Ledger} (h : ledger.IsWritten) {id : Int} {site : Site}
    (hsite : ledger.site id = .ok site) : site.paused = site.next.isNone := by
  obtain ⟨-, row, -, hwritten, hread⟩ := h.of_site hsite
  obtain ⟨-, -, hnext, -⟩ := SiteRow.site?_eq_ok hread
  rw [hwritten.paused_eq hread, isNone_of_storedInstantOrNone? hnext]

/-- The rows of a site that can be read are that of the site. -/
theorem IsWritten.site?_of_mem {ledger : Ledger} (h : ledger.IsWritten) {id : Int} {site : Site}
    (hsite : ledger.site id = .ok site) {row : SiteRow} (hmem : row ∈ ledger.sites)
    (hid : row.id = id) : row.site? = .ok site := by
  obtain ⟨found, hfound, hread⟩ := site_eq_ok_iff.1 hsite
  have hself := find?_of_nodup h.sites_nodup hmem
  rw [hid, hfound] at hself
  rw [← Option.some.inj hself]
  exact hread

end Ledger

namespace Jobs

/-- In a table that refuses nothing, jobs for different sites all wait for their instants. -/
theorem standing_foldl_install {slots : Slots} (h : slots.IsKeyed) {jobs : Jobs}
    (hrunning : jobs.running = []) (hcovered : jobs.covered = []) (site : Int) :
    (((slots.map fun slot => Order.install slot.1 slot.2).foldl obey jobs).standing site).waiting =
      (slots.get? site).or (jobs.standing site).waiting := by
  induction slots generalizing jobs with
  | nil => rfl
  | cons slot rest ih =>
    obtain ⟨key, due⟩ := slot
    obtain ⟨hkey, hrest⟩ := Slots.isKeyed_cons_iff.1 h
    have hinstall : jobs.install key due =
        { jobs with waiting := jobs.waiting.insert key due } := by
      have hfree : jobs.refuses key due = false := by
        rw [refuses, isCovered, isCovered, hrunning, hcovered]
        rfl
      rw [install, hfree]
      rfl
    rw [List.map_cons, List.foldl_cons, obey, hinstall, Slots.get?_cons]
    have hinstalled :=
      @ih hrest { jobs with waiting := jobs.waiting.insert key due } hrunning hcovered
    refine hinstalled.trans ?_
    by_cases hsite : site = key
    · subst hsite
      simp [Slots.get?_eq_none_of_forall_ne hkey, standing, Slots.get?_insert]
    · simp [hsite, standing, Slots.get?_insert]

theorem isKeyed_waiting_foldl_obey {jobs : Jobs} (h : jobs.waiting.IsKeyed) (orders : List Order) :
    (orders.foldl obey jobs).waiting.IsKeyed := by
  induction orders generalizing jobs with
  | nil => exact h
  | cons order rest ih => exact ih (isKeyed_waiting_obey h order)

theorem filter_pending {jobs : Jobs} (h : jobs.waiting.IsKeyed) (site : Int) :
    jobs.pending.filter (·.1 = site) = (jobs.standing site).waiting.toList.map (site, ·) := by
  have hget : jobs.pending.get? site = (jobs.standing site).waiting := by
    apply Option.ext
    intro due
    rw [pending, ← Slots.mem_iff_get?_eq_some h.soonestFirst, Slots.soonestFirst,
      List.mem_mergeSort, Slots.mem_iff_get?_eq_some h, standing]
  rw [← hget]
  exact Slots.filter_site h.soonestFirst site

end Jobs

/-- The next run of a site that has been read is an instant that is stored in its row, cut to
milliseconds. -/
theorem SiteRow.IsWritten.exists_stored {row : SiteRow} (h : row.IsWritten) {site : Site}
    (hsite : row.site? = .ok site) {next : Instant} (hnext : site.next = some next) :
    ∃ instant : Instant, instant.nano < nanosPerSecond ∧ row.next = some (millisText instant) ∧
      next = instant.truncated := by
  obtain ⟨-, -, hread, -⟩ := SiteRow.site?_eq_ok hsite
  rw [hnext] at hread
  cases htext : row.next with
  | none =>
    rw [htext] at hread
    cases hread
  | some text =>
    obtain ⟨instant, hnano, rfl⟩ := h.next text htext
    rw [htext, storedInstantOrNone?] at hread
    cases hstored : storedInstant? 13 (millisText instant) with
    | error unreadable => simp [hstored, Except.map] at hread
    | ok stored =>
      rw [hstored] at hread
      cases hread
      exact ⟨instant, hnano, rfl, eq_truncated_of_storedInstant? hnano hstored⟩

/-- The next run of a site that has been read is the one that is stored in its row. -/
theorem SiteRow.IsWritten.next_eq {row : SiteRow} (h : row.IsWritten) {site : Site}
    (hsite : row.site? = .ok site) : row.next = site.next.map millisText := by
  cases hnext : site.next with
  | none =>
    obtain ⟨-, -, hread, -⟩ := SiteRow.site?_eq_ok hsite
    have hnone := isNone_of_storedInstantOrNone? hread
    rw [hnext] at hnone
    exact Option.isNone_iff_eq_none.1 hnone
  | some next =>
    obtain ⟨instant, -, htext, rfl⟩ := h.exists_stored hsite hnext
    rw [htext, Option.map_some, millisText_truncated]

/-- The row of an attempt after a restart has interrupted it. -/
def HistoryRow.interrupted (row : HistoryRow) (now : Instant) : HistoryRow :=
  { row with
    ended := some (millisText now), status := ActionStatus.failed.code
    failure := some LoginStatus.unknownExecutionError.code
    message := some Recovery.interrupted }

/-- The next run that a recovery leaves a site: one that is too old is drawn anew. -/
def Site.renewed (site : Site) (moments : Int → Moment) (cut : Instant) : Option Instant :=
  if site.next.any (·.isBefore cut) then some (site.policy.drawAt (moments site.id)) else site.next

theorem Site.isSome_renewed (site : Site) (moments : Int → Moment) (cut : Instant) :
    (site.renewed moments cut).isSome = site.next.isSome := by
  unfold renewed
  split
  · rename_i hold
    obtain ⟨next, hnext, -⟩ := (Option.any_eq_true _ _).1 hold
    rw [hnext]
    rfl
  · rfl

namespace SiteRow

/-- The row of a site after its turn in a recovery. -/
def renewed (moments : Int → Moment) (cut : Instant) (row : SiteRow) : SiteRow :=
  match row.site? with
  | .error _ => row
  | .ok site =>
    if site.next.any (·.isBefore cut) then
      { row with next := some (millisText (site.policy.drawAt (moments site.id))) }
    else row

variable {moments : Int → Moment} {cut : Instant} {row : SiteRow}

theorem renewed_eq {site : Site} (h : row.site? = .ok site) : row.renewed moments cut =
    if site.next.any (·.isBefore cut) then
      { row with next := some (millisText (site.policy.drawAt (moments site.id))) }
    else row := by
  rw [renewed, h]

@[simp] theorem id_renewed (moments : Int → Moment) (cut : Instant) (row : SiteRow) :
    (row.renewed moments cut).id = row.id := by
  unfold renewed
  split
  · rfl
  · split <;> rfl

end SiteRow

namespace Recovery

variable {ledger : Ledger} {moments : Int → Moment} {cut : Instant}

/-- The job that a recovery gives a site. -/
def slot? (moments : Int → Moment) (cut : Instant) (site : Site) : Option (Int × Instant) :=
  (site.renewed moments cut).map (site.id, ·)

/-- A recovery of a ledger that has had some of the sites. -/
structure IsPartway (ledger : Ledger) (moments : Int → Moment) (cut : Instant) (had : List Site)
    (recovery : Recovery) : Prop where
  error : recovery.error = none
  history : recovery.store.ledger.history = ledger.history
  sites : recovery.store.ledger.sites = ledger.sites.map fun row =>
    if row.id ∈ had.map (·.id) then row.renewed moments cut else row
  orders : recovery.orders =
    (had.filterMap (slot? moments cut)).map fun slot => .install slot.1 slot.2
  installed : recovery.installed = recovery.orders.length

section

variable {had : List Site} {recovery : Recovery} {site : Site}

/-- A site that is still to come stands in the ledger as it was read. -/
theorem IsPartway.site_eq (h : recovery.IsPartway ledger moments cut had)
    (hsite : ledger.site site.id = .ok site) (hgone : site.id ∉ had.map (·.id)) :
    recovery.store.ledger.site site.id = .ok site := by
  obtain ⟨row, hrow, hread⟩ := Ledger.site_eq_ok_iff.1 hsite
  have hid : row.id = site.id := by simpa using List.find?_some hrow
  have hkey : ((fun row : SiteRow => decide (row.id = site.id)) ∘ fun row =>
      if row.id ∈ had.map (·.id) then row.renewed moments cut else row) =
        fun row => decide (row.id = site.id) := by
    funext row
    simp only [Function.comp_apply]
    split <;> simp
  refine Ledger.site_eq_ok_iff.2 ⟨row, ?_, hread⟩
  rw [h.sites, List.find?_map, hkey, hrow, Option.map_some, if_neg (hid ▸ hgone)]

/-- A turn is had when it has changed the row of its site, and ordered its job, as a recovery does.
-/
theorem IsPartway.append (h : recovery.IsPartway ledger moments cut had)
    (hledger : ledger.IsWritten) (hsite : ledger.site site.id = .ok site)
    (hgone : site.id ∉ had.map (·.id)) {after : Recovery} (herror : after.error = none)
    (hhistory : after.store.ledger.history = recovery.store.ledger.history)
    (hsites : after.store.ledger.sites = recovery.store.ledger.sites.map fun row =>
      if row.id = site.id ∧ site.next.any (·.isBefore cut) then
        { row with next := some (millisText (site.policy.drawAt (moments site.id))) }
      else row)
    (horders : after.orders = recovery.orders ++
      (slot? moments cut site).toList.map fun slot => .install slot.1 slot.2)
    (hinstalled : after.installed = recovery.installed + (slot? moments cut site).toList.length) :
    after.IsPartway ledger moments cut (had ++ [site]) := by
  refine ⟨herror, hhistory.trans h.history, ?_, ?_, ?_⟩
  · rw [hsites, h.sites, List.map_map]
    apply List.map_congr_left
    intro row hmem
    simp only [Function.comp_apply, List.map_append, List.map_cons, List.map_nil, List.mem_append,
      List.mem_singleton]
    by_cases hid : row.id = site.id
    · have hread := hledger.site?_of_mem hsite hmem hid
      rw [hid, if_neg hgone, if_pos (Or.inr rfl), SiteRow.renewed_eq hread]
      simp only [hid, true_and]
    · have hother : ¬((if row.id ∈ had.map (·.id) then row.renewed moments cut else row).id =
          site.id ∧ site.next.any (·.isBefore cut) = true) := by
        rintro ⟨hsame, -⟩
        split at hsame
        · exact hid ((SiteRow.id_renewed moments cut row).symm.trans hsame)
        · exact hid hsame
      rw [if_neg hother]
      simp only [hid, or_false]
  · have hslots : (had ++ [site]).filterMap (slot? moments cut) =
        had.filterMap (slot? moments cut) ++ (slot? moments cut site).toList := by
      rw [List.filterMap_append]
      cases hslot : slot? moments cut site with
      | none => rw [List.filterMap_cons_none hslot]; rfl
      | some slot => rw [List.filterMap_cons_some hslot]; rfl
    rw [horders, h.orders, hslots, List.map_append]
  · rw [hinstalled, horders, h.installed, List.length_append, List.length_map]

theorem turn_of_refreshed (herror : recovery.error = none) (hactive : site.paused = false)
    {found : Site} {store : Store} {next : Instant}
    (hrefreshed : refreshed recovery.store (moments site.id) cut site = (.ok found, store))
    (hnext : found.next = some next) :
    turn moments cut recovery site =
      { recovery with
        store, orders := recovery.orders ++ [.install found.id next]
        installed := recovery.installed + 1 } := by
  unfold turn
  rw [herror, hactive]
  simp [hrefreshed, hnext]

/-- A site has its turn. -/
theorem IsPartway.turn (h : recovery.IsPartway ledger moments cut had) (hwritten : ledger.IsWritten)
    (hsite : ledger.site site.id = .ok site) (hgone : site.id ∉ had.map (·.id)) :
    (turn moments cut recovery site).IsPartway ledger moments cut (had ++ [site]) := by
  have hpaused := hwritten.paused_eq_isNone hsite
  have hfound := h.site_eq hsite hgone
  cases hnext : site.next with
  | none =>
    have hturn : Recovery.turn moments cut recovery site = recovery := by
      rw [Recovery.turn, hpaused, hnext]
      simp
    have hslot : slot? moments cut site = none := by simp [slot?, Site.renewed, hnext]
    rw [hturn]
    exact h.append hwritten hsite hgone h.error rfl (by simp [hnext]) (by simp [hslot])
      (by simp [hslot])
  | some next =>
    have hactive : site.paused = false := by rw [hpaused, hnext]; rfl
    by_cases hold : next.isBefore cut = true
    · obtain ⟨drawn, hdrawn⟩ : ∃ drawn, drawn = site.policy.drawAt (moments site.id) := ⟨_, rfl⟩
      have hslot : slot? moments cut site = some (site.id, drawn) := by
        simp [slot?, Site.renewed, hnext, hold, hdrawn]
      obtain ⟨change, hchange, hresult, hledger⟩ : ∃ change : Change Site,
          recovery.store.ledger.reschedule (moments site.id) site.id = .ok change ∧
            change.result = { site with next := some drawn } ∧
              change.ledger = recovery.store.ledger.withNext site.id (some drawn) := by
        simp [Ledger.reschedule, hfound, Ledger.drawn, hactive, hdrawn, bind, Except.bind, pure,
          Except.pure]
      have hrefreshed : refreshed recovery.store (moments site.id) cut site =
          (.ok change.result, recovery.store.commit change) := by
        rw [refreshed, if_pos (by rw [hnext]; exact hold)]
        exact Store.perform_of_ok hchange
      rw [turn_of_refreshed h.error hactive hrefreshed (by rw [hresult])]
      refine h.append hwritten hsite hgone h.error ?_ ?_ (by simp [hslot, hresult])
        (by simp [hslot])
      · simp [Store.commit, hledger, Ledger.withNext, Ledger.withSite]
      · simp [Store.commit, hledger, Ledger.withNext, Ledger.withSite, hnext, hold, hdrawn]
    · have hslot : slot? moments cut site = some (site.id, next) := by
        simp [slot?, Site.renewed, hnext, hold]
      have hrefreshed : refreshed recovery.store (moments site.id) cut site =
          (.ok site, recovery.store) := by
        rw [refreshed, if_neg (by rw [hnext]; exact hold)]
      rw [turn_of_refreshed h.error hactive hrefreshed hnext]
      exact h.append hwritten hsite hgone h.error rfl (by simp [hnext, hold]) (by simp [hslot])
        (by simp [hslot])

/-- All sites that are left have their turns. -/
theorem IsPartway.foldl {rest : List Site} (h : recovery.IsPartway ledger moments cut had)
    (hledger : ledger.IsWritten) (hsites : ∀ site ∈ rest, ledger.site site.id = .ok site)
    (hnodup : ((had ++ rest).map (·.id)).Nodup) :
    (rest.foldl (Recovery.turn moments cut) recovery).IsPartway ledger moments cut
      (had ++ rest) := by
  induction rest generalizing recovery had with
  | nil =>
    rw [List.append_nil]
    exact h
  | cons site rest ih =>
    rw [List.append_cons] at hnodup ⊢
    have hgone : site.id ∉ had.map (·.id) := by
      intro hmem
      rw [List.map_append, List.map_append] at hnodup
      have hdisjoint := (List.nodup_append.1 (List.nodup_append.1 hnodup).1).2.2
      exact hdisjoint _ hmem _ (List.mem_singleton_self _) rfl
    have hturn := h.turn hledger (hsites site List.mem_cons_self) hgone
    exact ih hturn (fun other hother => hsites other (List.mem_cons_of_mem site hother)) hnodup

end

/-- Whether a grace is a span of time and there is a date so long ago. -/
structure HasRoom (now : Instant) (grace : Nat) : Prop where
  span : grace ≤ Jobs.longestSpan
  calendar : calendarStart ≤ now.second - grace

theorem cutoff_of_hasRoom {now : Instant} {grace : Nat} (h : HasRoom now grace) :
    cutoff now grace = .ok { now with second := now.second - grace } := by
  rw [cutoff, if_neg (Nat.not_lt.2 h.span)]
  exact if_neg (Int.not_lt.2 h.calendar)

/-- A recovery with a grace that the calendar has room for is through with all sites. -/
theorem isPartway_ofStore {store : Store} (h : store.ledger.IsWritten) {sites : List Site}
    (hsites : store.ledger.allSites = .ok sites) {moment : Moment} (moments : Int → Moment)
    {grace : Nat} (hgrace : grace ≤ Jobs.longestSpan)
    (hcalendar : calendarStart ≤ moment.now.second - grace) :
    (ofStore store moment moments grace).IsPartway
      (store.ledger.failStale moment.now interrupted).ledger moments
      { moment.now with second := moment.now.second - grace } sites := by
  have hwritten := Ledger.isWritten_failStale h moment.now interrupted
  have hcut := cutoff_of_hasRoom ⟨hgrace, hcalendar⟩
  have hall : (store.ledger.failStale moment.now interrupted).ledger.allSites = .ok sites := hsites
  have hstart : ({ store := store.commit (store.ledger.failStale moment.now interrupted) } :
      Recovery).IsPartway (store.ledger.failStale moment.now interrupted).ledger moments
        { moment.now with second := moment.now.second - grace } [] :=
    ⟨rfl, rfl, by simp [Store.commit], rfl, rfl⟩
  have hfold := hstart.foldl hwritten
    (fun site hmem => (hwritten.mem_allSites_iff hall site).1 hmem) (hwritten.nodup_allSites hall)
  unfold ofStore
  simp only [hcut]
  rw [show (store.commit (store.ledger.failStale moment.now interrupted)).ledger.allSites =
    .ok sites from hsites]
  exact hfold

theorem isKeyed_slots {sites : List Site} (h : (sites.map (·.id)).Nodup) (moments : Int → Moment)
    (cut : Instant) : Slots.IsKeyed (sites.filterMap (slot? moments cut)) := by
  induction sites with
  | nil => exact Slots.IsKeyed.nil
  | cons site rest ih =>
    obtain ⟨hgone, hrest⟩ := List.nodup_cons.1 h
    cases hslot : slot? moments cut site with
    | none =>
      rw [List.filterMap_cons_none hslot]
      exact ih hrest
    | some slot =>
      obtain ⟨next, -, rfl⟩ := Option.map_eq_some_iff.1 hslot
      rw [List.filterMap_cons_some hslot, Slots.isKeyed_cons_iff]
      refine ⟨?_, ih hrest⟩
      intro other hother hid
      obtain ⟨found, hfound, hslot⟩ := List.mem_filterMap.1 hother
      obtain ⟨next, -, rfl⟩ := Option.map_eq_some_iff.1 hslot
      exact hgone (List.mem_map.2 ⟨found, hfound, hid⟩)

theorem get?_slots {sites : List Site} (h : (sites.map (·.id)).Nodup) {site : Site}
    (hsite : site ∈ sites) (moments : Int → Moment) (cut : Instant) :
    (Slots.get? (sites.filterMap (slot? moments cut)) site.id) = site.renewed moments cut := by
  apply Option.ext
  intro due
  rw [← Slots.mem_iff_get?_eq_some (isKeyed_slots h moments cut), List.mem_filterMap]
  constructor
  · rintro ⟨found, hfound, hslot⟩
    obtain ⟨next, hnext, heq⟩ := Option.map_eq_some_iff.1 hslot
    obtain ⟨hid, rfl⟩ := Prod.mk.inj heq
    have hsame : found = site := Ledger.eq_of_nodup h hfound hsite hid
    rw [← hsame, hnext]
  · intro hnext
    exact ⟨site, hsite, Option.map_eq_some_iff.2 ⟨due, hnext, rfl⟩⟩

/-- A site that is not paused has its job. -/
theorem length_slots {sites : List Site}
    (h : ∀ site ∈ sites, site.paused = site.next.isNone) (moments : Int → Moment) (cut : Instant) :
    (sites.filterMap (slot? moments cut)).length = sites.countP fun site => !site.paused := by
  rw [List.length_filterMap_eq_countP]
  refine List.countP_congr fun site hsite => ?_
  rw [slot?, Option.isSome_map, Site.isSome_renewed, h site hsite, Option.not_isNone]

/-- Each site has the job that a recovery gives it, and there is no other job. -/
theorem IsPartway.pending {sites : List Site} {recovery : Recovery}
    (h : recovery.IsPartway ledger moments cut sites) (hnodup : (sites.map (·.id)).Nodup)
    (grace : Nat) {jobs : Slots}
    (hjobs : jobs = (recovery.orders.foldl Jobs.obey { grace }).pending) :
    (∀ site ∈ sites,
      jobs.filter (·.1 = site.id) = (site.renewed moments cut).toList.map (site.id, ·)) ∧
      ∀ slot ∈ jobs, ∃ site ∈ sites, site.id = slot.1 := by
  have hkeyed : (recovery.orders.foldl Jobs.obey { grace }).waiting.IsKeyed :=
    Jobs.isKeyed_waiting_foldl_obey Slots.IsKeyed.nil recovery.orders
  have hwaiting (siteId : Int) :
      ((recovery.orders.foldl Jobs.obey { grace }).standing siteId).waiting =
        Slots.get? (sites.filterMap (slot? moments cut)) siteId := by
    rw [h.orders, Jobs.standing_foldl_install (isKeyed_slots hnodup moments cut) rfl rfl]
    exact Option.or_none
  have hfilter (siteId : Int) : jobs.filter (·.1 = siteId) =
      (Slots.get? (sites.filterMap (slot? moments cut)) siteId).toList.map (siteId, ·) := by
    rw [hjobs, Jobs.filter_pending hkeyed, hwaiting]
  constructor
  · intro site hsite
    rw [hfilter, get?_slots hnodup hsite]
  · intro slot hslot
    have hmem : slot ∈ jobs.filter (·.1 = slot.1) := by simpa using hslot
    rw [hfilter] at hmem
    obtain ⟨due, hdue, -⟩ := List.mem_map.1 hmem
    have hget := (Slots.mem_iff_get?_eq_some (isKeyed_slots hnodup moments cut)).2
      (Option.mem_toList.1 hdue)
    obtain ⟨site, hsite, hslot⟩ := List.mem_filterMap.1 hget
    obtain ⟨next, -, heq⟩ := Option.map_eq_some_iff.1 hslot
    exact ⟨site, hsite, (Prod.mk.inj heq).1⟩

end Recovery

/-- A site before and after a recovery.  If it is paused, it is as it was and has no job.  Else its
one job is at the next run that is stored for it, to the millisecond, and that is another one than
before exactly if it was too old. -/
structure SiteRow.IsRecovered (moments : Int → Moment) (cut : Instant) (jobs : Slots) (site : Site)
    (row later : SiteRow) : Prop where
  read : row.site? = .ok site
  paused : site.paused = true → later = row ∧ jobs.filter (·.1 = row.id) = []
  active : site.paused = false → ∃ due,
    later = { row with next := some (millisText due) } ∧
      jobs.filter (·.1 = row.id) = [(row.id, due)] ∧
        if site.next.any (·.isBefore cut) then due = site.policy.drawAt (moments site.id)
        else site.next = some due ∧ later = row

theorem SiteRow.IsWritten.isRecovered {row : SiteRow} (h : row.IsWritten) {site : Site}
    (hsite : row.site? = .ok site) {moments : Int → Moment} {cut : Instant} {jobs : Slots}
    (hjobs : jobs.filter (·.1 = row.id) = (site.renewed moments cut).toList.map (row.id, ·)) :
    SiteRow.IsRecovered moments cut jobs site row (row.renewed moments cut) := by
  have hpaused : site.paused = site.next.isNone := by
    rw [h.paused_eq hsite, h.next_eq hsite, Option.isNone_map]
  refine ⟨hsite, fun hyes => ?_, fun hno => ?_⟩
  · rw [hyes, eq_comm, Option.isNone_iff_eq_none] at hpaused
    rw [hjobs, renewed_eq hsite, Site.renewed, hpaused]
    exact ⟨rfl, rfl⟩
  · rw [hno, eq_comm, Option.isNone_eq_false_iff, Option.isSome_iff_exists] at hpaused
    obtain ⟨next, hnext⟩ := hpaused
    rw [hjobs, renewed_eq hsite, Site.renewed]
    by_cases hold : site.next.any (·.isBefore cut) = true
    · rw [if_pos hold, if_pos hold]
      exact ⟨_, rfl, rfl, by rw [if_pos hold]⟩
    · have hstored : row.next = some (millisText next) := by rw [h.next_eq hsite, hnext]; rfl
      rw [if_neg hold, if_neg hold, hnext]
      refine ⟨next, by rw [← hstored], rfl, ?_⟩
      rw [hnext] at hold
      rw [if_neg hold]
      exact ⟨rfl, rfl⟩

/-- The number of installed jobs and the workshop after a recovery of a ledger at a moment. -/
structure Workshop.IsRecovered {σ : Type} (ledger : Ledger) (moment : Moment)
    (moments : Int → Moment) (grace : Nat)
    (recovered : Except RecoveryError Nat × Workshop σ) : Prop where
  /-- No attempt is open. -/
  closed : ∀ row ∈ recovered.2.around.store.ledger.history, row.isOpen = false
  /-- Only the attempts that were open have changed. -/
  history : recovered.2.around.store.ledger.history =
    ledger.history.map fun row => if row.isOpen then row.interrupted moment.now else row
  installed : ∃ sites, ledger.allSites = .ok sites ∧
    recovered.1 = .ok (sites.countP fun site => !site.paused)
  sites : List.Forall₂ (fun row later => ∃ site, SiteRow.IsRecovered moments
      { moment.now with second := moment.now.second - grace } recovered.2.pending site row later)
    ledger.sites recovered.2.around.store.ledger.sites
  /-- No other site has a job. -/
  others : ∀ slot ∈ recovered.2.pending, ∃ row ∈ ledger.sites, row.id = slot.1

namespace Workshop

variable {σ : Type}

/-- Wherever a process has been cut off, the next one recovers its store. -/
theorem isRecovered_of_course {workshop : Workshop σ} (hcourse : Course workshop)
    (hyears : workshop.around.store.ledger.HasPlainYears) (feed : Feed) {moment : Moment}
    (moments : Int → Moment) {grace : Nat} (hgrace : grace ≤ Jobs.longestSpan)
    (hcalendar : Recovery.calendarStart ≤ moment.now.second - grace) :
    IsRecovered workshop.around.store.ledger moment moments grace
      (((workshop.reentered feed).withEngine grace).recover moment moments grace) := by
  have hwritten := hcourse.isWritten
  obtain ⟨sites, hsites⟩ := hwritten.exists_allSites hyears
  have hnodup := hwritten.nodup_allSites hsites
  obtain ⟨store, hstore⟩ : ∃ store : Store, store = { workshop.around.store with feed } := ⟨_, rfl⟩
  have hledger : store.ledger = workshop.around.store.ledger := by rw [hstore]
  obtain ⟨recovery, hrecovery⟩ : ∃ recovery : Recovery,
      recovery = Recovery.ofStore store moment moments grace := ⟨_, rfl⟩
  have hrecover : ((workshop.reentered feed).withEngine grace).recover moment moments grace =
      (recovery.result, ⟨{ workshop.around with store := recovery.store },
        [(none, { jobs := { grace }, orders := recovery.orders })]⟩) := by
    rw [hrecovery, hstore]
    rfl
  rw [← hledger] at hwritten hsites
  have hpartway := Recovery.isPartway_ofStore hwritten hsites moments hgrace hcalendar
  rw [← hrecovery] at hpartway
  obtain ⟨hjobs, hothers⟩ := hpartway.pending hnodup grace rfl
  have hhistory : recovery.store.ledger.history =
      store.ledger.history.map fun row => if row.isOpen then row.interrupted moment.now else row :=
    hpartway.history
  rw [hrecover, ← hledger]
  refine ⟨?_, hhistory, ⟨sites, hsites, ?_⟩, ?_, ?_⟩
  · intro row hrow
    simp only [hhistory] at hrow
    obtain ⟨before, -, rfl⟩ := List.mem_map.1 hrow
    split
    · rfl
    · rename_i hclosed
      exact Bool.eq_false_iff.2 hclosed
  · rw [Recovery.result, hpartway.error, hpartway.installed, hpartway.orders, List.length_map,
      Recovery.length_slots]
    intro site hsite
    exact hwritten.paused_eq_isNone ((hwritten.mem_allSites_iff hsites site).1 hsite)
  · have hrows : (store.ledger.failStale moment.now Recovery.interrupted).ledger.sites =
        store.ledger.sites := rfl
    simp only [hpartway.sites, hrows, List.forall₂_map_right_iff, List.forall₂_same]
    intro row hrow
    obtain ⟨site, hread⟩ :=
      Ledger.isReadable_of_mapM_eq_ok (Ledger.mapError_unreadable_eq_ok.1 hsites) hrow
    have hsite : site ∈ sites :=
      (Ledger.mapM_eq_ok (Ledger.mapError_unreadable_eq_ok.1 hsites) site).2 ⟨row, hrow, hread⟩
    have hid : site.id = row.id := (SiteRow.site?_eq_ok hread).1
    rw [if_pos (List.mem_map.2 ⟨site, hsite, hid⟩)]
    exact ⟨site, (hwritten.rows row hrow).isRecovered hread (hid ▸ hjobs site hsite)⟩
  · intro slot hslot
    obtain ⟨site, hsite, hid⟩ := hothers slot hslot
    obtain ⟨row, hrow, hread⟩ :=
      Ledger.site_eq_ok_iff.1 ((hwritten.mem_allSites_iff hsites site).1 hsite)
    exact ⟨row, List.mem_of_find?_eq_some hrow, (SiteRow.site?_eq_ok hread).1.symm.trans hid⟩

/-- Two sites are added and the second one is paused.  An engine starts, and its process ends when
the attempt of the first site has entered its row.  A day later the next process closes that row and
draws the first site anew. -/
theorem recovered_after_cut_attempt :
    let moment (second : Int) : Moment := ⟨⟨second, 0⟩, .utc, []⟩
    let supply (second : Int) : Supply Unit := {
      server := fun _ _ => ⟨.error (.crashed "no browser"), (), 0⟩, timing := ⟨0, 0, 0, 0, 0, 0⟩
      moment := moment second, picture := "" }
    let first := (Operation.addSite .sample).applied (moment 1) { feed := { capacity := 1 } }
    let second := (Operation.addSite .sample).applied (moment 2) first
    let store := (Operation.setPaused 2 true).applied (moment 3) second
    let started := (Workshop.start (⟨{ store, browser := (), time := 0 }, []⟩ : Workshop Unit)
      (moment 10) (fun _ => moment 10) 60).2
    let cut := (((started.perform (supply 11) 0 .obey).perform (supply 12) 0 .fire).perform
      (supply 13) 0 (.proceed 0)).perform (supply 14) 0 (.proceed 0)
    let recovered := (((cut.reentered { capacity := 1 }).withEngine 60).recover (moment 86400)
      (fun _ => moment 86400) 60)
    cut.around.store.ledger.history.map (·.isOpen) = [true] ∧
      recovered.1 = .ok 1 ∧ recovered.2.pending = [(1, ⟨87000, 0⟩)] ∧
        IsRecovered cut.around.store.ledger (moment 86400) (fun _ => moment 86400) 60 recovered := by
  intro moment supply first second store started cut recovered
  have hopen : cut.around.store.ledger.history.map (·.isOpen) = [true] := by decide +kernel
  have hresult : recovered.1 = .ok 1 := by decide +kernel
  have hpending : recovered.2.pending = [(1, ⟨87000, 0⟩)] := by decide +kernel
  have hnexts : cut.around.store.ledger.sites.map (·.next) =
      [some (millisText ⟨614, 0⟩), none] := by decide +kernel
  have hnano (second : Int) : (moment second).now.nano < nanosPerSecond := Nat.zero_lt_succ _
  have hrecovered : ((cut.reentered { capacity := 1 }).withEngine 60).recover (moment 86400)
      (fun _ => moment 86400) 60 = recovered := rfl
  let around (store : Store) : Surroundings Unit := { store, browser := (), time := 0 }
  have hfirst : Course ⟨around first, []⟩ :=
    (Course.opened rfl : Course ⟨around { feed := { capacity := 1 } }, []⟩).operated
      (.addSite .sample) (moment 1) (hnano 1)
  clear_value recovered first
  have hsecond : Course ⟨around second, []⟩ :=
    hfirst.operated (.addSite .sample) (moment 2) (hnano 2)
  clear_value second
  have hstore : Course ⟨around store, []⟩ :=
    hsecond.operated (.setPaused 2 true) (moment 3) (hnano 3)
  clear_value store
  have hstarted : Course started := hstore.started (moment 10) (fun _ => hnano 10) 60
  clear_value started
  have hcourse : Course cut := by
    have hfired := (hstarted.performed (supply 11) (hnano 11) 0 .obey).performed (supply 12)
      (hnano 12) 0 .fire
    have hloaded := hfired.performed (supply 13) (hnano 13) 0 (.proceed 0)
    exact hloaded.performed (supply 14) (hnano 14) 0 (.proceed 0)
  clear_value cut
  have hyears : cut.around.store.ledger.HasPlainYears := by
    intro row hrow text htext
    have hmem : row.next ∈ cut.around.store.ledger.sites.map (·.next) := List.mem_map_of_mem hrow
    rw [hnexts, htext] at hmem
    rcases List.mem_cons.1 hmem with hfirst | hsecond
    · exact ⟨⟨614, 0⟩, Nat.zero_lt_succ _, by decide, Option.some.inj hfirst⟩
    · cases List.mem_singleton.1 hsecond
  have hgrace : 60 ≤ Jobs.longestSpan := by decide
  have hcalendar : Recovery.calendarStart ≤ (moment 86400).now.second - (60 : Nat) := by decide
  have h := isRecovered_of_course hcourse hyears { capacity := 1 } (fun _ => moment 86400) hgrace
    hcalendar
  rw [hrecovered] at h
  exact ⟨hopen, hresult, hpending, h⟩

end Workshop

end KeepAlive
