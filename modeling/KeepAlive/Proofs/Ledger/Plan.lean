import KeepAlive.Proofs.Ledger.Soundness
import KeepAlive.Proofs.Policy.Ahead
import KeepAlive.Proofs.Time.Order

/-!
# Planned runs

The plan of a site is the next run that is stored for it.  An operation that changes the plan of a
site announces an event about that site, and gives it a run that is due now or in a later second.  An
event that withdraws a site is announced only when the site is left without a plan.
-/

namespace KeepAlive

open Time

/-- An event that a site is to lose its job for. -/
def Event.IsWithdrawal : Event → Prop
  | .siteDeleted _ => True
  | .sitePaused _ paused => paused = true
  | _ => False

namespace Moment

/-- A moment in a zone of one offset, not in a leap second. -/
structure IsAt (offset : Int) (moment : Moment) : Prop where
  zone : moment.zone = .fixed offset
  nano : moment.now.nano < nanosPerSecond

/-- The next runs that are given at a moment: the present, and what lies in a later second. -/
def Gives (moment : Moment) (next : Instant) : Prop :=
  next.nano < nanosPerSecond ∧ (next = moment.now ∨ moment.now.second < next.second)

theorem IsAt.gives_now {offset : Int} {moment : Moment} (h : moment.IsAt offset) :
    moment.Gives moment.now :=
  ⟨h.nano, Or.inl rfl⟩

theorem IsAt.gives_drawAt {offset : Int} {moment : Moment} (h : moment.IsAt offset)
    {policy : Policy} (hpolicy : 1 ≤ policy.fields.dateStart.toNat) :
    moment.Gives (policy.drawAt moment) := by
  unfold Policy.drawAt
  rw [h.zone]
  exact ⟨Policy.nano_nextRunAfter_lt policy _ h.nano moment.words,
    Or.inr (Policy.second_lt_nextRunAfter policy (Or.inl hpolicy) offset moment.now moment.words)⟩

/-- What is given at a tick of the clock comes after all that was due before the tick. -/
theorem Gives.isBefore {moment : Moment} {next : Instant} (h : moment.Gives next)
    {before instant : Instant} (hticks : before.Ticks moment.now)
    (hinstant : instant.isUpTo before = true) : instant.isBefore next.truncated = true := by
  obtain ⟨-, rfl | hlater⟩ := h
  · exact hticks.isBefore_truncated hinstant
  · have hinstant := Instant.isUpTo_iff.1 hinstant
    have hle := hticks.second_le
    apply Instant.isBefore_of_second_lt
    rw [Instant.second_truncated]
    omega

end Moment

namespace SiteRow

/-- The row with a next run, or paused without one. -/
def planned (next : Option Instant) (row : SiteRow) : SiteRow :=
  { row with paused := .ofBool next.isNone, next := next.map millisText }

theorem IsWritten.planned {row : SiteRow} (h : row.IsWritten) {next : Option Instant}
    (hnext : ∀ instant, next = some instant → instant.nano < nanosPerSecond) :
    (row.planned next).IsWritten := by
  refine ⟨h.policy, ?_, h.takeScreenshot, ?_, h.addedAt⟩
  · simp [SiteRow.planned]
  · intro text htext
    obtain ⟨instant, hinstant, rfl⟩ := Option.map_eq_some_iff.1 htext
    exact ⟨instant, hnext instant hinstant, rfl⟩

theorem IsSound.planned {row : SiteRow} (h : row.IsSound) {next : Option Instant}
    (hnext : ∀ instant, next = some instant → instant.nano < nanosPerSecond) :
    (row.planned next).IsSound :=
  ⟨h.toIsWritten.planned hnext, h.ahead⟩

theorem IsWritten.withEdit {row : SiteRow} (h : row.IsWritten) (site : Site) :
    (row.withEdit site).IsWritten :=
  ⟨⟨site.policy, policy?_withFields _ site.policy⟩, h.paused, ⟨_, rfl⟩, h.next, h.addedAt⟩

theorem IsSound.withEdit {row : SiteRow} (h : row.IsSound) {site : Site}
    (hsite : 1 ≤ site.policy.fields.dateStart.toNat) : (row.withEdit site).IsSound := by
  refine ⟨h.toIsWritten.withEdit site, fun policy hpolicy => ?_⟩
  have hsame : (row.withEdit site).policy? = .ok site.policy := policy?_withFields _ site.policy
  rw [hsame] at hpolicy
  cases hpolicy
  exact hsite

end SiteRow

namespace Ledger

/-- The next run that is stored for a site. -/
def plan (ledger : Ledger) (siteId : Int) : Option String :=
  (ledger.sites.find? (·.id = siteId)).bind (·.next)

/-- The plan of a site, if it has one, was given at a moment. -/
def IsPlannedAt (ledger : Ledger) (moment : Moment) (siteId : Int) : Prop :=
  ∀ text, ledger.plan siteId = some text → ∃ next, moment.Gives next ∧ text = millisText next

/-- A change keeps the ledger sound and announces what it does to the plans of sites. -/
structure Tracks {α : Type} (ledger : Ledger) (moment : Moment) (change : Change α) : Prop where
  isSound : change.ledger.IsSound
  plan : ∀ siteId, change.ledger.plan siteId = ledger.plan siteId ∨
    (change.ledger.IsPlannedAt moment siteId ∧ ∃ event ∈ change.events, event.siteId = siteId)
  withdrawn : ∀ event ∈ change.events, event.IsWithdrawal →
    change.ledger.plan event.siteId = none

theorem Tracks.of_plan_eq {α : Type} {ledger other : Ledger} {moment : Moment} {change : Change α}
    (h : other.Tracks moment change) (hplan : ∀ siteId, other.plan siteId = ledger.plan siteId) :
    ledger.Tracks moment change := by
  refine ⟨h.isSound, ?_, h.withdrawn⟩
  intro siteId
  rw [← hplan siteId]
  exact h.plan siteId

theorem plan_congr {ledger other : Ledger} (h : other.sites = ledger.sites) (siteId : Int) :
    other.plan siteId = ledger.plan siteId := by
  rw [plan, h, plan]

theorem plan_withSite_of_ne {ledger : Ledger} {id key : Int} {change : SiteRow → SiteRow}
    (hid : ∀ row, (change row).id = row.id) (h : key ≠ id) :
    (ledger.withSite id change).plan key = ledger.plan key := by
  simp only [plan, withSite, find?_changed hid]
  cases hrow : ledger.sites.find? (·.id = key) with
  | none => rfl
  | some row =>
    have hkey : row.id = key := by simpa using List.find?_some hrow
    simp [hkey, h]

theorem plan_withSite_of_next {ledger : Ledger} {id : Int} {change : SiteRow → SiteRow}
    (hid : ∀ row, (change row).id = row.id) (hnext : ∀ row, (change row).next = row.next)
    (key : Int) : (ledger.withSite id change).plan key = ledger.plan key := by
  simp only [plan, withSite, find?_changed hid]
  cases hrow : ledger.sites.find? (·.id = key) with
  | none => rfl
  | some row =>
    by_cases hkey : row.id = id <;> simp [hkey, hnext]

theorem plan_planned_self (ledger : Ledger) (id : Int) (next : Option Instant) :
    (ledger.withSite id (SiteRow.planned next)).plan id =
      (ledger.sites.find? (·.id = id)).bind fun _ => next.map millisText := by
  have hid : ∀ row : SiteRow, (row.planned next).id = row.id := fun _ => rfl
  simp only [plan, withSite, find?_changed hid]
  cases hrow : ledger.sites.find? (·.id = id) with
  | none => rfl
  | some row =>
    have hkey : row.id = id := by simpa using List.find?_some hrow
    simp [hkey, SiteRow.planned]

theorem isPlannedAt_planned (ledger : Ledger) (id : Int) {moment : Moment}
    {next : Option Instant} (h : ∀ instant, next = some instant → moment.Gives instant) :
    (ledger.withSite id (SiteRow.planned next)).IsPlannedAt moment id := by
  intro text htext
  rw [plan_planned_self] at htext
  obtain ⟨-, -, htext⟩ := Option.bind_eq_some_iff.1 htext
  obtain ⟨instant, hinstant, rfl⟩ := Option.map_eq_some_iff.1 htext
  exact ⟨instant, h instant hinstant, rfl⟩

/-- A next run that fits the pause of its site is stored as a plan. -/
theorem withNext_eq_planned {ledger : Ledger} {id : Int} {next : Option Instant}
    (h : ∀ row ∈ ledger.sites, row.id = id → row.paused = .ofBool next.isNone) :
    ledger.withNext id next = ledger.withSite id (SiteRow.planned next) := by
  simp only [withNext, withSite]
  congr 1
  apply List.map_congr_left
  intro row hmem
  split
  · rename_i hid
    rw [SiteRow.planned, ← h row hmem hid]
  · rfl

theorem isNone_drawn (site : Site) (moment : Moment) :
    (drawn site moment).isNone = site.paused := by
  unfold drawn
  cases site.paused <;> rfl

theorem id_of_site {ledger : Ledger} {id : Int} {site : Site} (hsite : ledger.site id = .ok site) :
    site.id = id := by
  obtain ⟨row, hrow, hread⟩ := site_eq_ok_iff.1 hsite
  have hkey : row.id = id := by simpa using List.find?_some hrow
  exact (SiteRow.site?_eq_ok hread).1.trans hkey

/-- What is read of a site comes from its row. -/
theorem IsWritten.of_site {ledger : Ledger} (h : ledger.IsWritten) {id : Int} {site : Site}
    (hsite : ledger.site id = .ok site) :
    site.id = id ∧
      ∃ row, ledger.sites.find? (·.id = id) = some row ∧ row.IsWritten ∧ row.site? = .ok site := by
  obtain ⟨row, hrow, hread⟩ := site_eq_ok_iff.1 hsite
  exact ⟨id_of_site hsite, row, hrow, h.rows row (List.mem_of_find?_eq_some hrow), hread⟩

/-- What is read of a site comes from its sound row. -/
theorem IsSound.of_site {ledger : Ledger} (h : ledger.IsSound) {id : Int} {site : Site}
    (hsite : ledger.site id = .ok site) :
    site.id = id ∧ 1 ≤ site.policy.fields.dateStart.toNat ∧
      ∃ row, ledger.sites.find? (·.id = id) = some row ∧ row.IsSound ∧ row.site? = .ok site := by
  obtain ⟨hid, row, hrow, -, hread⟩ := h.toIsWritten.of_site hsite
  have hsound := h.row (List.mem_of_find?_eq_some hrow)
  obtain ⟨-, hpolicy, -⟩ := SiteRow.site?_eq_ok hread
  exact ⟨hid, hsound.ahead _ hpolicy, row, hrow, hsound, hread⟩

/-- The next run of a site that is read is read from its plan. -/
theorem exists_plan_of_site {ledger : Ledger} {id : Int} {site : Site}
    (hsite : ledger.site id = .ok site) {next : Instant} (hnext : site.next = some next) :
    ∃ text, ledger.plan id = some text ∧ storedInstant? 13 text = .ok next := by
  obtain ⟨row, hrow, hread⟩ := site_eq_ok_iff.1 hsite
  obtain ⟨-, -, hstored, -⟩ := SiteRow.site?_eq_ok hread
  rw [hnext] at hstored
  cases htext : row.next with
  | none =>
    rw [htext] at hstored
    cases hstored
  | some text =>
    refine ⟨text, by rw [plan, hrow, ← htext]; rfl, ?_⟩
    rw [htext, storedInstantOrNone?] at hstored
    cases hread : storedInstant? 13 text with
    | error cause => simp [hread, Except.map] at hstored
    | ok instant =>
      rw [hread] at hstored
      cases hstored
      rfl

/-- A site whose plan can be read can be read. -/
theorem IsWritten.exists_site_of_plan {ledger : Ledger} (h : ledger.IsWritten) {id : Int}
    {text : String} (hplan : ledger.plan id = some text) {next : Instant}
    (hnext : storedInstant? 13 text = .ok next) :
    ∃ site, ledger.site id = .ok site ∧ site.paused = false ∧ site.next = some next := by
  obtain ⟨row, hrow, htext⟩ := Option.bind_eq_some_iff.1 hplan
  have hstored : storedInstantOrNone? 13 row.next = .ok (some next) := by
    rw [htext, storedInstantOrNone?, hnext]
    rfl
  have hwritten := h.rows row (List.mem_of_find?_eq_some hrow)
  obtain ⟨site, hread⟩ := hwritten.exists_site? hstored
  obtain ⟨-, -, hsame, -⟩ := SiteRow.site?_eq_ok hread
  refine ⟨site, site_eq_ok_iff.2 ⟨row, hrow, hread⟩, ?_, ?_⟩
  · rw [hwritten.paused_eq hread, htext]
    rfl
  · rw [hstored] at hsame
    exact (Except.ok.inj hsame).symm

/-- A paused site has no plan, and one that is not paused has one. -/
theorem IsWritten.isNone_plan {ledger : Ledger} (h : ledger.IsWritten) {id : Int} {site : Site}
    (hsite : ledger.site id = .ok site) : (ledger.plan id).isNone = site.paused := by
  obtain ⟨-, row, hrow, hwritten, hread⟩ := h.of_site hsite
  rw [plan, hrow, hwritten.paused_eq hread]
  rfl

theorem IsWritten.paused_of_site {ledger : Ledger} (h : ledger.IsWritten) {id : Int} {site : Site}
    (hsite : ledger.site id = .ok site) {row : SiteRow} (hmem : row ∈ ledger.sites)
    (hid : row.id = id) : row.paused = .ofBool site.paused := by
  obtain ⟨-, found, hfound, hwritten, hread⟩ := h.of_site hsite
  have hsame := find?_of_nodup h.sites_nodup hmem
  rw [hid, hfound] at hsame
  cases hsame
  rw [hwritten.paused, hwritten.paused_eq hread]

theorem gives_drawn {offset : Int} {moment : Moment} (hat : moment.IsAt offset) {site : Site}
    (hsite : 1 ≤ site.policy.fields.dateStart.toNat) {instant : Instant}
    (h : drawn site moment = some instant) : moment.Gives instant := by
  unfold drawn at h
  split at h
  · cases h
  · cases h
    exact hat.gives_drawAt hsite

end Ledger

end KeepAlive
