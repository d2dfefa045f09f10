import KeepAlive.Proofs.Engine.Recovering
import KeepAlive.Proofs.Ledger.Leaving
import KeepAlive.Proofs.Ledger.Sparing
import KeepAlive.Proofs.Policy.Reach

/-!
# Sites that can be read

A site is stored with its next run, and the store cannot read a run back whose year has more than four
digits.  One such row hides all sites from whoever goes through them.  Whether it comes to that depends
on the policies alone: the sites of a store can be read, whatever it has been asked for in the years
from 2000 to 2100, if and only if no policy can draw a run so far ahead.
-/

namespace KeepAlive

open Time

/-- The policies of a row are among the allowed ones, and its next run can be read back. -/
structure SiteRow.IsPlain (row : SiteRow) (allowed : Policy → Prop) : Prop where
  policy : ∀ policy, row.policy? = .ok policy → allowed policy
  next : ∀ text, row.next = some text →
    ∃ next : Instant, next.nano < nanosPerSecond ∧ next.HasPlainYear ∧ text = millisText next

theorem SiteRow.IsPlain.withNext {row later : SiteRow} {allowed : Policy → Prop}
    (h : row.IsPlain allowed) (hpolicy : later.policy? = row.policy?) {next : Option Instant}
    (hlater : later.next = next.map millisText)
    (hnext : ∀ instant, next = some instant →
      instant.nano < nanosPerSecond ∧ instant.HasPlainYear) : later.IsPlain allowed := by
  constructor
  · intro policy hread
    exact h.policy policy (hpolicy.symm.trans hread)
  · intro text htext
    rw [hlater] at htext
    obtain ⟨instant, hinstant, rfl⟩ := Option.map_eq_some_iff.1 htext
    obtain ⟨hnano, hyear⟩ := hnext instant hinstant
    exact ⟨instant, hnano, hyear, rfl⟩

/-- Every policy that an operation brings in is among the allowed ones. -/
def Operation.BringsOnly (allowed : Policy → Prop) : Operation → Prop
  | .addSite new => allowed new.policy
  | .updateSite _ edit => ∀ policy, edit.policy = some policy → allowed policy
  | _ => True

namespace Ledger

/-- What holds of the rows of sites is kept when a change of one of them keeps it. -/
theorem forall_withSite {ledger : Ledger} {id : Int} {change : SiteRow → SiteRow}
    {Kept : SiteRow → Prop} (h : ∀ row ∈ ledger.sites, Kept row)
    (hchange : ∀ row, Kept row → Kept (change row)) :
    ∀ row ∈ (ledger.withSite id change).sites, Kept row := by
  intro row hmem
  obtain ⟨before, hbefore, rfl⟩ := List.mem_map.1 hmem
  split
  · exact hchange before (h before hbefore)
  · exact h before hbefore

section

variable {ledger : Ledger} {allowed : Policy → Prop} {moment : Moment}

theorem allowed_of_site (h : ∀ row ∈ ledger.sites, row.IsPlain allowed) {id : Int} {site : Site}
    (hsite : ledger.site id = .ok site) : allowed site.policy := by
  obtain ⟨row, hrow, hread⟩ := site_eq_ok_iff.1 hsite
  obtain ⟨-, hpolicy, -⟩ := SiteRow.site?_eq_ok hread
  exact (h row (List.mem_of_find?_eq_some hrow)).policy site.policy hpolicy

theorem isPlain_withNext (h : ∀ row ∈ ledger.sites, row.IsPlain allowed) (id : Int)
    {next : Option Instant} (hnext : ∀ instant, next = some instant →
      instant.nano < nanosPerSecond ∧ instant.HasPlainYear) :
    ∀ row ∈ (ledger.withNext id next).sites, row.IsPlain allowed := by
  apply forall_withSite h
  intro row hrow
  exact hrow.withNext rfl rfl hnext

theorem drawn_plain (hallowed : ∀ policy, allowed policy → policy.StaysPlain) (hera : moment.IsOfEra)
    {site : Site} (hpolicy : allowed site.policy) (instant : Instant)
    (hdrawn : drawn site moment = some instant) :
    instant.nano < nanosPerSecond ∧ instant.HasPlainYear := by
  refine ⟨nano_drawn_lt hera.nano hdrawn, ?_⟩
  unfold drawn at hdrawn
  split at hdrawn
  · cases hdrawn
  · cases hdrawn
    exact hallowed site.policy hpolicy moment hera

section

variable (h : ∀ row ∈ ledger.sites, row.IsPlain allowed) {id : Int} {edit : SiteEdit} {site : Site}
variable (hsite : ledger.site id = .ok site)
variable (hbrings : ∀ policy, edit.policy = some policy → allowed policy)

include h hsite hbrings

theorem allowed_edited : allowed (site.edited edit).policy := by
  simp only [Site.edited]
  cases hpolicy : edit.policy with
  | none => exact allowed_of_site h hsite
  | some policy => exact hbrings policy hpolicy

theorem isPlain_withEdit :
    ∀ row ∈ (ledger.withSite id (·.withEdit (site.edited edit))).sites, row.IsPlain allowed := by
  apply forall_withSite h
  intro row hrow
  constructor
  · intro policy hread
    have hsame : (row.withEdit (site.edited edit)).policy? = .ok (site.edited edit).policy :=
      SiteRow.policy?_withFields _ _
    rw [hsame] at hread
    cases hread
    exact allowed_edited h hsite hbrings
  · exact hrow.next

end

end

end Ledger

/-- In the years from 2000 to 2100 no operation stores a next run that cannot be read back, if no
policy draws one. -/
theorem Operation.Leaves.isPlain {ledger after : Ledger} {moment : Moment} {operation : Operation}
    {events : List Event} {allowed : Policy → Prop}
    (hleaves : operation.Leaves ledger moment after events)
    (hallowed : ∀ policy, allowed policy → policy.StaysPlain) (hera : moment.IsOfEra)
    (hbrings : operation.BringsOnly allowed) (h : ∀ row ∈ ledger.sites, row.IsPlain allowed) :
    ∀ row ∈ after.sites, row.IsPlain allowed := by
  have hnow : ∀ instant, some moment.now = some instant →
      instant.nano < nanosPerSecond ∧ instant.HasPlainYear := by
    rintro _ ⟨rfl⟩
    exact ⟨hera.nano, hera.hasPlainYear⟩
  induction hleaves with
  | @added new id _ _ _ =>
    intro row hmem
    rcases Ledger.mem_placed.1 hmem with rfl | ⟨hmem, -⟩
    · constructor
      · intro policy hread
        rw [SiteRow.policy?_ofNew] at hread
        cases hread
        exact hbrings
      · intro text htext
        simp only [SiteRow.ofNew] at htext
        split at htext
        · cases htext
        · exact ⟨moment.now, hera.nano, hera.hasPlainYear, (Option.some.inj htext).symm⟩
    · exact h row hmem
  | edited hsite _ _ => exact Ledger.isPlain_withEdit h hsite hbrings
  | replanned hsite _ _ _ =>
    apply Ledger.isPlain_withNext (Ledger.isPlain_withEdit h hsite hbrings)
    exact Ledger.drawn_plain hallowed hera (Ledger.allowed_edited h hsite hbrings)
  | unmoved _ => exact h
  | switched hsite _ =>
    apply Ledger.forall_withSite h
    intro row hrow
    refine hrow.withNext rfl rfl ?_
    have hpolicy := Ledger.allowed_of_site h hsite
    exact Ledger.drawn_plain hallowed hera hpolicy
  | triggered _ _ => exact Ledger.isPlain_withNext h _ hnow
  | rescheduled hsite =>
    apply Ledger.isPlain_withNext h
    exact Ledger.drawn_plain hallowed hera (Ledger.allowed_of_site h hsite)
  | deleted _ =>
    intro row hmem
    exact h row (List.mem_filter.1 hmem).1
  | entered hsite _ =>
    apply Ledger.isPlain_withNext h
    exact Ledger.drawn_plain hallowed hera (Ledger.allowed_of_site h hsite)
  | finished _ _ hsite =>
    apply Ledger.isPlain_withNext h
    exact Ledger.drawn_plain hallowed hera (Ledger.allowed_of_site h hsite)
  | missed _ => exact h
  | failed _ _ ih => exact ih trivial
  | closed => exact h
  | reconciled _ _ ih => exact ih trivial
  | recorded _ _ ih => exact ih trivial

/-- A recovery that does not know what is too old has not come to read anything. -/
theorem Recovery.cutoff_eq_error {now : Instant} {grace : Nat}
    (h : ¬(grace ≤ Jobs.longestSpan ∧ calendarStart ≤ now.second - grace)) :
    ∃ error, cutoff now grace = .error error ∧ ∀ refusal, error ≠ .refused refusal := by
  unfold cutoff
  split
  · exact ⟨_, rfl, nofun⟩
  · rename_i hgrace
    have hcalendar : now.second - grace < calendarStart := by
      refine Int.not_le.1 fun hle => ?_
      exact h ⟨Nat.not_lt.1 hgrace, hle⟩
    exact ⟨_, if_pos hcalendar, nofun⟩

/-- All sites of a store can be read, one by one and together, by a recovery and by a follower that
goes through them. -/
structure Store.IsLegible (store : Store) : Prop where
  site : ∀ row ∈ store.ledger.sites, ∃ site, store.ledger.site row.id = .ok site
  allSites : ∃ sites, store.ledger.allSites = .ok sites
  recovery : ∀ moment moments grace cause,
    (Recovery.ofStore store moment moments grace).error ≠ some (.refused (.unreadable cause))
  resync : ∀ (engine : Engine) follower, engine.follower = some follower →
    ∃ sites, ((engine.resync store.ledger).follower.bind (·.snapshot)) = some sites

namespace Store

variable {store : Store} {allowed : Policy → Prop} {moment : Moment}

/-- Whoever reads the sites of a ledger that only the library has written can go on if all of them can
be read together. -/
theorem isLegible_of_allSites (hwritten : store.ledger.IsWritten) {sites : List Site}
    (hsites : store.ledger.allSites = .ok sites) : store.IsLegible := by
  constructor
  · exact fun row => hwritten.exists_site hsites
  · exact ⟨sites, hsites⟩
  · intro moment moments grace cause
    by_cases hcut : grace ≤ Jobs.longestSpan ∧ Recovery.calendarStart ≤ moment.now.second - grace
    · have hpartway := Recovery.isPartway_ofStore hwritten hsites moments hcut.1 hcut.2
      rw [hpartway.error]
      exact nofun
    · obtain ⟨error, herror, hother⟩ := Recovery.cutoff_eq_error hcut
      simp only [Recovery.ofStore, herror]
      intro h
      exact hother _ (Option.some.inj h)
  · intro engine follower hfollower
    refine ⟨sites, ?_⟩
    rw [Engine.resync, hfollower]
    simp only [Engine.beginResync, hsites]
    rfl

/-- No site of such a store has a next run in a year that cannot be read back. -/
theorem IsLegible.hasPlainYear_of_plan (h : store.IsLegible) {siteId : Int} {instant : Instant}
    (hplan : store.ledger.plan siteId = some (millisText instant)) : instant.HasPlainYear := by
  obtain ⟨row, hrow, hnext⟩ := Option.bind_eq_some_iff.1 hplan
  have hid : row.id = siteId := by simpa using List.find?_some hrow
  obtain ⟨site, hsite⟩ := h.site row (List.mem_of_find?_eq_some hrow)
  obtain ⟨found, hfound, hread⟩ := Ledger.site_eq_ok_iff.1 hsite
  rw [hid, hrow] at hfound
  cases hfound
  obtain ⟨-, -, hstored, -⟩ := SiteRow.site?_eq_ok hread
  rw [hnext] at hstored
  exact hasPlainYear_of_storedInstantOrNone? hstored

theorem isLegible_run (hallowed : ∀ policy, allowed policy → policy.StaysPlain) (feed : Feed)
    {steps : Steps} (hsteps : ∀ step ∈ steps, step.1.IsOfEra ∧ step.2.BringsOnly allowed) :
    (run { feed } steps).IsLegible := by
  have hkept : (run { feed } steps).ledger.IsWritten ∧
      ∀ row ∈ (run { feed } steps).ledger.sites, row.IsPlain allowed := by
    apply run_induction
      (fun store => store.ledger.IsWritten ∧ ∀ row ∈ store.ledger.sites, row.IsPlain allowed)
    · rintro store ⟨hwritten, hplain⟩ step hmem
      obtain ⟨hera, hbrings⟩ := hsteps step hmem
      refine ⟨isWritten_applied hwritten hera.nano step.2, ?_⟩
      obtain hrefused | ⟨change, hleaves, hcommit⟩ := step.2.applied_leaves step.1 store
      · rw [hrefused]
        exact hplain
      · rw [hcommit]
        exact hleaves.isPlain hallowed hera hbrings hplain
    · exact ⟨.empty, fun _ h => absurd h List.not_mem_nil⟩
  obtain ⟨hwritten, hplain⟩ := hkept
  obtain ⟨sites, hsites⟩ := hwritten.exists_allSites fun row hmem => (hplain row hmem).next
  exact isLegible_of_allSites hwritten hsites

/-- The first site of a store. -/
theorem applied_addSite (hera : moment.IsOfEra) {new : NewSite} (hscript : new.script = none)
    (feed : Feed) : ((Operation.addSite new).applied moment { feed }).ledger =
      { sites := [SiteRow.ofNew 1 moment.now new] } := by
  obtain ⟨site, hsite, -⟩ := SiteRow.exists_site?_ofNew hera.nano hera.hasPlainYear 1 new
  generalize hrow : SiteRow.ofNew 1 moment.now new = row at hsite ⊢
  have hid : row.id = 1 := by
    rw [← hrow]
    rfl
  have hfound : Ledger.site { sites := [row] } 1 = .ok site := by
    refine Ledger.site_eq_ok_iff.2 ⟨row, ?_, hsite⟩
    exact List.find?_cons_of_pos (by simpa using hid)
  have hchange : (Operation.addSite new).change moment {} =
      .ok ⟨(), { sites := [row] }, [.siteCreated site.id]⟩ := by
    have hcheck : Ledger.checkScript new.script = .ok () := by
      rw [hscript]
      rfl
    have hfirst : Ledger.nextId [] = 1 := rfl
    have hplaced : Ledger.placed (·.id) row [] = [row] := rfl
    simp only [Operation.change, Ledger.addSite, hcheck, List.map_nil, hfirst, hrow, hplaced, hfound,
      bind, Except.bind]
    rfl
  rw [Operation.applied, perform_of_ok hchange]
  rfl

/-- A site is added and drawn anew at a moment at which its policy draws a run too far ahead. -/
theorem exists_run_not_isLegible {policy : Policy} (hera : moment.IsOfEra)
    (hyear : ¬(policy.drawAt moment).HasPlainYear) (feed : Feed) :
    ¬(run { feed } [(moment, .addSite { NewSite.sample with policy }),
      (moment, .reschedule 1)]).IsLegible := by
  obtain ⟨new, hnew⟩ : ∃ new : NewSite, new = { NewSite.sample with policy } := ⟨_, rfl⟩
  have hadded : ((Operation.addSite new).applied moment { feed }).ledger =
      { sites := [SiteRow.ofNew 1 moment.now new] } := applied_addSite hera (by rw [hnew]; rfl) feed
  obtain ⟨site, hread, hpolicy, hpaused⟩ :=
    SiteRow.exists_site?_ofNew hera.nano hera.hasPlainYear 1 new
  rw [← hnew, run_cons, run_cons]
  generalize (Operation.addSite new).applied moment { feed } = store at hadded ⊢
  have hsite : store.ledger.site 1 = .ok site := by
    rw [hadded]
    exact Ledger.site_eq_ok_iff.2 ⟨_, rfl, hread⟩
  intro hlegible
  have hchange : (Operation.reschedule 1).change moment store.ledger =
      .ok ⟨(), store.ledger.withNext 1 (Ledger.drawn site moment),
        if site.paused then [] else [.siteRescheduled 1]⟩ := by
    simp only [Operation.change, Ledger.reschedule, hsite, bind, Except.bind]
    rfl
  rw [Operation.applied, perform_of_ok hchange] at hlegible
  have hdrawn : Ledger.drawn site moment = some (policy.drawAt moment) := by
    rw [Ledger.drawn, hpaused, hpolicy, hnew]
    rfl
  have hplan := Ledger.plan_withNext_self hsite (Ledger.drawn site moment)
  rw [hdrawn] at hplan hlegible
  exact hyear (hlegible.hasPlainYear_of_plan hplan)

/-- The sites of a new store can be read, whatever it is asked for in the years from 2000 to 2100, if
and only if no policy that comes in can draw a run beyond the year 9999.  No policy can that stays
four days below the minutes that are left after the year 2100, and every one can that exceeds them. -/
theorem isLegible_iff_staysPlain (allowed : Policy → Prop) :
    ((∀ (feed : Feed) (steps : Steps),
      (∀ step ∈ steps, step.1.IsOfEra ∧ step.2.BringsOnly allowed) →
        (run { feed } steps).IsLegible) ↔
      ∀ policy, allowed policy → policy.StaysPlain) ∧
      (∀ policy : Policy, policy.fields.lastMinute.toNat + 4 * minutesPerDay ≤ Policy.minutesLeft →
        policy.StaysPlain) ∧
      (∀ policy : Policy, Policy.minutesLeft < policy.fields.lastMinute.toNat →
        ¬policy.StaysPlain) ∧
      Policy.minutesLeft = 2885050 * minutesPerDay := by
  refine ⟨?_, fun _ => Policy.staysPlain_of_le, fun _ => Policy.not_staysPlain_of_lt, by decide⟩
  constructor
  · intro hlegible policy hpolicy moment hera
    refine Classical.byContradiction fun hyear => ?_
    apply exists_run_not_isLegible hera hyear { capacity := 1 }
    apply hlegible
    simp only [List.forall_mem_cons, List.not_mem_nil, false_implies, implies_true, and_true]
    exact ⟨⟨hera, hpolicy⟩, hera, trivial⟩
  · intro hallowed feed steps hsteps
    exact isLegible_run hallowed feed hsteps

/-- Of two sites the second one may run as late as a policy allows.  It is drawn anew, and then it
cannot be read, nor can both be read together, and the next recovery breaks off. -/
theorem all_sites_hidden_by_far_run :
    let moment (second : Int) : Moment := ⟨⟨1700000000 + second, 0⟩, .utc, []⟩
    let steps : Steps := [
      (moment 1, .addSite NewSite.sample),
      (moment 2, .addSite { NewSite.sample with policy := .minutesAhead 4294967295 }),
      (moment 3, .reschedule 2)]
    let store := run { feed := { capacity := 1 } } steps
    let conversion := Refusal.unreadable (.badStamp 13 .invalid)
    (∀ step ∈ steps, 2000 ≤ step.1.now.year ∧ step.1.now.year ≤ 2100) ∧
      (store.ledger.site 1).isOk = true ∧ store.ledger.site 2 = .error conversion ∧
      store.ledger.allSites = .error conversion ∧
      (Recovery.ofStore store (moment 4) (fun _ => moment 4) 60).error = some (.refused conversion) := by
  intro moment steps store conversion
  refine ⟨by decide +kernel, by decide +kernel, by decide +kernel, by decide +kernel, by decide +kernel⟩

end Store

end KeepAlive
