import KeepAlive.Jobs.Table
import KeepAlive.Proofs.Time.Order

/-!
# How one site stands in the job table

The table keeps three slots for every site.  Each operation of the table acts on the three slots of
one site as if no other site were there: an order or an end of a body changes only the site that it
names, and what is due fires site by site.
-/

namespace KeepAlive

open Time

namespace Slots

/-- No site has two slots. -/
def IsKeyed (slots : Slots) : Prop :=
  (slots.map Prod.fst).Nodup

theorem IsKeyed.nil : IsKeyed [] :=
  List.nodup_nil

theorem isKeyed_cons_iff {site : Int} {instant : Instant} {slots : Slots} :
    IsKeyed ((site, instant) :: slots) ↔ (∀ slot ∈ slots, slot.1 ≠ site) ∧ slots.IsKeyed := by
  simp only [IsKeyed, List.map_cons, List.nodup_cons, List.mem_map, not_exists, not_and]

theorem IsKeyed.filter {slots : Slots} (h : slots.IsKeyed) (p : Int × Instant → Bool) :
    IsKeyed (slots.filter p) :=
  h.sublist (List.filter_sublist.map Prod.fst)

theorem IsKeyed.erase {slots : Slots} (h : slots.IsKeyed) (site : Int) :
    (slots.erase site).IsKeyed :=
  h.filter _

theorem IsKeyed.insert {slots : Slots} (h : slots.IsKeyed) (site : Int) (instant : Instant) :
    (slots.insert site instant).IsKeyed := by
  refine isKeyed_cons_iff.2 ⟨?_, h.erase site⟩
  intro slot hslot
  simpa using (List.mem_filter.1 hslot).2

theorem IsKeyed.soonestFirst {slots : Slots} (h : slots.IsKeyed) : slots.soonestFirst.IsKeyed :=
  ((List.mergeSort_perm slots isSooner).map Prod.fst).nodup_iff.2 h

theorem get?_cons (site other : Int) (instant : Instant) (slots : Slots) :
    get? ((site, instant) :: slots) other =
      if other = site then some instant else get? slots other := by
  by_cases h : other = site
  · subst h
    simp [get?]
  · simp [get?, List.lookup_cons, beq_false_of_ne h, h]

theorem get?_eq_none_of_forall_ne {slots : Slots} {site : Int}
    (h : ∀ slot ∈ slots, slot.1 ≠ site) : slots.get? site = none := by
  simp only [get?, List.lookup_eq_none_iff]
  intro slot hslot
  simpa using (h slot hslot).symm

/-- Without a second slot of a site, the slots of the site are the one that is looked up. -/
theorem filter_site {slots : Slots} (h : slots.IsKeyed) (site : Int) :
    slots.filter (·.1 = site) = (slots.get? site).toList.map (site, ·) := by
  induction slots with
  | nil => rfl
  | cons slot rest ih =>
    obtain ⟨key, instant⟩ := slot
    obtain ⟨hkey, hrest⟩ := isKeyed_cons_iff.1 h
    rw [List.filter_cons, get?_cons]
    by_cases hsite : key = site
    · subst hsite
      have hnone := get?_eq_none_of_forall_ne hkey
      simp [ih hrest, hnone]
    · simp [ih hrest, hsite, Ne.symm hsite]

theorem mem_iff_get?_eq_some {slots : Slots} (h : slots.IsKeyed) {site : Int}
    {instant : Instant} : (site, instant) ∈ slots ↔ slots.get? site = some instant := by
  have hfilter := filter_site h site
  constructor
  · intro hmem
    have : (site, instant) ∈ slots.filter (·.1 = site) := by simpa using hmem
    rw [hfilter] at this
    simpa using this
  · intro hget
    have : (site, instant) ∈ slots.filter (·.1 = site) := by rw [hfilter, hget]; simp
    exact (List.mem_filter.1 this).1

end Slots

/-- The three slots of one site. -/
structure Standing where
  waiting : Option Instant
  running : Option Instant
  covered : Option Instant
  deriving DecidableEq, Repr

namespace Standing

/-- Whether a body of the site that runs or has run covers an instant. -/
def refuses (standing : Standing) (due : Instant) : Bool :=
  standing.running.any (due.isUpTo ·) || standing.covered.any (due.isUpTo ·)

/-- The site after a job is to be installed for it. -/
def installed (standing : Standing) (due : Instant) : Standing :=
  if standing.refuses due then standing else { standing with waiting := some due }

/-- The site after its job is removed. -/
def removed (standing : Standing) : Standing :=
  { standing with waiting := none, covered := none }

/-- The site after the table has learnt that its body is over. -/
def finished (standing : Standing) : Standing :=
  match standing.running with
  | none => standing
  | some due => { standing with running := none, covered := some due }

/-- The job of the site that has to start, if there is one. -/
def ready? (standing : Standing) (now : Instant) : Option Instant :=
  standing.waiting.filter fun due => due.isUpTo now && standing.running.isNone

/-- The site after what is due has started. -/
def fired (standing : Standing) (now : Instant) : Standing :=
  match standing.ready? now with
  | none => standing
  | some due => { standing with waiting := none, running := some due }

theorem refuses_iff {standing : Standing} {due : Instant} :
    standing.refuses due = true ↔
      (∃ running, standing.running = some running ∧ due.isUpTo running = true) ∨
        ∃ covered, standing.covered = some covered ∧ due.isUpTo covered = true := by
  simp only [refuses, Bool.or_eq_true, Option.any_eq_true]

theorem ready?_eq_some_iff {standing : Standing} {now due : Instant} :
    standing.ready? now = some due ↔
      standing.waiting = some due ∧ due.isUpTo now = true ∧ standing.running = none := by
  simp only [ready?, Option.filter_eq_some_iff, Bool.and_eq_true, Option.isNone_iff_eq_none]

end Standing

namespace Jobs

/-- How a site stands in the table. -/
def standing (jobs : Jobs) (site : Int) : Standing :=
  ⟨jobs.waiting.get? site, jobs.running.get? site, jobs.covered.get? site⟩

theorem refuses_eq (jobs : Jobs) (site : Int) (due : Instant) :
    jobs.refuses site due = (jobs.standing site).refuses due :=
  rfl

theorem standing_install (jobs : Jobs) (site other : Int) (due : Instant) :
    (jobs.install site due).standing other =
      if other = site then (jobs.standing other).installed due else jobs.standing other := by
  unfold install
  rw [refuses_eq]
  by_cases hother : other = site
  · subst hother
    rw [if_pos rfl, Standing.installed]
    by_cases hrefused : (jobs.standing other).refuses due = true
    · rw [if_pos hrefused, if_pos hrefused]
    · rw [if_neg hrefused, if_neg hrefused]
      simp [standing, Slots.get?_insert]
  · rw [if_neg hother]
    split
    · rfl
    · simp [standing, Slots.get?_insert, hother]

theorem standing_remove (jobs : Jobs) (site other : Int) :
    (jobs.remove site).standing other =
      if other = site then (jobs.standing other).removed else jobs.standing other := by
  by_cases hother : other = site <;>
    simp [remove, standing, Standing.removed, Slots.get?_erase, hother]

theorem standing_finish (jobs : Jobs) (site other : Int) :
    (jobs.finish site).standing other =
      if other = site then (jobs.standing other).finished else jobs.standing other := by
  unfold finish Standing.finished
  by_cases hother : other = site
  · subst hother
    cases hrunning : jobs.running.get? other with
    | none => simp [standing, hrunning]
    | some due => simp [standing, hrunning, Slots.get?_erase, Slots.get?_insert]
  · cases hrunning : jobs.running.get? site with
    | none => simp [standing, hother]
    | some due => simp [standing, hother, Slots.get?_erase, Slots.get?_insert]

theorem standing_started (jobs : Jobs) (site other : Int) (due : Instant) :
    (jobs.started site due).standing other =
      if other = site then { jobs.standing other with waiting := none, running := some due }
      else jobs.standing other := by
  by_cases hother : other = site <;>
    simp [started, standing, Slots.get?_erase, Slots.get?_insert, hother]

/-- Starting the jobs in a list starts for each site the one in the list. -/
theorem standing_foldl_started {slots : Slots} (h : slots.IsKeyed) (jobs : Jobs) (other : Int) :
    (slots.foldl (fun jobs (site, instant) => jobs.started site instant) jobs).standing other =
      match slots.get? other with
      | none => jobs.standing other
      | some due => { jobs.standing other with waiting := none, running := some due } := by
  induction slots generalizing jobs with
  | nil => rfl
  | cons slot rest ih =>
    obtain ⟨site, due⟩ := slot
    obtain ⟨hkey, hrest⟩ := Slots.isKeyed_cons_iff.1 h
    rw [List.foldl_cons, ih hrest, Slots.get?_cons, standing_started]
    by_cases hother : other = site
    · subst hother
      simp [Slots.get?_eq_none_of_forall_ne hkey]
    · simp [hother]

theorem isKeyed_due {jobs : Jobs} (h : jobs.waiting.IsKeyed) (now : Instant) :
    (jobs.due now).IsKeyed :=
  h.soonestFirst.filter _

/-- A site is among what is due exactly with the job that has to start. -/
theorem get?_due {jobs : Jobs} (h : jobs.waiting.IsKeyed) (now : Instant) (site : Int) :
    (jobs.due now).get? site = (jobs.standing site).ready? now := by
  apply Option.ext
  intro due
  rw [← Slots.mem_iff_get?_eq_some (isKeyed_due h now), Standing.ready?_eq_some_iff]
  simp only [Jobs.due, pending, Slots.soonestFirst, List.mem_filter, List.mem_mergeSort,
    Slots.mem_iff_get?_eq_some h, Bool.and_eq_true, Option.isNone_iff_eq_none, standing]

theorem standing_fire {jobs : Jobs} (h : jobs.waiting.IsKeyed) (now : Instant) (site : Int) :
    (jobs.fire now).1.standing site = (jobs.standing site).fired now := by
  simp only [fire, standing_foldl_started (isKeyed_due h now), get?_due h, Standing.fired]

/-- Of each site at most the one job starts that has to. -/
theorem starts_fire {jobs : Jobs} (h : jobs.waiting.IsKeyed) (now : Instant) (site : Int) :
    (jobs.fire now).2.filter (·.site = site) =
      ((jobs.standing site).ready? now).toList.map fun due =>
        ⟨site, due, jobs.workAt now due⟩ := by
  have hslots : (jobs.due now).filter (·.1 = site) =
      ((jobs.standing site).ready? now).toList.map (site, ·) := by
    rw [Slots.filter_site (isKeyed_due h now), get?_due h]
  have hmap : (jobs.fire now).2.filter (·.site = site) =
      ((jobs.due now).filter (·.1 = site)).map fun (site, instant) =>
        (⟨site, instant, jobs.workAt now instant⟩ : Start) := by
    simp only [fire, List.filter_map]
    rfl
  rw [hmap, hslots, List.map_map]
  rfl

theorem isKeyed_waiting_foldl_started {jobs : Jobs} (h : jobs.waiting.IsKeyed) (slots : Slots) :
    (slots.foldl (fun jobs (site, instant) => jobs.started site instant) jobs).waiting.IsKeyed := by
  induction slots generalizing jobs with
  | nil => exact h
  | cons slot rest ih => exact ih (h.erase slot.1)

theorem isKeyed_waiting_fire {jobs : Jobs} (h : jobs.waiting.IsKeyed) (now : Instant) :
    (jobs.fire now).1.waiting.IsKeyed :=
  isKeyed_waiting_foldl_started h _

theorem isKeyed_waiting_finish {jobs : Jobs} (h : jobs.waiting.IsKeyed) (site : Int) :
    (jobs.finish site).waiting.IsKeyed := by
  unfold finish
  split <;> exact h

theorem isKeyed_waiting_obey {jobs : Jobs} (h : jobs.waiting.IsKeyed) (order : Order) :
    (jobs.obey order).waiting.IsKeyed := by
  cases order with
  | install site due =>
    simp only [obey, install]
    split
    · exact h
    · exact h.insert site due
  | remove site => exact h.erase site
  | report => exact h

end Jobs

end KeepAlive
