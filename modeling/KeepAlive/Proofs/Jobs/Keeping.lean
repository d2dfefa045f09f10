import KeepAlive.Proofs.Jobs.Roster
import Mathlib

/-!
# Accepted jobs are kept

A job that the table has accepted waits until another one is accepted for its site, its site is
removed, or it is due while the site has no body in flight.  In the last case exactly one body starts
for it.  What the table refuses is told by the moves alone: the body in flight and the last one that
ended since the site was removed.
-/

namespace KeepAlive

open Time

/-- The last body of a site that has ended since the site was last removed. -/
def lastEnded (site : Int) (moves : List Move) : Option Start :=
  moves.foldl (fun last move =>
    match move with
    | .finish body => if body.site = site then some body else last
    | .obey (.remove other) => if other = site then none else last
    | _ => last) none

namespace Roster

/-- Whether no body of a site is in flight. -/
def IsIdle (roster : Roster) (site : Int) : Prop :=
  ∀ body ∈ roster.flight, body.site ≠ site

/-- Whether a move ends the wait of a job. -/
def Ends (roster : Roster) (site : Int) (due : Instant) : Move → Prop
  | .obey (.install other wanted) => other = site ∧ roster.jobs.refuses other wanted = false
  | .obey (.remove other) => other = site
  | .obey .report => False
  | .fire now => due.isUpTo now = true ∧ roster.IsIdle site
  | .finish _ => False

instance (roster : Roster) (site : Int) (due : Instant) :
    (move : Move) → Decidable (roster.Ends site due move)
  | .obey (.install other wanted) =>
    inferInstanceAs (Decidable (other = site ∧ roster.jobs.refuses other wanted = false))
  | .obey (.remove other) => inferInstanceAs (Decidable (other = site))
  | .obey .report => isFalse id
  | .fire now => inferInstanceAs
    (Decidable (due.isUpTo now = true ∧ ∀ body ∈ roster.flight, body.site ≠ site))
  | .finish _ => isFalse id

/-- Whether none of the moves ends the wait of a job. -/
def NoneEnds : Roster → Int → Instant → List Move → Prop
  | _, _, _, [] => True
  | roster, site, due, move :: rest =>
    ¬roster.Ends site due move ∧ (roster.after move).NoneEnds site due rest

instance decidableNoneEnds (site : Int) (due : Instant) :
    (moves : List Move) → (roster : Roster) → Decidable (roster.NoneEnds site due moves)
  | [], _ => isTrue trivial
  | move :: rest, roster =>
    have := decidableNoneEnds site due rest (roster.after move)
    inferInstanceAs
      (Decidable (¬roster.Ends site due move ∧ (roster.after move).NoneEnds site due rest))

/-- Whether a move is addressed to a site, or starts its job. -/
def Concerns (roster : Roster) (site : Int) : Move → Prop
  | .obey (.install other _) => other = site
  | .obey (.remove other) => other = site
  | .obey .report => False
  | .fire now =>
    ∃ due, roster.jobs.waiting.get? site = some due ∧ due.isUpTo now = true ∧ roster.IsIdle site
  | .finish body => body.site = site

theorem isIdle_iff {roster : Roster} (h : roster.IsSound) {site : Int} :
    roster.IsIdle site ↔ roster.jobs.running.get? site = none := by
  have hflight := h.flight site
  constructor
  · intro hidle
    have hempty : roster.flight.filter (·.site = site) = [] := by
      rw [List.filter_eq_nil_iff]
      intro body hbody
      simpa using hidle body hbody
    rw [hempty] at hflight
    exact Option.toList_eq_nil_iff.1 hflight.symm
  · intro hnone body hbody hsite
    obtain ⟨-, hrunning⟩ := h.filter_flight_of_mem hbody
    rw [hsite, hnone] at hrunning
    exact Option.some_ne_none _ hrunning.symm

theorem isIdle_of_ready {roster : Roster} (h : roster.IsSound) {site : Int} {now due : Instant}
    (hready : (roster.jobs.standing site).ready? now = some due) :
    roster.jobs.waiting.get? site = some due ∧ due.isUpTo now = true ∧ roster.IsIdle site := by
  obtain ⟨hwaiting, hdue, hrunning⟩ := Standing.ready?_eq_some_iff.1 hready
  exact ⟨hwaiting, hdue, (isIdle_iff h).2 hrunning⟩

/-- A move that does not concern a site leaves its three slots alone. -/
theorem standing_after_of_not_concerns {roster : Roster} (h : roster.IsSound) {site : Int}
    {move : Move} (hother : ¬roster.Concerns site move) :
    (roster.after move).jobs.standing site = roster.jobs.standing site := by
  cases move with
  | obey order =>
      cases order with
      | install other due =>
          rw [after, Jobs.obey, Jobs.standing_install, if_neg (fun heq => hother heq.symm)]
      | remove other =>
          rw [after, Jobs.obey, Jobs.standing_remove, if_neg (fun heq => hother heq.symm)]
      | report => rfl
  | fire now =>
      rw [after, Jobs.standing_fire h.isKeyed, Standing.fired]
      cases hready : (roster.jobs.standing site).ready? now with
      | none => rfl
      | some due => exact False.elim (hother ⟨due, isIdle_of_ready h hready⟩)
  | finish body =>
      rw [standing_after_finish, if_neg (fun heq => hother heq.symm)]

theorem starts_filter_of_not_concerns {roster : Roster} (h : roster.IsSound) {site : Int}
    {move : Move} (hother : ¬roster.Concerns site move) :
    (roster.starts move).filter (·.site = site) = [] := by
  cases move with
  | obey order => rfl
  | finish body => rfl
  | fire now =>
      rw [starts, Jobs.starts_fire h.isKeyed]
      cases hready : (roster.jobs.standing site).ready? now with
      | none => rfl
      | some due => exact False.elim (hother ⟨due, isIdle_of_ready h hready⟩)

/-- A job goes on waiting through a move that does not end its wait, and nothing starts for it. -/
theorem waiting_after_of_not_ends {roster : Roster} (h : roster.IsSound) {site : Int}
    {due : Instant} {move : Move} (hwaiting : roster.jobs.waiting.get? site = some due)
    (hgoes : ¬roster.Ends site due move) :
    (roster.after move).jobs.waiting.get? site = some due ∧
      (roster.starts move).filter (·.site = site) = [] := by
  by_cases hconcerns : roster.Concerns site move
  · cases move with
    | obey order =>
        cases order with
        | install other wanted =>
            -- The move names the site, so it can only be a refused order.
            have hrefused : roster.jobs.refuses other wanted = true := by
              cases hr : roster.jobs.refuses other wanted with
              | true => rfl
              | false => exact False.elim (hgoes ⟨hconcerns, hr⟩)
            refine ⟨?_, rfl⟩
            simpa [after, Jobs.obey, Jobs.install, hrefused] using hwaiting
        | remove other => exact False.elim (hgoes hconcerns)
        | report => exact ⟨hwaiting, rfl⟩
    | fire now =>
        obtain ⟨wanted, hwanted, hdue, hidle⟩ := hconcerns
        have : wanted = due := Option.some.inj (hwanted.symm.trans hwaiting)
        subst this
        exact False.elim (hgoes ⟨hdue, hidle⟩)
    | finish body =>
        refine ⟨?_, rfl⟩
        have hstanding := congrArg Standing.waiting (standing_after_finish roster body site)
        refine Eq.trans hstanding ?_
        split
        · unfold Standing.finished
          split <;> exact hwaiting
        · exact hwaiting
  · have hstanding := standing_after_of_not_concerns h hconcerns
    exact ⟨(congrArg Standing.waiting hstanding).trans hwaiting,
      starts_filter_of_not_concerns h hconcerns⟩

theorem waiting_run_of_noneEnds {roster : Roster} (h : roster.IsSound) {site : Int} {due : Instant}
    {later : List Move} (hwaiting : roster.jobs.waiting.get? site = some due)
    (hallows : roster.AllowsAll later) (hgoes : roster.NoneEnds site due later) :
    (roster.run later).jobs.waiting.get? site = some due ∧
      (roster.startsOf later).filter (·.site = site) = [] := by
  induction later generalizing roster with
  | nil => exact ⟨hwaiting, rfl⟩
  | cons move rest ih =>
      obtain ⟨hnext, hstarts⟩ := waiting_after_of_not_ends h hwaiting hgoes.1
      obtain ⟨hlast, hrest⟩ := ih (h.after hallows.1) hnext hallows.2 hgoes.2
      refine ⟨hlast, ?_⟩
      rw [startsOf, List.filter_append, hstarts, hrest]
      rfl

/-- A due job of a site without a body in flight is gone after the start, and one body runs. -/
theorem fire_of_due {roster : Roster} (h : roster.IsSound) {site : Int} {due now : Instant}
    (hwaiting : roster.jobs.waiting.get? site = some due) (hdue : due.isUpTo now = true)
    (hidle : roster.IsIdle site) :
    (roster.after (.fire now)).jobs.standing site =
        ⟨none, some due, roster.jobs.covered.get? site⟩ ∧
      (roster.starts (.fire now)).filter (·.site = site) =
        [⟨site, due, roster.jobs.workAt now due⟩] := by
  have hready : (roster.jobs.standing site).ready? now = some due :=
    Standing.ready?_eq_some_iff.2 ⟨hwaiting, hdue, (isIdle_iff h).1 hidle⟩
  constructor
  · rw [after, Jobs.standing_fire h.isKeyed, Standing.fired, hready]
    rfl
  · rw [starts, Jobs.starts_fire h.isKeyed, hready]
    rfl

theorem grace_foldl_started (slots : Slots) (jobs : Jobs) :
    (slots.foldl (fun jobs (site, instant) => jobs.started site instant) jobs).grace =
      jobs.grace := by
  induction slots generalizing jobs with
  | nil => rfl
  | cons slot rest ih => exact ih _

theorem grace_after (roster : Roster) (move : Move) :
    (roster.after move).jobs.grace = roster.jobs.grace := by
  cases move with
  | obey order =>
      cases order with
      | install site due =>
          simp only [after, Jobs.obey, Jobs.install]
          split <;> rfl
      | remove site => rfl
      | report => rfl
  | fire now => exact grace_foldl_started _ _
  | finish body =>
      simp only [after, Jobs.finish]
      split <;> rfl

theorem grace_run (roster : Roster) (moves : List Move) :
    (roster.run moves).jobs.grace = roster.jobs.grace := by
  induction moves generalizing roster with
  | nil => rfl
  | cons move rest ih => exact (ih _).trans (grace_after roster move)

theorem workAt_run (grace : Nat) (moves : List Move) (now due : Instant) :
    ((opening grace).run moves).jobs.workAt now due =
      if now.toNanos - due.toNanos ≤ (opening grace).jobs.lateness then .run else .missed := by
  have hlateness : ((opening grace).run moves).jobs.lateness = (opening grace).jobs.lateness := by
    rw [Jobs.lateness, grace_run]
    rfl
  rw [Jobs.workAt, hlateness]
  by_cases hlate : now.toNanos - due.toNanos ≤ (opening grace).jobs.lateness
  · rw [if_pos hlate, if_neg (Int.not_lt.2 hlate)]
  · rw [if_neg hlate, if_pos (Int.not_le.1 hlate)]

theorem lastEnded_append_singleton (site : Int) (moves : List Move) (move : Move) :
    lastEnded site (moves ++ [move]) =
      match move with
      | .finish body => if body.site = site then some body else lastEnded site moves
      | .obey (.remove other) => if other = site then none else lastEnded site moves
      | _ => lastEnded site moves := by
  simp only [lastEnded, List.foldl_append, List.foldl_cons, List.foldl_nil]

/-- What is covered for a site is the due time of its last body that ended since its removal. -/
theorem covered_run {roster : Roster} (h : roster.IsSound) (hnone : roster.jobs.covered = [])
    {moves : List Move} (hallows : roster.AllowsAll moves) (site : Int) :
    (roster.run moves).jobs.covered.get? site = (lastEnded site moves).map (·.due) := by
  induction moves using List.reverseRecOn with
  | nil => simp [hnone, lastEnded]
  | append_singleton moves move ih =>
      obtain ⟨hbefore, hmove⟩ := allowsAll_append_singleton.1 hallows
      have hsound := h.run hbefore
      rw [run_append_singleton, lastEnded_append_singleton]
      cases move with
      | obey order =>
          cases order with
          | install other due =>
              rw [← ih hbefore]
              simp only [after, Jobs.obey, Jobs.install]
              split <;> rfl
          | remove other =>
              have hget := Slots.get?_erase (roster.run moves).jobs.covered other site
              refine Eq.trans hget ?_
              by_cases hsite : other = site
              · simp [hsite]
              · simp [hsite, Ne.symm hsite, ih hbefore]
          | report => exact ih hbefore
      | fire now =>
          have hcovered := congrArg Standing.covered
            (Jobs.standing_fire hsound.isKeyed now site)
          refine Eq.trans hcovered ?_
          unfold Standing.fired
          split <;> exact ih hbefore
      | finish body =>
          obtain ⟨-, hrunning⟩ := hsound.filter_flight_of_mem hmove
          have hstanding := congrArg Standing.covered
            (standing_after_finish (roster.run moves) body site)
          refine Eq.trans hstanding ?_
          by_cases hsite : body.site = site
          · subst hsite
            simp [Standing.finished, Jobs.standing, hrunning]
          · simp only [if_neg (Ne.symm hsite), if_neg hsite]
            exact ih hbefore

theorem refuses_run_iff {grace : Nat} {moves : List Move}
    (hallows : (opening grace).AllowsAll moves) (site : Int) (due : Instant) :
    ((opening grace).run moves).jobs.refuses site due = true ↔
      (∃ body ∈ ((opening grace).run moves).flight,
        body.site = site ∧ due.isUpTo body.due = true) ∨
      ∃ body, lastEnded site moves = some body ∧ due.isUpTo body.due = true := by
  have hsound := (isSound_opening grace).run hallows
  have hcovered := covered_run (isSound_opening grace) rfl hallows site
  rw [Jobs.refuses_eq, Standing.refuses_iff]
  apply or_congr
  · constructor
    · rintro ⟨running, hrunning, hdue⟩
      have hdues := hsound.flight site
      rw [show ((opening grace).run moves).jobs.running.get? site = some running from hrunning,
        Option.toList_some] at hdues
      have hmem : running ∈ (((opening grace).run moves).flight.filter (·.site = site)).map
          (·.due) := by
        rw [hdues]
        exact List.mem_singleton_self running
      obtain ⟨body, hbody, rfl⟩ := List.mem_map.1 hmem
      obtain ⟨hflight, hsite⟩ := List.mem_filter.1 hbody
      exact ⟨body, hflight, by simpa using hsite, hdue⟩
    · rintro ⟨body, hbody, rfl, hdue⟩
      exact ⟨body.due, (hsound.filter_flight_of_mem hbody).2, hdue⟩
  · simp only [Jobs.standing, hcovered, Option.map_eq_some_iff]
    constructor
    · rintro ⟨_, ⟨body, hbody, rfl⟩, hdue⟩
      exact ⟨body, hbody, hdue⟩
    · rintro ⟨body, hbody, hdue⟩
      exact ⟨body.due, ⟨body, hbody, rfl⟩, hdue⟩

/-- In every run of the table: an order to install a job is refused exactly if the body in flight of
its site or the last one that ended since the site's removal is due no earlier, and then changes
nothing; an accepted job waits, without a body, through all moves that do not end its wait, and is
replaced, removed or started by the first one that does; and a move that does not concern a site
changes none of its three slots. -/
theorem accepted_job_waits_until_replaced_removed_or_started (grace : Nat) (moves : List Move)
    (hallows : (opening grace).AllowsAll moves) (site : Int) (due : Instant) :
    let roster := (opening grace).run moves
    let accepted := roster.after (.obey (.install site due))
    (roster.jobs.refuses site due = true ↔
      (∃ body ∈ roster.flight, body.site = site ∧ due.isUpTo body.due = true) ∨
      ∃ body, lastEnded site moves = some body ∧ due.isUpTo body.due = true) ∧
    (roster.jobs.refuses site due = true → accepted = roster) ∧
    (roster.jobs.refuses site due = false →
      ∀ later, accepted.AllowsAll later → accepted.NoneEnds site due later →
        (accepted.run later).jobs.waiting.get? site = some due ∧
        (accepted.startsOf later).filter (·.site = site) = []) ∧
    (roster.after (.obey (.remove site))).jobs.waiting.get? site = none ∧
    (roster.jobs.waiting.get? site = some due →
      ∀ now, due.isUpTo now = true → roster.IsIdle site →
        (roster.after (.fire now)).jobs.standing site =
          ⟨none, some due, roster.jobs.covered.get? site⟩ ∧
        (roster.starts (.fire now)).filter (·.site = site) =
          [⟨site, due, if now.toNanos - due.toNanos ≤ (opening grace).jobs.lateness then .run
            else .missed⟩]) ∧
    ∀ move, ¬roster.Concerns site move →
      (roster.after move).jobs.standing site = roster.jobs.standing site ∧
      (roster.starts move).filter (·.site = site) = [] := by
  intro roster accepted
  have hsound : roster.IsSound := (isSound_opening grace).run hallows
  refine ⟨refuses_run_iff hallows site due, ?_, ?_, ?_, ?_, ?_⟩
  · intro hrefused
    simp [accepted, after, Jobs.obey, Jobs.install, hrefused]
  · intro haccepted later hlater hgoes
    have hwaiting : accepted.jobs.waiting.get? site = some due := by
      simp [accepted, after, Jobs.obey, Jobs.install, haccepted, Slots.get?_insert]
    exact waiting_run_of_noneEnds (hsound.after_obey _) hwaiting hlater hgoes
  · simp [after, Jobs.obey, Jobs.remove, Slots.get?_erase]
  · intro hwaiting now hdue hidle
    obtain ⟨hstanding, hstarts⟩ := fire_of_due hsound hwaiting hdue hidle
    rw [workAt_run] at hstarts
    exact ⟨hstanding, hstarts⟩
  · intro move hother
    exact ⟨standing_after_of_not_concerns hsound hother,
      starts_filter_of_not_concerns hsound hother⟩

/-- A job waits while its site's body is in flight, a stale order comes and another site fires. -/
theorem job_waits_behind_running_body :
    let moves : List Move := [.obey (.install 1 ⟨10, 0⟩), .fire ⟨10, 0⟩]
    let later : List Move := [.obey (.install 1 ⟨9, 0⟩), .obey (.install 2 ⟨12, 0⟩), .fire ⟨20, 0⟩,
      .obey (.remove 2), .finish ⟨1, ⟨10, 0⟩, .run⟩, .obey (.install 1 ⟨10, 0⟩), .fire ⟨14, 0⟩]
    let accepted := ((opening 60).run moves).after (.obey (.install 1 ⟨15, 0⟩))
    (opening 60).AllowsAll moves ∧ accepted.AllowsAll later ∧ accepted.NoneEnds 1 ⟨15, 0⟩ later ∧
      (accepted.run later).jobs.waiting.get? 1 = some ⟨15, 0⟩ := by
  intro moves later accepted
  have hallows : (opening 60).AllowsAll moves := by decide_cbv
  have haccepted : ((opening 60).run moves).jobs.refuses 1 ⟨15, 0⟩ = false := by decide_cbv
  have hlater : accepted.AllowsAll later := by decide_cbv
  have hgoes : accepted.NoneEnds 1 ⟨15, 0⟩ later := by decide_cbv
  obtain ⟨-, -, hwaits, -⟩ :=
    accepted_job_waits_until_replaced_removed_or_started 60 moves hallows 1 ⟨15, 0⟩
  exact ⟨hallows, hlater, hgoes, (hwaits haccepted later hlater hgoes).1⟩

end Roster

end KeepAlive
