import KeepAlive.Proofs.Jobs.Roster

/-!
# One body at a time, each due later than the last

A job that is not refused lies after whatever runs or is covered, and a body that ends leaves its due
time as covered.  So as long as a site is not removed, what starts for it next is due later than
everything that has started for it.  A removal forgets what is covered, but not what runs.
-/

namespace KeepAlive

open Time

namespace Roster

theorem starts_filter_eq {roster : Roster} (h : roster.IsSound) (now : Instant) (site : Int) :
    (roster.starts (.fire now)).filter (·.site = site) =
      ((roster.jobs.standing site).ready? now).toList.map fun due =>
        ⟨site, due, roster.jobs.workAt now due⟩ :=
  Jobs.starts_fire h.isKeyed now site

/-- What starts for a site in a move was waiting, and then runs. -/
theorem mem_starts {roster : Roster} (h : roster.IsSound) {move : Move} {body : Start}
    (hbody : body ∈ roster.starts move) :
    roster.jobs.waiting.get? body.site = some body.due ∧
      roster.jobs.running.get? body.site = none ∧
      (roster.after move).jobs.running.get? body.site = some body.due := by
  cases move with
  | obey order => exact False.elim (List.not_mem_nil hbody)
  | finish other => exact False.elim (List.not_mem_nil hbody)
  | fire now =>
      have hmem : body ∈ (roster.starts (.fire now)).filter (·.site = body.site) := by
        simpa using hbody
      rw [starts_filter_eq h, List.mem_map] at hmem
      obtain ⟨due, hdue, heq⟩ := hmem
      have hready := Option.mem_toList.1 hdue
      have hbodyDue : body.due = due := by rw [← heq]
      rw [hbodyDue]
      obtain ⟨hwaiting, -, hidle⟩ := Standing.ready?_eq_some_iff.1 hready
      have hstanding := Jobs.standing_fire h.isKeyed now body.site
      rw [Standing.fired, hready] at hstanding
      exact ⟨hwaiting, hidle, congrArg Standing.running hstanding⟩

/-- A due time lies after what a site runs and what is covered for it. -/
def IsBeyond (roster : Roster) (site : Int) (due : Instant) : Prop :=
  (∀ running, roster.jobs.running.get? site = some running → running.isBefore due = true) ∧
    ∀ covered, roster.jobs.covered.get? site = some covered → covered.isBefore due = true

/-- A move that does not remove a site forgets nothing of what runs or is covered. -/
theorem IsBeyond.of_after {roster : Roster} (h : roster.IsSound) {move : Move} {site : Int}
    {due : Instant} (hallows : roster.Allows move) (hkept : ¬move.IsRemoval site)
    (hbeyond : (roster.after move).IsBeyond site due) : roster.IsBeyond site due := by
  cases move with
  | obey order =>
      cases order with
      | install other wanted =>
          have hsame : (roster.after (.obey (.install other wanted))).jobs.running =
              roster.jobs.running ∧
              (roster.after (.obey (.install other wanted))).jobs.covered =
                roster.jobs.covered := by
            simp only [Roster.after, Jobs.obey, Jobs.install]
            split <;> exact ⟨rfl, rfl⟩
          rw [IsBeyond, hsame.1, hsame.2] at hbeyond
          exact hbeyond
      | remove other =>
          have hother : site ≠ other := by
            rintro rfl
            exact hkept rfl
          have hcovered : (roster.after (.obey (.remove other))).jobs.covered.get? site =
              roster.jobs.covered.get? site := by
            simp [Roster.after, Jobs.obey, Jobs.remove, Slots.get?_erase, hother]
          rw [IsBeyond, hcovered] at hbeyond
          exact hbeyond
      | report => exact hbeyond
  | fire now =>
      have hstanding := Jobs.standing_fire h.isKeyed now site
      have hcovered : (roster.after (.fire now)).jobs.covered.get? site =
          roster.jobs.covered.get? site := by
        have := congrArg Standing.covered hstanding
        rw [Standing.fired] at this
        split at this <;> exact this
      refine ⟨?_, fun covered hc => hbeyond.2 covered (hcovered.trans hc)⟩
      intro running hrunning
      apply hbeyond.1
      have := congrArg Standing.running hstanding
      have hready : (roster.jobs.standing site).ready? now = none := by
        rw [Option.eq_none_iff_forall_ne_some]
        intro due hdue
        obtain ⟨-, -, hidle⟩ := Standing.ready?_eq_some_iff.1 hdue
        exact absurd (hrunning.symm.trans hidle) (Option.some_ne_none _)
      rw [Standing.fired, hready] at this
      exact this.trans hrunning
  | finish body =>
      obtain ⟨-, hrunningBody⟩ := h.filter_flight_of_mem hallows
      have hstanding := standing_after_finish roster body site
      by_cases hsite : site = body.site
      · -- The due time of the ended body is covered from now on.
        subst hsite
        have hfinished : (roster.after (.finish body)).jobs.standing body.site =
            { roster.jobs.standing body.site with running := none, covered := some body.due } := by
          rw [hstanding, if_pos rfl, Standing.finished]
          simp [Jobs.standing, hrunningBody]
        have hdue : body.due.isBefore due = true :=
          hbeyond.2 body.due (congrArg Standing.covered hfinished)
        constructor
        · intro running hrunning
          have : running = body.due := Option.some.inj (hrunning.symm.trans hrunningBody)
          rw [this]
          exact hdue
        · intro covered hcovered
          have hold := (h.isOrdered body.site).covered_isBefore_running body.due covered
            hrunningBody hcovered
          exact Instant.isBefore_trans hold hdue
      · rw [if_neg hsite] at hstanding
        refine ⟨fun running hrunning => hbeyond.1 running ?_,
          fun covered hcovered => hbeyond.2 covered ?_⟩
        · exact (congrArg Standing.running hstanding).trans hrunning
        · exact (congrArg Standing.covered hstanding).trans hcovered

/-- While a site is not removed, everything that starts for it lies after what it ran and covered at
the beginning. -/
theorem isBeyond_of_mem_startsOf {roster : Roster} (h : roster.IsSound) {moves : List Move}
    {body : Start} (hallows : roster.AllowsAll moves)
    (hkept : ∀ move ∈ moves, ¬move.IsRemoval body.site) (hbody : body ∈ roster.startsOf moves) :
    roster.IsBeyond body.site body.due := by
  induction moves generalizing roster with
  | nil => exact False.elim (List.not_mem_nil hbody)
  | cons move rest ih =>
      rcases List.mem_append.1 hbody with hfirst | hlater
      · obtain ⟨hwaiting, hidle, -⟩ := mem_starts h hfirst
        constructor
        · intro running hrunning
          exact absurd (hrunning.symm.trans hidle) (Option.some_ne_none _)
        · intro covered hcovered
          exact (h.isOrdered body.site).covered_isBefore_waiting body.due covered hwaiting hcovered
      · have hbeyond := ih (h.after hallows.1) hallows.2
          (fun later hmem => hkept later (List.mem_cons_of_mem _ hmem)) hlater
        exact hbeyond.of_after h hallows.1 (hkept move List.mem_cons_self)

theorem startsOf_increasing {roster : Roster} (h : roster.IsSound) {moves : List Move} {site : Int}
    (hallows : roster.AllowsAll moves) (hkept : ∀ move ∈ moves, ¬move.IsRemoval site) :
    (((roster.startsOf moves).filter (·.site = site)).map (·.due)).Pairwise
      fun first second => first.isBefore second = true := by
  induction moves generalizing roster with
  | nil => exact List.Pairwise.nil
  | cons move rest ih =>
      have hrest : ∀ later ∈ rest, ¬later.IsRemoval site :=
        fun later hmem => hkept later (List.mem_cons_of_mem _ hmem)
      rw [startsOf, List.filter_append, List.map_append, List.pairwise_append]
      refine ⟨?_, ih (h.after hallows.1) hallows.2 hrest, ?_⟩
      · cases move with
        | obey order => exact List.Pairwise.nil
        | finish body => exact List.Pairwise.nil
        | fire now =>
            rw [starts_filter_eq h]
            cases (roster.jobs.standing site).ready? now <;> simp
      · intro first hfirst second hsecond
        obtain ⟨body, hbody, rfl⟩ := List.mem_map.1 hfirst
        obtain ⟨later, hlater, rfl⟩ := List.mem_map.1 hsecond
        obtain ⟨hbodyMem, hbodySite⟩ := List.mem_filter.1 hbody
        obtain ⟨hlaterMem, hlaterSite⟩ := List.mem_filter.1 hlater
        have hbodyEq : body.site = site := by simpa using hbodySite
        have hlaterEq : later.site = site := by simpa using hlaterSite
        obtain ⟨-, -, hruns⟩ := mem_starts h hbodyMem
        have hbeyond := isBeyond_of_mem_startsOf (h.after hallows.1) hallows.2
          (fun next hmem => by rw [hlaterEq]; exact hrest next hmem) hlaterMem
        exact hbeyond.1 body.due (by rw [hlaterEq, ← hbodyEq]; exact hruns)

/-- In every run of the table, the bodies of a site in flight are the one that the table has as
running, a waiting instant lies after the running and the covered one and the running one after the
covered one, and between removals of a site the due times of its bodies increase, so none recurs. -/
theorem one_body_in_flight_and_dues_increase (grace : Nat) (moves : List Move)
    (hallows : (opening grace).AllowsAll moves) :
    (∀ site, ((((opening grace).run moves).flight).filter (·.site = site)).map (·.due) =
      (((opening grace).run moves).jobs.running.get? site).toList) ∧
    (∀ site due, ((opening grace).run moves).jobs.waiting.get? site = some due →
      (∀ running, ((opening grace).run moves).jobs.running.get? site = some running →
        running.isBefore due = true) ∧
      ∀ covered, ((opening grace).run moves).jobs.covered.get? site = some covered →
        covered.isBefore due = true) ∧
    (∀ site running covered,
      ((opening grace).run moves).jobs.running.get? site = some running →
      ((opening grace).run moves).jobs.covered.get? site = some covered →
      covered.isBefore running = true) ∧
    ∀ site before within rest, moves = before ++ within ++ rest →
      (∀ move ∈ within, ¬move.IsRemoval site) →
      let dues := ((((opening grace).run before).startsOf within).filter (·.site = site)).map (·.due)
      (dues.Pairwise fun first second => first.isBefore second = true) ∧ dues.Nodup := by
  have hsound := (isSound_opening grace).run hallows
  refine ⟨hsound.flight, ?_, ?_, ?_⟩
  · intro site due hwaiting
    exact ⟨fun running => (hsound.isOrdered site).running_isBefore_waiting due running hwaiting,
      fun covered => (hsound.isOrdered site).covered_isBefore_waiting due covered hwaiting⟩
  · intro site running covered
    exact (hsound.isOrdered site).covered_isBefore_running running covered
  · rintro site before within rest rfl hkept
    obtain ⟨hfront, -⟩ := allowsAll_append.1 hallows
    obtain ⟨hbefore, hwithin⟩ := allowsAll_append.1 hfront
    have hincreasing :=
      startsOf_increasing ((isSound_opening grace).run hbefore) hwithin hkept
    refine ⟨hincreasing, hincreasing.imp ?_⟩
    intro first second hlt heq
    rw [heq, Instant.isBefore_iff] at hlt
    omega

/-- A site is removed while its body runs, gets a job again and is told of the end after that; its
next body is due later all the same. -/
theorem dues_increase_after_removal_while_running :
    let before : List Move := [.obey (.install 1 ⟨10, 0⟩), .fire ⟨20, 0⟩, .obey (.remove 1)]
    let within : List Move := [.obey (.install 1 ⟨15, 0⟩), .obey (.install 1 ⟨10, 0⟩),
      .finish ⟨1, ⟨10, 0⟩, .run⟩, .fire ⟨12, 0⟩, .fire ⟨30, 0⟩, .obey (.install 1 ⟨40, 0⟩),
      .finish ⟨1, ⟨15, 0⟩, .run⟩, .fire ⟨40, 0⟩]
    let dues := ((((opening 3600).run before).startsOf within).filter (·.site = 1)).map (·.due)
    (opening 3600).AllowsAll (before ++ within) ∧ dues = [⟨15, 0⟩, ⟨40, 0⟩] ∧
      (dues.Pairwise fun first second => first.isBefore second = true) ∧ dues.Nodup := by
  intro before within dues
  have hallows : (opening 3600).AllowsAll (before ++ within) := by decide +kernel
  have hdues : dues = [⟨15, 0⟩, ⟨40, 0⟩] := by decide +kernel
  have hkept : ∀ move ∈ within, ¬move.IsRemoval 1 := by simp [within, Move.IsRemoval]
  obtain ⟨-, -, -, hincrease⟩ := one_body_in_flight_and_dues_increase 3600 _ hallows
  exact ⟨hallows, hdues, hincrease 1 before within [] (List.append_nil _).symm hkept⟩

end Roster

end KeepAlive
