import KeepAlive.Proofs.Jobs.Standing

/-!
# Bodies in flight

A roster is the job table together with the bodies that it has started and whose end it has not been
told.  Its moves are the steps of the table: orders from elsewhere, the start of what is due at any
reading of the clock, and the end of a body in flight.  The main result says that a site has at most
one body in flight, and that the due times of its bodies increase until it is removed.
-/

namespace KeepAlive

open Time

namespace Standing

/-- The waiting instant of a site lies after the one that runs and the one that is covered, and the
one that runs lies after the one that is covered. -/
structure IsOrdered (standing : Standing) : Prop where
  running_isBefore_waiting : ∀ due running, standing.waiting = some due →
    standing.running = some running → running.isBefore due = true
  covered_isBefore_waiting : ∀ due covered, standing.waiting = some due →
    standing.covered = some covered → covered.isBefore due = true
  covered_isBefore_running : ∀ running covered, standing.running = some running →
    standing.covered = some covered → covered.isBefore running = true

theorem refuses_eq_false_iff {standing : Standing} {due : Instant} :
    standing.refuses due = false ↔
      (∀ running, standing.running = some running → running.isBefore due = true) ∧
        ∀ covered, standing.covered = some covered → covered.isBefore due = true := by
  simp only [refuses, Bool.or_eq_false_iff, Option.any_eq_false, Instant.isUpTo,
    Bool.not_eq_false']

theorem IsOrdered.installed {standing : Standing} (h : standing.IsOrdered) (due : Instant) :
    (standing.installed due).IsOrdered := by
  unfold Standing.installed
  cases hrefused : standing.refuses due with
  | true => exact h
  | false =>
    obtain ⟨hrunning, hcovered⟩ := refuses_eq_false_iff.1 hrefused
    constructor
    · rintro _ running ⟨rfl⟩
      exact hrunning running
    · rintro _ covered ⟨rfl⟩
      exact hcovered covered
    · exact h.covered_isBefore_running

theorem IsOrdered.removed {standing : Standing} : standing.removed.IsOrdered := by
  constructor <;> simp [Standing.removed]

theorem IsOrdered.finished {standing : Standing} (h : standing.IsOrdered) :
    standing.finished.IsOrdered := by
  unfold Standing.finished
  split
  · exact h
  · rename_i running hrunning
    constructor
    · simp
    · rintro due _ hwaiting ⟨rfl⟩
      exact h.running_isBefore_waiting due running hwaiting hrunning
    · simp

theorem IsOrdered.fired {standing : Standing} (h : standing.IsOrdered) (now : Instant) :
    (standing.fired now).IsOrdered := by
  unfold Standing.fired
  split
  · exact h
  · rename_i due hready
    obtain ⟨hwaiting, -, -⟩ := ready?_eq_some_iff.1 hready
    constructor
    · simp
    · simp
    · rintro _ covered ⟨rfl⟩ hcovered
      exact h.covered_isBefore_waiting due covered hwaiting hcovered

end Standing

/-- The job table with the bodies in flight. -/
structure Roster where
  jobs : Jobs
  /-- The bodies that were started and whose end the table has not been told. -/
  flight : List Start := []

/-- A step of the job table. -/
inductive Move
  | obey (order : Order)
  /-- What is due starts. -/
  | fire (now : Instant)
  /-- The table is told that a body is over. -/
  | finish (body : Start)

/-- Whether a move removes a site. -/
def Move.IsRemoval (site : Int) (move : Move) : Prop :=
  move = .obey (.remove site)

namespace Roster

/-- The roster of a new table. -/
def opening (grace : Nat) : Roster :=
  { jobs := { grace } }

/-- The roster after a move. -/
def after (roster : Roster) : Move → Roster
  | .obey order => { roster with jobs := roster.jobs.obey order }
  | .fire now =>
    { jobs := (roster.jobs.fire now).1, flight := roster.flight ++ (roster.jobs.fire now).2 }
  | .finish body =>
    { jobs := roster.jobs.finish body.site, flight := roster.flight.erase body }

/-- The bodies that a move starts. -/
def starts (roster : Roster) : Move → List Start
  | .fire now => (roster.jobs.fire now).2
  | _ => []

/-- Whether a move can be made: only a body in flight can end. -/
def Allows (roster : Roster) : Move → Prop
  | .finish body => body ∈ roster.flight
  | _ => True

/-- The roster after moves, the first one first. -/
def run (roster : Roster) (moves : List Move) : Roster :=
  moves.foldl after roster

/-- Whether moves can be made one after the other. -/
def AllowsAll : Roster → List Move → Prop
  | _, [] => True
  | roster, move :: rest => roster.Allows move ∧ (roster.after move).AllowsAll rest

instance (roster : Roster) : (move : Move) → Decidable (roster.Allows move)
  | .obey _ => isTrue trivial
  | .fire _ => isTrue trivial
  | .finish body => inferInstanceAs (Decidable (body ∈ roster.flight))

instance decidableAllowsAll :
    (moves : List Move) → (roster : Roster) → Decidable (roster.AllowsAll moves)
  | [], _ => isTrue trivial
  | move :: rest, roster =>
    have := decidableAllowsAll rest (roster.after move)
    inferInstanceAs (Decidable (roster.Allows move ∧ (roster.after move).AllowsAll rest))

/-- The bodies that moves start, in order. -/
def startsOf : Roster → List Move → List Start
  | _, [] => []
  | roster, move :: rest => roster.starts move ++ (roster.after move).startsOf rest

@[simp] theorem run_nil (roster : Roster) : roster.run [] = roster :=
  rfl

@[simp] theorem run_cons (roster : Roster) (move : Move) (rest : List Move) :
    roster.run (move :: rest) = (roster.after move).run rest :=
  rfl

theorem run_append (roster : Roster) (first second : List Move) :
    roster.run (first ++ second) = (roster.run first).run second :=
  List.foldl_append

theorem run_append_singleton (roster : Roster) (moves : List Move) (move : Move) :
    roster.run (moves ++ [move]) = (roster.run moves).after move :=
  run_append roster moves [move]

theorem allowsAll_append {roster : Roster} {first second : List Move} :
    roster.AllowsAll (first ++ second) ↔
      roster.AllowsAll first ∧ (roster.run first).AllowsAll second := by
  induction first generalizing roster with
  | nil => simp [AllowsAll]
  | cons move rest ih => simp [AllowsAll, ih, and_assoc]

theorem allowsAll_append_singleton {roster : Roster} {moves : List Move} {move : Move} :
    roster.AllowsAll (moves ++ [move]) ↔
      roster.AllowsAll moves ∧ (roster.run moves).Allows move := by
  rw [allowsAll_append]
  simp [AllowsAll]

/-- What holds of every roster that moves lead to. -/
structure IsSound (roster : Roster) : Prop where
  isKeyed : roster.jobs.waiting.IsKeyed
  /-- The bodies of a site in flight are the one that the table has as running. -/
  flight : ∀ site, (roster.flight.filter (·.site = site)).map (·.due) =
    (roster.jobs.running.get? site).toList
  isOrdered : ∀ site, (roster.jobs.standing site).IsOrdered

theorem isSound_opening (grace : Nat) : (opening grace).IsSound where
  isKeyed := Slots.IsKeyed.nil
  flight _ := rfl
  isOrdered _ := by constructor <;> simp [opening, Jobs.standing]

/-- A body in flight is the only one of its site. -/
theorem IsSound.filter_flight_of_mem {roster : Roster} (h : roster.IsSound) {body : Start}
    (hbody : body ∈ roster.flight) :
    roster.flight.filter (·.site = body.site) = [body] ∧
      roster.jobs.running.get? body.site = some body.due := by
  have hmem : body ∈ roster.flight.filter (·.site = body.site) := by simpa using hbody
  have hdues := h.flight body.site
  cases hrunning : roster.jobs.running.get? body.site with
  | none =>
      rw [hrunning] at hdues
      have hempty : roster.flight.filter (·.site = body.site) = [] := by simpa using hdues
      rw [hempty] at hmem
      exact False.elim (List.not_mem_nil hmem)
  | some due =>
      rw [hrunning, Option.toList_some] at hdues
      obtain ⟨only, honly, hdue⟩ := List.map_eq_singleton_iff.1 hdues
      rw [honly] at hmem
      have hbodyEq : body = only := List.mem_singleton.1 hmem
      subst hbodyEq
      exact ⟨honly, by rw [hdue]⟩

/-- How a site stands after its body has ended. -/
theorem standing_after_finish (roster : Roster) (body : Start) (site : Int) :
    (roster.after (.finish body)).jobs.standing site =
      if site = body.site then (roster.jobs.standing site).finished
      else roster.jobs.standing site :=
  Jobs.standing_finish _ _ _

theorem running_obey (jobs : Jobs) (order : Order) (site : Int) :
    (jobs.obey order).running.get? site = jobs.running.get? site := by
  cases order with
  | install other due =>
      simp only [Jobs.obey, Jobs.install]
      split <;> rfl
  | remove other => rfl
  | report => rfl

theorem isOrdered_obey {jobs : Jobs} {site : Int} (h : (jobs.standing site).IsOrdered)
    (order : Order) : ((jobs.obey order).standing site).IsOrdered := by
  cases order with
  | install other due =>
      rw [Jobs.obey, Jobs.standing_install]
      split
      · exact h.installed due
      · exact h
  | remove other =>
      rw [Jobs.obey, Jobs.standing_remove]
      split
      · exact Standing.IsOrdered.removed
      · exact h
  | report => exact h

theorem IsSound.after_obey {roster : Roster} (h : roster.IsSound) (order : Order) :
    (roster.after (.obey order)).IsSound where
  isKeyed := Jobs.isKeyed_waiting_obey h.isKeyed order
  flight site := by
    rw [after, running_obey]
    exact h.flight site
  isOrdered site := isOrdered_obey (h.isOrdered site) order

theorem IsSound.after_fire {roster : Roster} (h : roster.IsSound) (now : Instant) :
    (roster.after (.fire now)).IsSound where
  isKeyed := Jobs.isKeyed_waiting_fire h.isKeyed now
  flight site := by
    have hstanding := congrArg Standing.running (Jobs.standing_fire h.isKeyed now site)
    change ((roster.jobs.fire now).1.running.get? site) = _ at hstanding
    rw [after, List.filter_append, List.map_append, h.flight, Jobs.starts_fire h.isKeyed, hstanding]
    unfold Standing.fired
    cases hready : (roster.jobs.standing site).ready? now with
    | none => simp [Jobs.standing]
    | some due =>
        obtain ⟨-, -, hidle⟩ := Standing.ready?_eq_some_iff.1 hready
        have hnone : roster.jobs.running.get? site = none := hidle
        simp [hnone]
  isOrdered site := by
    rw [after, Jobs.standing_fire h.isKeyed]
    exact (h.isOrdered site).fired now

theorem IsSound.after_finish {roster : Roster} (h : roster.IsSound) {body : Start}
    (hbody : body ∈ roster.flight) : (roster.after (.finish body)).IsSound where
  isKeyed := Jobs.isKeyed_waiting_finish h.isKeyed body.site
  flight site := by
    obtain ⟨hflight, hrunning⟩ := h.filter_flight_of_mem hbody
    have hstanding := congrArg Standing.running (standing_after_finish roster body site)
    change (roster.after (.finish body)).jobs.running.get? site = _ at hstanding
    rw [hstanding, after, ← List.erase_filter]
    by_cases hsite : site = body.site
    · subst hsite
      rw [hflight, if_pos rfl]
      simp [Standing.finished, Jobs.standing, hrunning]
    · have hnot : body ∉ roster.flight.filter (·.site = site) := by
        simp [Ne.symm hsite]
      rw [if_neg hsite, List.erase_of_not_mem hnot]
      exact h.flight site
  isOrdered site := by
    rw [standing_after_finish]
    split
    · exact (h.isOrdered site).finished
    · exact h.isOrdered site

theorem IsSound.after {roster : Roster} (h : roster.IsSound) {move : Move}
    (hallows : roster.Allows move) : (roster.after move).IsSound := by
  cases move with
  | obey order => exact h.after_obey order
  | fire now => exact h.after_fire now
  | finish body => exact h.after_finish hallows

theorem IsSound.run {roster : Roster} (h : roster.IsSound) {moves : List Move}
    (hallows : roster.AllowsAll moves) : (roster.run moves).IsSound := by
  induction moves generalizing roster with
  | nil => exact h
  | cons move rest ih => exact ih (h.after hallows.1) hallows.2

end Roster

end KeepAlive
