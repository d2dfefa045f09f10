import KeepAlive.Proofs.Browser.Effort
import KeepAlive.Proofs.Login.Lengthening
import Mathlib.Algebra.Order.Floor.Div

/-!
# Rounds of asking

With a server that answers at once, a loop that asks until the time is over asks once more than it
pauses, and pauses no more often than it takes to get past its limit.  So the rounds of a loop up to
a deadline are bounded by the timeout divided by the interval, rounded up, and a loop that ends with
a bad answer has made as many pauses as that.
-/

namespace KeepAlive.Login

open Browser

/-- What is spent on asking once more than pausing. -/
def roundsEffort (searches looks interval count : Nat) : Effort :=
  ⟨(count + 1) * searches, (count + 1) * looks, count * interval⟩

/-- Whether a loop makes this many pauses: it asks once more, and if it ends with a bad answer, then
the limit has passed with the last pause. -/
structure MakesPauses {α σ : Type} (server : Server σ) (scene : Scene σ) (loop : Session (Except α α))
    (searches looks limit interval count : Nat) : Prop where
  effort_le : effortOf (loop.events server scene) ≤ roundsEffort searches looks interval count
  effort_eq : ∀ result last, loop.Yields server scene result last →
    effortOf (loop.events server scene) = roundsEffort searches looks interval count
  limit_le : ∀ answer last, loop.Yields server scene (.error answer) last →
    limit ≤ scene.now + count * interval

theorem roundsEffort_succ (searches looks interval count : Nat) :
    roundsEffort searches looks interval (count + 1) =
      ⟨searches, looks, 0⟩ + (⟨0, 0, interval⟩ + roundsEffort searches looks interval count) := by
  have hsucc (n : Nat) : (count + 1 + 1) * n = n + (count + 1) * n := by
    rw [Nat.succ_mul, Nat.add_comm]
  have htime : (count + 1) * interval = interval + count * interval := by
    rw [Nat.succ_mul, Nat.add_comm]
  unfold roundsEffort
  rw [hsucc, hsucc, htime]
  change _ = Effort.mk (searches + (0 + _)) (looks + (0 + _)) (0 + (interval + _))
  simp only [Nat.zero_add]

section Rounds

variable {α σ : Type} {server : Server σ} {probe : Session α} {isGood : α → Bool}
  {loop : Session (Except α α)} {scene last : Scene σ}
  {searches looks limit interval count rounds : Nat}

theorem effort_idle (hshown : IsShowable (scene.now + interval)) :
    effortOf ((idle interval).events server scene) = ⟨0, 0, interval⟩ := by
  have hclock : Session.clock.Yields server scene scene.now scene :=
    Session.yields_clock_iff.2 ⟨Eq.refl _, Eq.refl _⟩
  unfold IsShowable at hshown
  have hnap : (nap interval).Yields server scene () (scene.later interval) := by
    rw [nap_yields_iff, if_pos hshown]
  have hpause : (nap interval).events server scene = [.paused interval] := by
    unfold nap
    rw [hclock.events_bind, if_pos hshown]
    rfl
  unfold idle
  rw [hnap.effort_bind, hpause, Session.events_callAnyway]
  rfl

variable (hprobe : ∀ scene, effortOf (probe.events server scene) = ⟨searches, looks, 0⟩)

include hprobe

/-- A loop that does not get its first answer makes no pause. -/
theorem makesPauses_of_unanswered (again : Option (Session (Except α α)))
    (h : ¬∃ answer middle, probe.Yields server scene answer middle) :
    MakesPauses server scene (pollOr probe isGood limit again) searches looks limit interval 0 := by
  have hevents : effortOf ((pollOr probe isGood limit again).events server scene) =
      roundsEffort searches looks interval 0 := by
    unfold pollOr roundsEffort
    rw [Session.events_bind_of_not_yields h, hprobe]
    simp
  have hnone {result : Except α α} {last : Scene σ} :
      ¬(pollOr probe isGood limit again).Yields server scene result last := by
    intro hyields
    obtain ⟨answer, middle, hanswer, -⟩ := pollOr_yields_iff.1 hyields
    exact h ⟨answer, middle, hanswer⟩
  exact ⟨Effort.le_of_eq hevents, fun _ _ _ => hevents, fun _ _ hyields => absurd hyields hnone⟩

/-- Nor does one that stops with it. -/
theorem makesPauses_of_stop {answer : α} {middle : Scene σ} {result : Except α α}
    (hanswer : probe.Yields server scene answer middle)
    (h : Session.Alike server scene loop (probe >>= fun _ => pure result))
    (hlate : ∀ answer, result = .error answer → limit ≤ scene.now) :
    MakesPauses server scene loop searches looks limit interval 0 := by
  have hevents : effortOf (loop.events server scene) = roundsEffort searches looks interval 0 := by
    rw [h.events_eq, hanswer.effort_bind, hprobe]
    simp [roundsEffort]
  refine ⟨Effort.le_of_eq hevents, fun _ _ _ => hevents, ?_⟩
  intro other last hyields
  obtain ⟨first, place, -, hresult⟩ := Session.yields_bind_iff.1 (h.yields_iff.1 hyields)
  have hle := hlate other (Session.yields_pure_iff.1 hresult).1.symm
  omega

/-- One that goes on makes one pause more than it does afterwards. -/
theorem makesPauses_of_idle {answer : α} {middle : Scene σ} (hserver : AnswersAtOnce server)
    (hanswer : probe.Yields server scene answer middle)
    {rest : Session (Except α α)}
    (h : Session.Alike server scene loop (probe >>= fun _ => idle interval >>= fun _ => rest))
    (hshown : IsShowable (scene.now + interval))
    (hrest : ∀ again : Scene σ, again.now = scene.now + interval → ∃ count ≤ rounds,
      MakesPauses server again rest searches looks limit interval count) :
    ∃ count ≤ rounds + 1, MakesPauses server scene loop searches looks limit interval count := by
  have hnow : middle.now = scene.now := by
    rw [hanswer.now_eq hserver, hprobe, Nat.add_zero]
  rw [← hnow] at hshown
  have hloop : effortOf (loop.events server scene) = ⟨searches, looks, 0⟩ +
      effortOf ((idle interval >>= fun _ => rest).events server middle) := by
    rw [h.events_eq, hanswer.effort_bind, hprobe]
  by_cases hidle : ∃ again, (idle interval).Yields server middle () again
  · obtain ⟨again, hagain⟩ := hidle
    have hlater : again.now = scene.now + interval := by
      rw [hagain.now_eq hserver, effort_idle hshown, hnow]
    obtain ⟨count, hcount, hpauses⟩ := hrest again hlater
    rw [hagain.effort_bind, effort_idle hshown] at hloop
    have hyields {result : Except α α} {last : Scene σ}
        (hresult : loop.Yields server scene result last) : rest.Yields server again result last := by
      obtain ⟨first, place, hfirst, hidle⟩ := Session.yields_bind_iff.1 (h.yields_iff.1 hresult)
      obtain ⟨-, rfl⟩ := hfirst.unique hanswer
      obtain ⟨⟨⟩, final, hfinal, hrest⟩ := Session.yields_bind_iff.1 hidle
      obtain ⟨-, rfl⟩ := hfinal.unique hagain
      exact hrest
    refine ⟨count + 1, Nat.succ_le_succ hcount, ?_, ?_, ?_⟩
    · rw [hloop, roundsEffort_succ]
      exact Effort.add_le_add (Effort.le_refl _)
        (Effort.add_le_add (Effort.le_refl _) hpauses.effort_le)
    · intro result last hresult
      rw [hloop, hpauses.effort_eq result last (hyields hresult), roundsEffort_succ]
    · intro other last hresult
      have hle := hpauses.limit_le other last (hyields hresult)
      rw [hlater] at hle
      rw [Nat.succ_mul]
      omega
  · have hnone {result : Except α α} {last : Scene σ} : ¬loop.Yields server scene result last := by
      intro hresult
      obtain ⟨first, place, hfirst, hrest⟩ := Session.yields_bind_iff.1 (h.yields_iff.1 hresult)
      obtain ⟨-, rfl⟩ := hfirst.unique hanswer
      obtain ⟨⟨⟩, again, hagain, -⟩ := Session.yields_bind_iff.1 hrest
      exact hidle ⟨again, hagain⟩
    have hbroken : ¬∃ result again, (idle interval).Yields server middle result again := by
      rintro ⟨⟨⟩, again, hagain⟩
      exact hidle ⟨again, hagain⟩
    rw [Session.events_bind_of_not_yields hbroken, effort_idle hshown] at hloop
    refine ⟨1, Nat.succ_le_succ (Nat.zero_le rounds), ?_, fun _ _ hresult => absurd hresult hnone,
      fun _ _ hresult => absurd hresult hnone⟩
    rw [hloop, roundsEffort_succ, ← Effort.add_zero ⟨0, 0, interval⟩]
    exact Effort.add_le_add (Effort.le_refl _)
      (Effort.add_le_add (Effort.le_refl _) (Effort.zero_le _))

/-- Nor does one that begins when its limit has passed. -/
theorem makesPauses_of_late (again : Option (Session (Except α α))) (hlate : limit ≤ scene.now) :
    MakesPauses server scene (pollOr probe isGood limit again) searches looks limit interval 0 := by
  by_cases hfirst : ∃ answer middle, probe.Yields server scene answer middle
  · obtain ⟨answer, middle, hanswer⟩ := hfirst
    have hnow : limit ≤ middle.now := Nat.le_trans hlate hanswer.now_le
    obtain ⟨result, hstops⟩ : ∃ result, Session.Alike server middle
        (pollOr (pure answer) isGood limit again) (pure result) := by
      by_cases hgood : isGood answer = true
      · exact ⟨.ok answer, alike_pollOr_of_good hgood⟩
      · exact ⟨.error answer, alike_pollOr_of_late (by simpa using hgood) (.inr hnow)⟩
    exact makesPauses_of_stop hprobe hanswer (alike_pollOr_of_answer hanswer hstops)
      fun _ _ => hlate
  · exact makesPauses_of_unanswered hprobe again hfirst

/-- A loop pauses no more often than it takes to get past its limit, as long as the clock can show
the end of the last pause. -/
theorem exists_makesPauses {pauses : Nat} (hserver : AnswersAtOnce server)
    (hpauses : limit ≤ scene.now + pauses * min interval longestNap)
    (hrounds : limit ≤ scene.now + rounds * interval)
    (hshown : IsShowable (scene.now + rounds * interval)) :
    ∃ count ≤ rounds, MakesPauses server scene (poll probe (idle interval) isGood limit pauses)
      searches looks limit interval count := by
  -- The pauses that are left always suffice for the time that is left, and the clock can show the
  -- end of each of them.
  induction pauses generalizing scene rounds with
  | zero =>
    rw [Nat.zero_mul, Nat.add_zero] at hpauses
    exact ⟨0, Nat.zero_le rounds, makesPauses_of_late hprobe none hpauses⟩
  | succ pauses ih =>
    by_cases hlate : limit ≤ scene.now
    · exact ⟨0, Nat.zero_le rounds, makesPauses_of_late hprobe _ hlate⟩
    by_cases hfirst : ∃ answer middle, probe.Yields server scene answer middle
    · obtain ⟨answer, middle, hanswer⟩ := hfirst
      have hnow : middle.now = scene.now := by
        rw [hanswer.now_eq hserver, hprobe, Nat.add_zero]
      by_cases hgood : isGood answer = true
      · refine ⟨0, Nat.zero_le rounds, makesPauses_of_stop hprobe hanswer
          (alike_pollOr_of_answer hanswer (alike_pollOr_of_good hgood)) ?_⟩
        exact nofun
      · have hbad : isGood answer = false := by simpa using hgood
        have hsoon : middle.now < limit := by
          rw [hnow]
          exact Nat.lt_of_not_le hlate
        cases rounds with
        | zero =>
          rw [Nat.zero_mul, Nat.add_zero] at hrounds
          exact absurd hrounds hlate
        | succ rounds =>
          rw [Nat.succ_mul] at hpauses hrounds hshown
          apply makesPauses_of_idle hprobe hserver hanswer
            (alike_pollOr_of_answer hanswer (alike_pollOr_of_soon hbad hsoon))
            (hshown.mono (by omega))
          intro again hagain
          exact ih (by omega) (by omega) (hshown.mono (by omega))
    · exact ⟨0, Nat.zero_le rounds, makesPauses_of_unanswered hprobe _ hfirst⟩

end Rounds

section Deadlines

variable {α β σ : Type} {server : Server σ} {probe : Session α} {isGood : α → Bool} {scene : Scene σ}
  {searches looks timeout interval : Nat}

theorem exists_makesPauses_within (hserver : AnswersAtOnce server)
    (hinterval : 0 < interval)
    (hprobe : ∀ scene, effortOf (probe.events server scene) = ⟨searches, looks, 0⟩)
    (hshown : IsShowable (scene.now + interval * (timeout ⌈/⌉ interval))) :
    ∃ count ≤ timeout ⌈/⌉ interval,
      MakesPauses server scene
        (poll probe (idle interval) isGood (scene.now + timeout) (pausesWithin timeout interval))
        searches looks (scene.now + timeout) interval count := by
  have hcover : timeout ≤ interval * (timeout ⌈/⌉ interval) := le_smul_ceilDiv hinterval
  have henough := le_pausesWithin_mul timeout hinterval
  rw [Nat.mul_comm] at hshown hcover
  exact exists_makesPauses hprobe hserver (by omega) (by omega) hshown

/-- A loop up to a deadline, whatever is made of its end: it makes no more pauses than cover the
timeout, and if it ends with a bad answer, exactly those. -/
theorem exists_count_of_deadline_poll (hserver : AnswersAtOnce server) (hinterval : 0 < interval)
    (hprobe : ∀ scene, effortOf (probe.events server scene) = ⟨searches, looks, 0⟩)
    (hshown : IsShowable (scene.now + interval * (timeout ⌈/⌉ interval))) (rest : Except α α → β) :
    let loop := deadline timeout >>= fun limit =>
      poll probe (idle interval) isGood limit (pausesWithin timeout interval) >>= fun answer =>
        pure (rest answer)
    ∃ count ≤ timeout ⌈/⌉ interval,
      effortOf (loop.events server scene) ≤ roundsEffort searches looks interval count ∧
      ∀ result last, loop.Yields server scene result last →
        effortOf (loop.events server scene) = roundsEffort searches looks interval count ∧
        ((∃ answer, result = rest (.ok answer)) ∨
          ∃ answer, result = rest (.error answer) ∧ count = timeout ⌈/⌉ interval) := by
  intro loop
  have hcover : timeout ≤ interval * (timeout ⌈/⌉ interval) := le_smul_ceilDiv hinterval
  obtain ⟨count, hcount, hpauses⟩ : ∃ count ≤ timeout ⌈/⌉ interval, MakesPauses server scene
      (poll probe (idle interval) isGood (scene.now + timeout) (pausesWithin timeout interval))
      searches looks (scene.now + timeout) interval count :=
    exists_makesPauses_within hserver hinterval hprobe hshown
  have halike : Session.Alike server scene loop
      (poll probe (idle interval) isGood (scene.now + timeout) (pausesWithin timeout interval) >>=
        fun answer => pure (rest answer)) :=
    alike_deadline_bind (hshown.mono (Nat.add_le_add_left hcover _)) _
  rw [halike.events_eq, Session.effort_bind_eq_left fun _ _ => Eq.refl 0]
  refine ⟨count, hcount, hpauses.effort_le, ?_⟩
  intro result last hresult
  obtain ⟨answer, middle, hanswer, hrest⟩ := Session.yields_bind_iff.1 (halike.yields_iff.1 hresult)
  obtain ⟨rfl, rfl⟩ := Session.yields_pure_iff.1 hrest
  constructor
  · exact hpauses.effort_eq answer last hanswer
  · cases answer with
    | ok answer => exact .inl ⟨answer, rfl⟩
    | error answer =>
      refine .inr ⟨answer, rfl, Nat.le_antisymm hcount ?_⟩
      have hlimit := hpauses.limit_le answer last hanswer
      rw [Nat.mul_comm] at hlimit
      exact (ceilDiv_le_iff_le_mul hinterval).2 (Nat.le_of_add_le_add_left hlimit)

end Deadlines

end KeepAlive.Login
