import KeepAlive.Proofs.Browser.Alike
import KeepAlive.Proofs.Login.Polling

/-!
# Loops that are alike

A loop that asks until the time is over is told apart from another one only by when it stops.  So
more pauses than fit into the time make no difference, which is to say that the loop comes to its
end by itself; and a later limit makes none where the loop ends with a good answer.
-/

namespace KeepAlive.Login

open Browser

variable {α σ : Type} {server : Server σ} {probe : Session α} {between : Session Unit}
  {isGood : α → Bool} {scene middle last : Scene σ} {limit later : Nat} {answer first : α}
  {again other : Option (Session (Except α α))} {next : Session (Except α α)}

/-! ### One round

What a round does with its answer is what it does if the answer is there already. -/

theorem pollOr_eq_bind (probe : Session α) (isGood : α → Bool) (limit : Nat)
    (again : Option (Session (Except α α))) :
    pollOr probe isGood limit again =
      probe >>= fun answer => pollOr (pure answer) isGood limit again := by
  unfold pollOr
  simp only [pure_bind]

theorem alike_pollOr_of_good (h : isGood answer = true) :
    Session.Alike server scene (pollOr (pure answer) isGood limit again) (pure (.ok answer)) := by
  unfold pollOr
  rw [pure_bind, if_pos h]
  exact .refl _

/-- With a bad answer it stops if no time is left for another round. -/
theorem alike_pollOr_of_late (hbad : isGood answer = false) (h : again = none ∨ limit ≤ scene.now) :
    Session.Alike server scene (pollOr (pure answer) isGood limit again) (pure (.error answer)) := by
  unfold pollOr
  rw [pure_bind, hbad, if_neg Bool.false_ne_true]
  apply (Session.Alike.clock_bind _).trans
  cases again with
  | none => exact .refl _
  | some next =>
    dsimp only
    rw [if_pos (h.resolve_left (Option.some_ne_none next))]
    exact .refl _

theorem alike_pollOr_of_soon (hbad : isGood answer = false) (h : scene.now < limit) :
    Session.Alike server scene (pollOr (pure answer) isGood limit (some next)) next := by
  unfold pollOr
  rw [pure_bind, hbad, if_neg Bool.false_ne_true]
  apply (Session.Alike.clock_bind _).trans
  dsimp only
  rw [if_neg (Nat.not_le_of_lt h)]
  exact .refl _

theorem alike_pollOr_of_answer (hanswer : probe.Yields server scene answer middle)
    (h : Session.Alike server middle (pollOr (pure answer) isGood limit again) next) :
    Session.Alike server scene (pollOr probe isGood limit again) (probe >>= fun _ => next) := by
  rw [pollOr_eq_bind]
  apply Session.Alike.bind_left
  intro first place hfirst
  obtain ⟨rfl, rfl⟩ := hfirst.unique hanswer
  exact h

/-- Two rounds of asking are alike if with each bad answer either both stop or both go on, and go on
alike. -/
theorem alike_pollOr
    (h : ∀ answer middle, probe.Yields server scene answer middle → isGood answer = false →
      (again = none ∨ limit ≤ middle.now) ∧ (other = none ∨ later ≤ middle.now) ∨
      ∃ first second, again = some first ∧ other = some second ∧ middle.now < limit ∧
        middle.now < later ∧ Session.Alike server middle first second) :
    Session.Alike server scene (pollOr probe isGood limit again)
      (pollOr probe isGood later other) := by
  rw [pollOr_eq_bind, pollOr_eq_bind probe isGood later]
  apply Session.Alike.bind_left
  intro answer middle hanswer
  by_cases hgood : isGood answer = true
  · exact (alike_pollOr_of_good hgood).trans (alike_pollOr_of_good hgood).symm
  · have hbad : isGood answer = false := by simpa using hgood
    rcases h answer middle hanswer hbad with
      ⟨hstop, hother⟩ | ⟨first, second, rfl, rfl, hsoon, hearly, halike⟩
    · exact (alike_pollOr_of_late hbad hstop).trans (alike_pollOr_of_late hbad hother).symm
    · apply (alike_pollOr_of_soon hbad hsoon).trans
      exact halike.trans (alike_pollOr_of_soon hbad hearly).symm

/-- A round that ends with a good answer though its own is bad has gone on in time. -/
theorem exists_again_of_bad
    (h : (pollOr probe isGood limit again).Yields server scene (.ok answer) last)
    (hfirst : probe.Yields server scene first middle) (hbad : isGood first = false) :
    ∃ next, again = some next ∧ middle.now < limit ∧
      next.Yields server middle (.ok answer) last := by
  rw [pollOr_eq_bind] at h
  obtain ⟨other, place, hother, hresult⟩ := Session.yields_bind_iff.1 h
  obtain ⟨rfl, rfl⟩ := hother.unique hfirst
  by_cases hstop : again = none ∨ limit ≤ place.now
  · cases (Session.yields_pure_iff.1 ((alike_pollOr_of_late hbad hstop).yields_iff.1 hresult)).1
  · obtain ⟨hsome, hsoon⟩ := not_or.1 hstop
    obtain ⟨next, rfl⟩ := Option.ne_none_iff_exists'.1 hsome
    have hnext := (alike_pollOr_of_soon hbad (Nat.lt_of_not_le hsoon)).yields_iff.1 hresult
    exact ⟨next, Eq.refl _, Nat.lt_of_not_le hsoon, hnext⟩

/-! ### Loops -/

/-- With a pause of at least `step` each time, all numbers of pauses that are enough for the time
that is left are alike. -/
theorem alike_poll_of_enough {step pauses more : Nat}
    (hstep : ∀ scene last : Scene σ, between.Yields server scene () last →
      scene.now + step ≤ last.now)
    (hpauses : limit ≤ scene.now + pauses * step) (hmore : limit ≤ scene.now + more * step) :
    Session.Alike server scene (poll probe between isGood limit pauses)
      (poll probe between isGood limit more) := by
  -- Where one of the two has no pause left, the limit has passed.
  induction pauses generalizing scene more with
  | zero =>
    have hlate {middle : Scene σ} (h : scene.now ≤ middle.now) : limit ≤ middle.now := by omega
    cases more with
    | zero => exact .refl _
    | succ more =>
      apply alike_pollOr
      intro answer middle hanswer _
      exact .inl ⟨.inl (Eq.refl _), .inr (hlate hanswer.now_le)⟩
  | succ pauses ih =>
    cases more with
    | zero =>
      apply alike_pollOr
      intro answer middle hanswer _
      have hle := hanswer.now_le
      exact .inl ⟨.inr (by omega), .inl (Eq.refl _)⟩
    | succ more =>
      apply alike_pollOr
      intro answer middle hanswer _
      by_cases hlate : limit ≤ middle.now
      · exact .inl ⟨.inr hlate, .inr hlate⟩
      · refine .inr ⟨_, _, Eq.refl _, Eq.refl _, by omega, by omega, ?_⟩
        apply Session.Alike.bind_left
        intro _ again hagain
        have hlong := hstep middle again hagain
        have hle := hanswer.now_le
        rw [Nat.succ_mul] at hpauses hmore
        exact ih (by omega) (by omega)

/-- A loop that ends with a good answer is the same with a later limit and more pauses. -/
theorem alike_poll_of_later {pauses more : Nat}
    (h : (poll probe between isGood limit pauses).Yields server scene (.ok answer) last)
    (hlimit : limit ≤ later) (hmore : pauses ≤ more) :
    Session.Alike server scene (poll probe between isGood later more)
      (poll probe between isGood limit pauses) := by
  induction pauses generalizing scene more with
  | zero =>
    have hnever {first : α} {middle : Scene σ} (hfirst : probe.Yields server scene first middle)
        (hbad : isGood first = false) : False := by
      obtain ⟨next, hnext, -⟩ := exists_again_of_bad h hfirst hbad
      cases hnext
    cases more with
    | zero | succ =>
      apply alike_pollOr
      intro first middle hfirst hbad
      exact (hnever hfirst hbad).elim
  | succ pauses ih =>
    cases more with
    | zero => exact absurd hmore (Nat.not_succ_le_zero pauses)
    | succ more =>
      apply alike_pollOr
      intro first middle hfirst hbad
      obtain ⟨next, hnext, hsoon, hyields⟩ := exists_again_of_bad h hfirst hbad
      cases hnext
      refine .inr ⟨_, _, Eq.refl _, Eq.refl _, Nat.lt_of_lt_of_le hsoon hlimit, hsoon, ?_⟩
      apply Session.Alike.bind_left
      intro _ again hagain
      obtain ⟨⟨⟩, place, hplace, hrest⟩ := Session.yields_bind_iff.1 hyields
      obtain ⟨-, rfl⟩ := hplace.unique hagain
      exact ih hrest (Nat.le_of_succ_le_succ hmore)

section Deadlines

variable {timing : Timing} {pauses : Nat}

/-- A loop up to a deadline ends by itself: more pauses than fit into its timeout make no
difference. -/
theorem alike_poll_idle (probe : Session α) (isGood : α → Bool) {timeout interval : Nat}
    (hinterval : 0 < interval)
    (hpauses : pausesWithin timeout interval ≤ pauses) :
    Session.Alike server scene (poll probe (idle interval) isGood (scene.now + timeout) pauses)
      (poll probe (idle interval) isGood (scene.now + timeout) (pausesWithin timeout interval)) := by
  have henough := le_pausesWithin_mul timeout hinterval
  have hmore := Nat.mul_le_mul_right (min interval longestNap) hpauses
  exact alike_poll_of_enough (fun _ _ => le_now_of_idle) (by omega) (by omega)

theorem alike_discover (hdiscovery : 0 < timing.discoveryInterval)
    (hpauses : pausesWithin timing.discoveryTimeout timing.discoveryInterval ≤ pauses) :
    Session.Alike server scene (discover timing (scene.now + timing.discoveryTimeout) pauses)
      (discover timing (scene.now + timing.discoveryTimeout)
        (pausesWithin timing.discoveryTimeout timing.discoveryInterval)) := by
  rw [discover_eq, discover_eq, ← bind_pure_comp, ← bind_pure_comp]
  exact (alike_poll_idle _ _ hdiscovery hpauses).bind_right _

theorem alike_awaitUrl (expected : String) (hpoll : 0 < timing.successPoll)
    (hpauses : pausesWithin timing.successTimeout timing.successPoll ≤ pauses) :
    Session.Alike server scene
      (Session.call .currentUrl >>=
        awaitUrl timing expected (scene.now + timing.successTimeout) pauses)
      (Session.call .currentUrl >>= awaitUrl timing expected (scene.now + timing.successTimeout)
        (pausesWithin timing.successTimeout timing.successPoll)) := by
  rw [awaitUrl_eq, awaitUrl_eq, ← bind_pure_comp, ← bind_pure_comp]
  exact (alike_poll_idle _ _ hpoll hpauses).bind_right _

end Deadlines

end KeepAlive.Login
