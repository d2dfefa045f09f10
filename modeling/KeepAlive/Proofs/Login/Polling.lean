import KeepAlive.Login.Attempt
import KeepAlive.Proofs.Browser.Scene

/-!
# Asking again until the time is over

The search for the form and the look at the url are the same loop: something is asked until the answer
is good or a limit has passed, with a pause and a dismissed challenge in between.  The loop counts its
pauses; as every pause takes its time, the count is never used up before the limit.  So which answer
decides can be said without the loop, by the answers that asking for ever would give.
-/

namespace KeepAlive.Login

open Browser

section Repeated

variable {α σ : Type}

/-- The answer number `n`, from 0, of something that is asked for ever. -/
def repeated (probe : Session α) (between : Session Unit) : Nat → Session α
  | 0 => probe
  | n + 1 => do
    let _ ← probe
    between
    repeated probe between n

/-- Whether the answer is the one that decides: the first that is good or comes when the limit has
passed. -/
def Decides (server : Server σ) (probe : Session α) (between : Session Unit) (isGood : α → Bool)
    (limit : Nat) (scene : Scene σ) (answer : α) (last : Scene σ) : Prop :=
  ∃ n, (repeated probe between n).Yields server scene answer last ∧
    (isGood answer = true ∨ limit ≤ last.now) ∧
    ∀ m < n, ∃ earlier middle, (repeated probe between m).Yields server scene earlier middle ∧
      isGood earlier = false ∧ middle.now < limit

variable {server : Server σ} {probe : Session α} {between : Session Unit} {isGood : α → Bool}
  {limit : Nat} {scene middle last : Scene σ} {first answer : α}

theorem repeated_succ_yields_iff {n : Nat} :
    (repeated probe between (n + 1)).Yields server scene answer last ↔
      ∃ first middle again, probe.Yields server scene first middle ∧
        between.Yields server middle () again ∧
        (repeated probe between n).Yields server again answer last := by
  simp only [repeated, Session.yields_bind_iff]
  constructor
  · rintro ⟨first, middle, hfirst, ⟨⟩, again, hagain, hrest⟩
    exact ⟨first, middle, again, hfirst, hagain, hrest⟩
  · rintro ⟨first, middle, again, hfirst, hagain, hrest⟩
    exact ⟨first, middle, hfirst, (), again, hagain, hrest⟩

/-- The first answer decides if it is good or late. -/
theorem decides_iff_of_first (hfirst : probe.Yields server scene first middle)
    (h : isGood first = true ∨ limit ≤ middle.now) :
    Decides server probe between isGood limit scene answer last ↔
      answer = first ∧ last = middle := by
  constructor
  · rintro ⟨_ | n, hyields, -, hearlier⟩
    · exact hyields.unique hfirst
    · obtain ⟨other, final, hother, hbad, hsoon⟩ := hearlier 0 (Nat.succ_pos n)
      obtain ⟨rfl, rfl⟩ := Session.Yields.unique hother hfirst
      rcases h with hgood | hlate
      · rw [hgood] at hbad
        exact absurd hbad (by decide)
      · omega
  · rintro ⟨rfl, rfl⟩
    exact ⟨0, hfirst, h, fun m hm => absurd hm (Nat.not_lt_zero m)⟩

/-- Otherwise the answer decides that does so from the next time on. -/
theorem decides_iff_of_next (hfirst : probe.Yields server scene first middle)
    (hbad : isGood first = false) (hsoon : middle.now < limit) :
    Decides server probe between isGood limit scene answer last ↔
      ∃ again, between.Yields server middle () again ∧
        Decides server probe between isGood limit again answer last := by
  constructor
  · rintro ⟨_ | n, hyields, hdecides, hearlier⟩
    · obtain ⟨rfl, rfl⟩ := Session.Yields.unique hyields hfirst
      rcases hdecides with hgood | hlate
      · rw [hgood] at hbad
        exact absurd hbad (by decide)
      · omega
    · obtain ⟨other, final, again, hother, hagain, hrest⟩ := repeated_succ_yields_iff.1 hyields
      obtain ⟨rfl, rfl⟩ := hother.unique hfirst
      refine ⟨again, hagain, n, hrest, hdecides, ?_⟩
      intro m hm
      obtain ⟨earlier, place, hplace, hrefused⟩ := hearlier (m + 1) (Nat.succ_lt_succ hm)
      obtain ⟨_, _, next, hsame, hnext, hplace⟩ := repeated_succ_yields_iff.1 hplace
      obtain ⟨rfl, rfl⟩ := hsame.unique hother
      obtain ⟨-, rfl⟩ := hnext.unique hagain
      exact ⟨earlier, place, hplace, hrefused⟩
  · rintro ⟨again, hagain, n, hyields, hdecides, hearlier⟩
    refine ⟨n + 1, repeated_succ_yields_iff.2 ⟨first, middle, again, hfirst, hagain, hyields⟩,
      hdecides, ?_⟩
    rintro (_ | m) hm
    · exact ⟨first, middle, hfirst, hbad, hsoon⟩
    · obtain ⟨earlier, place, hplace, hrefused⟩ := hearlier m (Nat.lt_of_succ_lt_succ hm)
      exact ⟨earlier, place, repeated_succ_yields_iff.2
        ⟨first, middle, again, hfirst, hagain, hplace⟩, hrefused⟩

/-- Whatever decides, it has been asked for. -/
theorem Decides.exists_first (h : Decides server probe between isGood limit scene answer last) :
    ∃ first middle, probe.Yields server scene first middle := by
  obtain ⟨_ | n, hyields, -⟩ := h
  · exact ⟨answer, last, hyields⟩
  · obtain ⟨first, middle, -, hfirst, -⟩ := repeated_succ_yields_iff.1 hyields
    exact ⟨first, middle, hfirst⟩

end Repeated

section Poll

variable {α σ : Type}

/-- Asks once.  If the answer is not good and there is time left, goes on with `again`, which is absent
when no further pause fits into the time. -/
def pollOr (probe : Session α) (isGood : α → Bool) (limit : Nat)
    (again : Option (Session (Except α α))) : Session (Except α α) := do
  let answer ← probe
  if isGood answer then return .ok answer
  else
    let now ← Session.clock
    match again with
    | none => return .error answer
    | some later => if limit ≤ now then return .error answer else later

/-- Asks until the answer is good or the time is over; a bad answer that decides is an error. -/
def poll (probe : Session α) (between : Session Unit) (isGood : α → Bool) (limit : Nat) :
    (pauses : Nat) → Session (Except α α)
  | 0 => pollOr probe isGood limit none
  | pauses + 1 => pollOr probe isGood limit (some do
      between
      poll probe between isGood limit pauses)

variable {server : Server σ} {probe : Session α} {between : Session Unit} {isGood : α → Bool}
  {limit : Nat} {scene last : Scene σ} {result : Except α α}

theorem pollOr_yields_iff {again : Option (Session (Except α α))} :
    (pollOr probe isGood limit again).Yields server scene result last ↔
      ∃ answer middle, probe.Yields server scene answer middle ∧
        (if isGood answer = true then result = .ok answer ∧ last = middle
         else match again with
          | none => result = .error answer ∧ last = middle
          | some later =>
            if limit ≤ middle.now then result = .error answer ∧ last = middle
            else later.Yields server middle result last) := by
  unfold pollOr
  rw [Session.yields_bind_iff]
  refine exists_congr fun answer => exists_congr fun middle => and_congr_right fun _ => ?_
  by_cases hgood : isGood answer = true
  · rw [if_pos hgood, if_pos hgood, Session.yields_pure_iff]
  · rw [if_neg hgood, if_neg hgood, Session.yields_clock_bind_iff]
    rcases again with _ | later
    · simp
    · by_cases hlate : limit ≤ middle.now
      · simp [hlate]
      · simp [hlate]

/-- With a pause of at least `step` each time, and pauses enough for the time that is left, the loop
ends with the answer that decides. -/
theorem poll_yields_iff {step pauses : Nat}
    (hstep : ∀ scene last : Scene σ, between.Yields server scene () last → scene.now + step ≤ last.now)
    (hpauses : limit ≤ scene.now + pauses * step) :
    (poll probe between isGood limit pauses).Yields server scene result last ↔
      ∃ answer, Decides server probe between isGood limit scene answer last ∧
        result = if isGood answer = true then .ok answer else .error answer := by
  -- The pauses that are left always suffice for the time that is left, so that the loop never ends
  -- for want of a pause: with none left, the limit has passed.
  induction pauses generalizing scene with
  | zero =>
    rw [poll, pollOr_yields_iff]
    constructor
    · rintro ⟨answer, middle, hanswer, hresult⟩
      have hlate : limit ≤ middle.now := by
        have hle := hanswer.now_le
        omega
      refine ⟨answer, (decides_iff_of_first hanswer (.inr hlate)).2 ⟨rfl, ?_⟩, ?_⟩
      · split at hresult <;> exact hresult.2
      · split at hresult <;> simp_all
    · rintro ⟨answer, hdecides, rfl⟩
      obtain ⟨first, middle, hfirst⟩ := hdecides.exists_first
      have hlate : limit ≤ middle.now := by
        have hle := hfirst.now_le
        omega
      obtain ⟨rfl, rfl⟩ := (decides_iff_of_first hfirst (.inr hlate)).1 hdecides
      refine ⟨answer, last, hfirst, ?_⟩
      split <;> simp
  | succ pauses ih =>
    have hrest : ∀ {middle again : Scene σ}, scene.now ≤ middle.now →
        between.Yields server middle () again → limit ≤ again.now + pauses * step := by
      intro middle again hle hagain
      have hlong := hstep middle again hagain
      rw [Nat.succ_mul] at hpauses
      omega
    rw [poll, pollOr_yields_iff]
    constructor
    · rintro ⟨answer, middle, hanswer, hresult⟩
      by_cases hgood : isGood answer = true
      · rw [if_pos hgood] at hresult
        refine ⟨answer, (decides_iff_of_first hanswer (.inl hgood)).2 ⟨rfl, hresult.2⟩, ?_⟩
        rw [if_pos hgood, hresult.1]
      · rw [if_neg hgood] at hresult
        by_cases hlate : limit ≤ middle.now
        · simp only [if_pos hlate] at hresult
          refine ⟨answer, (decides_iff_of_first hanswer (.inr hlate)).2 ⟨rfl, hresult.2⟩, ?_⟩
          rw [if_neg hgood, hresult.1]
        · simp only [if_neg hlate] at hresult
          obtain ⟨⟨⟩, again, hagain, hpoll⟩ := Session.yields_bind_iff.1 hresult
          obtain ⟨other, hdecides, hother⟩ := (ih (hrest hanswer.now_le hagain)).1 hpoll
          exact ⟨other, (decides_iff_of_next hanswer (by simpa using hgood) (by omega)).2
            ⟨again, hagain, hdecides⟩, hother⟩
    · rintro ⟨answer, hdecides, rfl⟩
      obtain ⟨first, middle, hfirst⟩ := hdecides.exists_first
      refine ⟨first, middle, hfirst, ?_⟩
      by_cases hgood : isGood first = true
      · obtain ⟨rfl, rfl⟩ := (decides_iff_of_first hfirst (.inl hgood)).1 hdecides
        simp [hgood]
      · rw [if_neg hgood]
        by_cases hlate : limit ≤ middle.now
        · obtain ⟨rfl, rfl⟩ := (decides_iff_of_first hfirst (.inr hlate)).1 hdecides
          simp [hgood, hlate]
        · simp only [if_neg hlate]
          obtain ⟨again, hagain, hother⟩ :=
            (decides_iff_of_next hfirst (by simpa using hgood) (by omega)).1 hdecides
          exact Session.yields_bind_iff.2
            ⟨(), again, hagain, (ih (hrest hfirst.now_le hagain)).2 ⟨answer, hother, rfl⟩⟩

end Poll

/-! ## The two loops of an attempt -/

/-- What is done between two looks at the page. -/
def idle (interval : Nat) : Session Unit := do
  nap interval
  Session.callAnyway .solveCaptcha

section Idle

variable {σ : Type} {server : Server σ} {scene last : Scene σ}

theorem le_pausesWithin_mul {interval : Nat} (timeout : Nat) (h : 0 < interval) :
    timeout ≤ pausesWithin timeout interval * min interval longestNap := by
  have hpos : 0 < min interval longestNap := by
    unfold longestNap
    omega
  have hceil : timeout + min interval longestNap - 1 < _ := Nat.lt_div_mul_add hpos
  unfold pausesWithin
  dsimp only
  omega

theorem nap_yields_iff {milliseconds : Nat} :
    (nap milliseconds).Yields server scene () last ↔
      last = scene.later
        (if (scene.now + milliseconds) / 1000 < clockBound then milliseconds else longestNap) := by
  simp [nap]

theorem le_now_of_idle {interval : Nat} (h : (idle interval).Yields server scene () last) :
    scene.now + min interval longestNap ≤ last.now := by
  obtain ⟨⟨⟩, middle, hnap, hdismiss⟩ := Session.yields_bind_iff.1 h
  have hlong : scene.now + min interval longestNap ≤ middle.now := by
    rw [nap_yields_iff.1 hnap]
    unfold Scene.later
    dsimp only
    split <;> omega
  exact Nat.le_trans hlong hdismiss.now_le

/-- A loop of an attempt ends with the answer that decides. -/
theorem poll_idle_yields_iff {α : Type} {probe : Session α} {isGood : α → Bool}
    {result : Except α α} {timeout interval : Nat} (h : 0 < interval) :
    (poll probe (idle interval) isGood (scene.now + timeout)
        (pausesWithin timeout interval)).Yields server scene result last ↔
      ∃ answer, Decides server probe (idle interval) isGood (scene.now + timeout) scene answer last ∧
        result = if isGood answer = true then .ok answer else .error answer := by
  have henough := le_pausesWithin_mul timeout h
  exact poll_yields_iff (fun _ _ => le_now_of_idle) (by omega)

end Idle

/-- What the search comes to, by the answer that decides. -/
def searched : Except Locators Locators → Except LoginStatus Locators
  | .ok found => .ok found
  | .error found => .error (missingStatus found)

theorem discover_eq (timing : Timing) (limit pauses : Nat) :
    discover timing limit pauses =
      searched <$> poll Form.find (idle timing.discoveryInterval)
        Locators.isComplete limit pauses := by
  induction pauses with
  | zero =>
    unfold discover poll searchOr pollOr
    rw [map_bind]
    refine congrArg _ (funext fun found => ?_)
    by_cases hfound : found.isComplete = true
    · simp [hfound, searched]
    · simp [hfound, searched]
  | succ pauses ih =>
    unfold discover poll searchOr pollOr
    rw [map_bind]
    refine congrArg _ (funext fun found => ?_)
    by_cases hfound : found.isComplete = true
    · simp [hfound, searched]
    · simp only [hfound, Bool.false_eq_true, if_false, map_bind]
      refine congrArg _ (funext fun now => ?_)
      by_cases hlate : limit ≤ now
      · simp [hlate, searched]
      · simp [hlate, ih, idle]

/-- The outcome of the look at the url, by the url that decides. -/
def outcomeOf (expected : String) : Except String String → Outcome
  | .ok _ => ⟨.success, none⟩
  | .error current => ⟨.successUrlDidNotMatch, some (mismatchMessage expected current)⟩

theorem awaitUrl_eq (timing : Timing) (expected : String) (limit pauses : Nat) :
    (do
      let current ← Session.call .currentUrl
      awaitUrl timing expected limit pauses current) =
      outcomeOf expected <$> poll (Session.call .currentUrl) (idle timing.successPoll)
        (urlsMatch · expected) limit pauses := by
  induction pauses with
  | zero =>
    unfold awaitUrl poll judgeOr pollOr
    rw [map_bind]
    refine congrArg _ (funext fun current => ?_)
    by_cases hmatch : urlsMatch current expected = true
    · simp [hmatch, outcomeOf]
    · simp [hmatch, outcomeOf]
  | succ pauses ih =>
    unfold awaitUrl poll judgeOr pollOr
    rw [map_bind]
    refine congrArg _ (funext fun current => ?_)
    by_cases hmatch : urlsMatch current expected = true
    · simp [hmatch, outcomeOf]
    · simp only [hmatch, Bool.false_eq_true, if_false, map_bind]
      refine congrArg _ (funext fun now => ?_)
      by_cases hlate : limit ≤ now
      · simp [hlate, outcomeOf]
      · simp [hlate, ih, idle]

end KeepAlive.Login
