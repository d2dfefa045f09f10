import KeepAlive.Proofs.Login.Verdict

/-!
# How a verdict is reached

`Reaches` says when an attempt comes to which verdict, stage by stage: a search that decides, a script
that runs to its end or stops, a url that decides.  There is no loop in it, so nothing that bounds one;
that the attempt comes to a verdict exactly when it is reached needs polling intervals that are not
zero.
-/

namespace KeepAlive.Login

open Browser

/-- Whether the clock can show the time. -/
def IsShowable (time : Nat) : Prop :=
  time / 1000 < clockBound

theorem IsShowable.mono {time later : Nat} (h : IsShowable later) (hle : time ≤ later) :
    IsShowable time :=
  Nat.lt_of_le_of_lt (Nat.div_le_div_right hle) h

section Relations

variable {σ : Type} (server : Server σ) (timing : Timing) (request : Request)

/-- The login page is opened, and whatever challenge it shows is dismissed as far as that goes. -/
def Shows (scene ready : Scene σ) : Prop :=
  ∃ page, (Session.call (.openUrl request.url)).Yields server scene () page ∧
    (Session.callAnyway .solveCaptcha).Yields server page () ready

/-- The search that decides finds this much of the form. -/
def Discovers (scene : Scene σ) (found : Locators) (last : Scene σ) : Prop :=
  IsShowable (scene.now + timing.discoveryTimeout) ∧
    Decides server Form.find (idle timing.discoveryInterval) Locators.isComplete
      (scene.now + timing.discoveryTimeout) scene found last

/-- The script that is to be run, with the locators it is run with, or why there is none. -/
inductive Prepares (scene : Scene σ) : Except Verdict Prepared → Scene σ → Prop
  /-- A site without a script of its own: the standard one, with a form that is found in time. -/
  | discovered {found : Locators} {last : Scene σ} (hscript : request.script = none)
      (hsearch : Discovers server timing scene found last) (hfound : found.isComplete = true) :
      Prepares scene (.ok ⟨standardCommands, found⟩) last
  | undiscovered {found : Locators} {last : Scene σ} (hscript : request.script = none)
      (hsearch : Discovers server timing scene found last) (hfound : found.isComplete = false) :
      Prepares scene (.error (.undiscovered found)) last
  | unreadable {source : String} {problem : Script.SyntaxError}
      (hscript : request.script = some source) (hparse : Script.parse source = .error problem) :
      Prepares scene (.error (.unreadable problem)) scene
  /-- A script of the site that relies on locators: one search, whatever it finds. -/
  | searched {source : String} {commands : List Script.Command} {found : Locators} {last : Scene σ}
      (hscript : request.script = some source) (hparse : Script.parse source = .ok commands)
      (hneeds : Script.needsLocators commands = true)
      (hsearch : Form.find.Yields server scene found last) :
      Prepares scene (.ok ⟨commands, found⟩) last
  /-- Any other script of the site: no search. -/
  | given {source : String} {commands : List Script.Command}
      (hscript : request.script = some source) (hparse : Script.parse source = .ok commands)
      (hneeds : Script.needsLocators commands = false) :
      Prepares scene (.ok ⟨commands, {}⟩) scene

/-- The script is run, to its end or until it stops. -/
def Runs (scene : Scene σ) (result : Except Script.Stopped Unit) (last : Scene σ) : Prop :=
  ∃ ready prepared middle, Shows server request scene ready ∧
    Prepares server timing request ready (.ok prepared) middle ∧
    (Script.run (settingFor timing request prepared.locators) prepared.commands).Yields server middle
      result last

/-- The success url is opened, and the browser is at this url at the look that decides. -/
def Looks (scene : Scene σ) (current : String) (last : Scene σ) : Prop :=
  ∃ landed, (Session.call (.openUrl request.successUrl)).Yields server scene () landed ∧
    IsShowable (landed.now + timing.successTimeout) ∧
    Decides server (Session.call .currentUrl) (idle timing.successPoll)
      (urlsMatch · request.successUrl) (landed.now + timing.successTimeout) landed current last

/-- The attempt comes to the verdict. -/
inductive Reaches (scene : Scene σ) : Verdict → Scene σ → Prop
  /-- There is no script to run: the site's own is not one, or too little of the form is found. -/
  | unprepared {ready last : Scene σ} {verdict : Verdict} (hshows : Shows server request scene ready)
      (hprepares : Prepares server timing request ready (.error verdict) last) :
      Reaches scene verdict last
  | stopped {last : Scene σ} {stop : Script.Stopped}
      (hruns : Runs server timing request scene (.error stop) last) :
      Reaches scene (.stopped stop) last
  | elsewhere {filled last : Scene σ} {current : String}
      (hruns : Runs server timing request scene (.ok ()) filled)
      (hlooks : Looks server timing request filled current last)
      (hmismatch : urlsMatch current request.successUrl = false) :
      Reaches scene (.elsewhere current) last
  | success {filled last : Scene σ} {current : String}
      (hruns : Runs server timing request scene (.ok ()) filled)
      (hlooks : Looks server timing request filled current last)
      (hmatch : urlsMatch current request.successUrl = true) : Reaches scene .success last

end Relations

section Stages

variable {σ : Type} {server : Server σ} {timing : Timing} {request : Request} {scene last : Scene σ}

theorem Shows.unique {ready other : Scene σ} (h : Shows server request scene ready)
    (hother : Shows server request scene other) : ready = other := by
  obtain ⟨page, hpage, hready⟩ := h
  obtain ⟨place, hplace, hagain⟩ := hother
  obtain ⟨-, rfl⟩ := hpage.unique hplace
  exact (hready.unique hagain).2

theorem deadline_yields_iff {timeout limit : Nat} :
    (deadline timeout).Yields server scene limit last ↔
      IsShowable (scene.now + timeout) ∧ limit = scene.now + timeout ∧ last = scene := by
  unfold deadline IsShowable
  rw [Session.yields_clock_bind_iff]
  split
  · rename_i h
    simp [h]
  · rename_i h
    simp [h]

/-- Polling up to a deadline comes to the answer that decides. -/
theorem deadline_poll_yields_iff {α β : Type} {probe : Session α} {isGood : α → Bool}
    {timeout interval : Nat} {rest : Except α α → Session β} {result : β} (h : 0 < interval) :
    (deadline timeout >>= fun limit =>
        poll probe (idle interval) isGood limit (pausesWithin timeout interval) >>= rest).Yields
        server scene result last ↔
      ∃ answer middle, IsShowable (scene.now + timeout) ∧
        Decides server probe (idle interval) isGood (scene.now + timeout) scene answer middle ∧
        (rest (if isGood answer = true then .ok answer else .error answer)).Yields server middle
          result last := by
  simp only [Session.yields_bind_iff, deadline_yields_iff]
  constructor
  · rintro ⟨limit, _, ⟨hrange, rfl, rfl⟩, decided, middle, hpoll, hrest⟩
    obtain ⟨answer, hdecides, rfl⟩ := (poll_idle_yields_iff h).1 hpoll
    exact ⟨answer, middle, hrange, hdecides, hrest⟩
  · rintro ⟨answer, middle, hrange, hdecides, hrest⟩
    exact ⟨_, scene, ⟨hrange, rfl, rfl⟩, _, middle,
      (poll_idle_yields_iff h).2 ⟨answer, hdecides, rfl⟩, hrest⟩

theorem prepare_yields_iff (h : 0 < timing.discoveryInterval) {result : Except Verdict Prepared} :
    (prepare timing request).Yields server scene result last ↔
      Prepares server timing request scene result last := by
  unfold prepare
  constructor
  · intro hyields
    split at hyields
    · rename_i hscript
      obtain ⟨found, middle, hrange, hdecides, hrest⟩ := (deadline_poll_yields_iff h).1 hyields
      by_cases hfound : found.isComplete = true
      · rw [if_pos hfound] at hrest
        obtain ⟨rfl, rfl⟩ := Session.yields_pure_iff.1 hrest
        exact .discovered hscript ⟨hrange, hdecides⟩ hfound
      · rw [if_neg hfound] at hrest
        obtain ⟨rfl, rfl⟩ := Session.yields_pure_iff.1 hrest
        exact .undiscovered hscript ⟨hrange, hdecides⟩ (by simpa using hfound)
    · rename_i source hscript
      split at hyields
      · rename_i problem hparse
        obtain ⟨rfl, rfl⟩ := Session.yields_pure_iff.1 hyields
        exact .unreadable hscript hparse
      · rename_i commands hparse
        split at hyields
        · rename_i hneeds
          obtain ⟨found, middle, hsearch, hrest⟩ := Session.yields_bind_iff.1 hyields
          obtain ⟨rfl, rfl⟩ := Session.yields_pure_iff.1 hrest
          exact .searched hscript hparse hneeds hsearch
        · rename_i hneeds
          rw [pure_bind, Session.yields_pure_iff] at hyields
          obtain ⟨rfl, rfl⟩ := hyields
          exact .given hscript hparse (by simpa using hneeds)
  · intro hprepares
    cases hprepares with
    | discovered hscript hsearch hfound =>
      rw [hscript]
      exact (deadline_poll_yields_iff h).2 ⟨_, last, hsearch.1, hsearch.2, by simp [hfound]⟩
    | undiscovered hscript hsearch hfound =>
      rw [hscript]
      exact (deadline_poll_yields_iff h).2 ⟨_, last, hsearch.1, hsearch.2, by simp [hfound]⟩
    | unreadable hscript hparse => simp [hscript, hparse]
    | searched hscript hparse hneeds hsearch =>
      simp only [hscript, hparse, if_pos hneeds]
      exact Session.yields_bind_iff.2 ⟨_, last, hsearch, by simp⟩
    | given hscript hparse hneeds => simp [hscript, hparse, hneeds]

theorem look_yields_iff (h : 0 < timing.successPoll) {verdict : Verdict} :
    (look timing request).Yields server scene verdict last ↔
      ∃ current, Looks server timing request scene current last ∧
        verdict = if urlsMatch current request.successUrl = true then .success
          else .elsewhere current := by
  unfold look Looks
  rw [Session.yields_bind_iff]
  constructor
  · rintro ⟨⟨⟩, landed, hopen, hyields⟩
    obtain ⟨current, middle, hrange, hdecides, hrest⟩ := (deadline_poll_yields_iff h).1 hyields
    refine ⟨current, ?_⟩
    by_cases hmatch : urlsMatch current request.successUrl = true
    · rw [if_pos hmatch] at hrest ⊢
      obtain ⟨rfl, rfl⟩ := Session.yields_pure_iff.1 hrest
      exact ⟨⟨landed, hopen, hrange, hdecides⟩, rfl⟩
    · rw [if_neg hmatch] at hrest ⊢
      obtain ⟨rfl, rfl⟩ := Session.yields_pure_iff.1 hrest
      exact ⟨⟨landed, hopen, hrange, hdecides⟩, rfl⟩
  · rintro ⟨current, ⟨landed, hopen, hrange, hdecides⟩, rfl⟩
    refine ⟨(), landed, hopen, (deadline_poll_yields_iff h).2 ⟨current, last, hrange, hdecides, ?_⟩⟩
    by_cases hmatch : urlsMatch current request.successUrl = true <;> simp [hmatch]

theorem fill_yields_iff (h : 0 < timing.discoveryInterval) {filled : Except Verdict Unit} :
    (fill timing request).Yields server scene filled last ↔
      (∃ verdict, filled = .error verdict ∧
        Prepares server timing request scene (.error verdict) last) ∨
      ∃ prepared middle result, Prepares server timing request scene (.ok prepared) middle ∧
        (Script.run (settingFor timing request prepared.locators) prepared.commands).Yields server
          middle result last ∧ filled = result.mapError .stopped := by
  unfold fill
  rw [Session.yields_bind_iff]
  constructor
  · rintro ⟨prepared, middle, hprepare, hyields⟩
    have hprepares := (prepare_yields_iff h).1 hprepare
    cases prepared with
    | error verdict =>
      obtain ⟨rfl, rfl⟩ := Session.yields_pure_iff.1 hyields
      exact .inl ⟨verdict, rfl, hprepares⟩
    | ok prepared =>
      obtain ⟨result, final, hrun, hrest⟩ := Session.yields_bind_iff.1 hyields
      refine .inr ⟨prepared, middle, result, hprepares, ?_⟩
      rcases result with stop | ⟨⟩
      · obtain ⟨rfl, rfl⟩ := Session.yields_pure_iff.1 hrest
        exact ⟨hrun, rfl⟩
      · obtain ⟨rfl, rfl⟩ := Session.yields_pure_iff.1 hrest
        exact ⟨hrun, rfl⟩
  · rintro (⟨verdict, rfl, hprepares⟩ | ⟨prepared, middle, result, hprepares, hrun, rfl⟩)
    · exact ⟨_, last, (prepare_yields_iff h).2 hprepares, Session.yields_pure_iff.2 ⟨rfl, rfl⟩⟩
    · refine ⟨_, middle, (prepare_yields_iff h).2 hprepares,
        Session.yields_bind_iff.2 ⟨result, last, hrun, ?_⟩⟩
      rcases result with stop | ⟨⟩
      · exact Session.yields_pure_iff.2 ⟨rfl, rfl⟩
      · exact Session.yields_pure_iff.2 ⟨rfl, rfl⟩

theorem judged_yields_iff_of_fill {verdict : Verdict} :
    (judged timing request).Yields server scene verdict last ↔
      ∃ ready filled middle, Shows server request scene ready ∧
        (fill timing request).Yields server ready filled middle ∧
        (match filled with
        | .error other => verdict = other ∧ last = middle
        | .ok () => (look timing request).Yields server middle verdict last) := by
  unfold judged Shows
  simp only [Session.yields_bind_iff]
  constructor
  · rintro ⟨⟨⟩, page, hopen, ⟨⟩, ready, hdismiss, filled, middle, hfill, hrest⟩
    refine ⟨ready, filled, middle, ⟨page, hopen, hdismiss⟩, hfill, ?_⟩
    rcases filled with other | ⟨⟩
    · exact Session.yields_pure_iff.1 hrest
    · exact hrest
  · rintro ⟨ready, filled, middle, ⟨page, hopen, hdismiss⟩, hfill, hrest⟩
    refine ⟨(), page, hopen, (), ready, hdismiss, filled, middle, hfill, ?_⟩
    rcases filled with other | ⟨⟩
    · exact Session.yields_pure_iff.2 hrest
    · exact hrest

/-- With polling intervals that are not zero, an attempt comes to a verdict exactly when the verdict
is reached. -/
theorem judged_yields_iff (hdiscovery : 0 < timing.discoveryInterval) (hpoll : 0 < timing.successPoll)
    {verdict : Verdict} :
    (judged timing request).Yields server scene verdict last ↔
      Reaches server timing request scene verdict last := by
  rw [judged_yields_iff_of_fill]
  constructor
  · rintro ⟨ready, filled, middle, hshows, hfill, hrest⟩
    rcases (fill_yields_iff hdiscovery).1 hfill with
      ⟨other, rfl, hprepares⟩ | ⟨prepared, start, result, hprepares, hrun, rfl⟩
    · obtain ⟨rfl, rfl⟩ := hrest
      exact .unprepared hshows hprepares
    · have hruns : Runs server timing request scene result middle :=
        ⟨ready, prepared, start, hshows, hprepares, hrun⟩
      rcases result with stop | ⟨⟩
      · obtain ⟨rfl, rfl⟩ := hrest
        exact .stopped hruns
      · obtain ⟨current, hlooks, rfl⟩ := (look_yields_iff hpoll).1 hrest
        by_cases hmatch : urlsMatch current request.successUrl = true
        · rw [if_pos hmatch]
          exact .success hruns hlooks hmatch
        · rw [if_neg hmatch]
          exact .elsewhere hruns hlooks (by simpa using hmatch)
  · intro hreaches
    cases hreaches with
    | unprepared hshows hprepares =>
      exact ⟨_, .error verdict, last, hshows,
        (fill_yields_iff hdiscovery).2 (.inl ⟨verdict, rfl, hprepares⟩), rfl, rfl⟩
    | stopped hruns =>
      obtain ⟨ready, prepared, start, hshows, hprepares, hrun⟩ := hruns
      exact ⟨ready, _, last, hshows,
        (fill_yields_iff hdiscovery).2 (.inr ⟨prepared, start, _, hprepares, hrun, rfl⟩), rfl, rfl⟩
    | elsewhere hruns hlooks hmismatch =>
      obtain ⟨ready, prepared, start, hshows, hprepares, hrun⟩ := hruns
      refine ⟨ready, _, _, hshows,
        (fill_yields_iff hdiscovery).2 (.inr ⟨prepared, start, _, hprepares, hrun, rfl⟩), ?_⟩
      exact (look_yields_iff hpoll).2 ⟨_, hlooks, by simp [hmismatch]⟩
    | success hruns hlooks hmatch =>
      obtain ⟨ready, prepared, start, hshows, hprepares, hrun⟩ := hruns
      refine ⟨ready, _, _, hshows,
        (fill_yields_iff hdiscovery).2 (.inr ⟨prepared, start, _, hprepares, hrun, rfl⟩), ?_⟩
      exact (look_yields_iff hpoll).2 ⟨_, hlooks, by simp [hmatch]⟩

end Stages

end KeepAlive.Login
