import KeepAlive.Browser.Page
import KeepAlive.Proofs.Login.Repeating
import KeepAlive.Proofs.Login.Success

/-!
# More time

A login that succeeds does so in the same way with longer timeouts: whatever decides in the shorter
time decides in the longer one too.  But a timeout is added to the time of a clock that has an end,
and a login whose deadline the clock cannot show knows nothing.
-/

namespace KeepAlive.Login

open Browser

/-- A script runs to its end if the form is filled in once the login page is shown. -/
theorem runs_ok_iff {σ : Type} {server : Server σ} {timing : Timing} {request : Request}
    {scene filled : Scene σ} (h : 0 < timing.discoveryInterval) :
    Runs server timing request scene (.ok ()) filled ↔
      ∃ ready, Shows server request scene ready ∧
        (fill timing request).Yields server ready (.ok ()) filled := by
  constructor
  · rintro ⟨ready, prepared, start, hshows, hprepares, hrun⟩
    exact ⟨ready, hshows,
      (fill_yields_iff h).2 (.inr ⟨prepared, start, .ok (), hprepares, hrun, Eq.refl _⟩)⟩
  · rintro ⟨ready, hshows, hfilled⟩
    rcases (fill_yields_iff h).1 hfilled with
      ⟨verdict, hverdict, -⟩ | ⟨prepared, start, result, hprepares, hrun, hresult⟩
    · cases hverdict
    · rcases result with stop | ⟨⟩
      · cases hresult
      · exact ⟨ready, prepared, start, hshows, hprepares, hrun⟩

/-- The timing with other timeouts. -/
def Timing.withTimeouts (timing : Timing) (discovery success : Nat) : Timing :=
  { timing with discoveryTimeout := discovery, successTimeout := success }

/-- Whether the clock can show the deadlines of a login with these timeouts: the one of the search,
which only a site without a script of its own has, and the one of the look at the url. -/
structure CanSetDeadlines {σ : Type} (server : Server σ) (timing : Timing) (request : Request)
    (scene : Scene σ) (discovery success : Nat) : Prop where
  search : ∀ opened ready, (Session.call .connect).Yields server scene () opened →
    Shows server request opened ready → request.script = none → IsShowable (ready.now + discovery)
  look : ∀ opened filled landed, (Session.call .connect).Yields server scene () opened →
    Runs server timing request opened (.ok ()) filled →
    (Session.call (.openUrl request.successUrl)).Yields server filled () landed →
    IsShowable (landed.now + success)

section Stages

variable {σ : Type} {server : Server σ} {timing : Timing} {request : Request}
  {scene last : Scene σ} {discovery success : Nat}

theorem pausesWithin_mono {timeout longer : Nat} (h : timeout ≤ longer) (interval : Nat) :
    pausesWithin timeout interval ≤ pausesWithin longer interval := by
  unfold pausesWithin
  apply Nat.div_le_div_right
  omega

/-- Once the deadline is set, a session goes on with it. -/
theorem alike_deadline_bind {β : Type} {timeout : Nat} (h : IsShowable (scene.now + timeout))
    (rest : Nat → Session β) :
    Session.Alike server scene (deadline timeout >>= rest) (rest (scene.now + timeout)) := by
  unfold IsShowable at h
  unfold deadline
  rw [bind_assoc]
  apply (Session.Alike.clock_bind _).trans
  rw [if_pos h, pure_bind]
  exact .refl _

/-- Polling that leads to a good answer before a deadline is the same with a later one. -/
theorem alike_deadline_poll {α β : Type} {probe : Session α} {isGood : α → Bool}
    {timeout longer interval : Nat} {answer : α} {middle : Scene σ} (rest : Except α α → Session β)
    (hinterval : 0 < interval)
    (hdecides : Decides server probe (idle interval) isGood (scene.now + timeout) scene answer middle)
    (hgood : isGood answer = true) (hlonger : timeout ≤ longer)
    (hshort : IsShowable (scene.now + timeout)) (hlong : IsShowable (scene.now + longer)) :
    Session.Alike server scene
      (deadline longer >>= fun limit =>
        poll probe (idle interval) isGood limit (pausesWithin longer interval) >>= rest)
      (deadline timeout >>= fun limit =>
        poll probe (idle interval) isGood limit (pausesWithin timeout interval) >>= rest) := by
  have hyields : (poll probe (idle interval) isGood (scene.now + timeout)
      (pausesWithin timeout interval)).Yields server scene (.ok answer) middle :=
    (poll_idle_yields_iff hinterval).2 ⟨answer, hdecides, by rw [if_pos hgood]⟩
  have hpoll := alike_poll_of_later hyields (Nat.add_le_add_left hlonger scene.now)
    (pausesWithin_mono hlonger interval)
  apply (alike_deadline_bind hlong _).trans
  apply Session.Alike.trans _ (alike_deadline_bind hshort _).symm
  exact hpoll.bind_right rest

theorem alike_prepare {prepared : Prepared} (hinterval : 0 < timing.discoveryInterval)
    (h : Prepares server timing request scene (.ok prepared) last)
    (hlonger : timing.discoveryTimeout ≤ discovery)
    (hshown : request.script = none → IsShowable (scene.now + discovery)) :
    Session.Alike server scene (prepare (timing.withTimeouts discovery success) request)
      (prepare timing request) := by
  unfold prepare
  cases h with
  | discovered hscript hsearch hfound =>
    rw [hscript]
    exact alike_deadline_poll _ hinterval hsearch.2 hfound hlonger hsearch.1 (hshown hscript)
  | searched hscript hparse hneeds hsearch =>
    rw [hscript]
    exact .refl _
  | given hscript hparse hneeds =>
    rw [hscript]
    exact .refl _

theorem alike_fill (hinterval : 0 < timing.discoveryInterval)
    (h : (fill timing request).Yields server scene (.ok ()) last)
    (hlonger : timing.discoveryTimeout ≤ discovery)
    (hshown : request.script = none → IsShowable (scene.now + discovery)) :
    Session.Alike server scene (fill (timing.withTimeouts discovery success) request)
      (fill timing request) := by
  rcases (fill_yields_iff hinterval).1 h with
    ⟨verdict, hverdict, -⟩ | ⟨prepared, middle, result, hprepares, -, -⟩
  · cases hverdict
  · exact (alike_prepare hinterval hprepares hlonger hshown).bind_right _

theorem alike_look {current : String} (hinterval : 0 < timing.successPoll)
    (h : Looks server timing request scene current last)
    (hmatch : urlsMatch current request.successUrl = true)
    (hlonger : timing.successTimeout ≤ success)
    (hshown : ∀ landed, (Session.call (.openUrl request.successUrl)).Yields server scene () landed →
      IsShowable (landed.now + success)) :
    Session.Alike server scene (look (timing.withTimeouts discovery success) request)
      (look timing request) := by
  obtain ⟨landed, hopen, hshort, hdecides⟩ := h
  unfold look
  apply Session.Alike.bind_left
  intro _ place hplace
  obtain ⟨-, rfl⟩ := hplace.unique hopen
  exact alike_deadline_poll _ hinterval hdecides hmatch hlonger hshort (hshown place hplace)

/-- On its way to success an attempt is the same with longer timeouts. -/
theorem alike_judged (hdiscovery : 0 < timing.discoveryInterval) (hpoll : 0 < timing.successPoll)
    (h : Reaches server timing request scene .success last)
    (hsearch : timing.discoveryTimeout ≤ discovery) (hlook : timing.successTimeout ≤ success)
    (hready : ∀ ready, Shows server request scene ready → request.script = none →
      IsShowable (ready.now + discovery))
    (hlanded : ∀ filled landed, Runs server timing request scene (.ok ()) filled →
      (Session.call (.openUrl request.successUrl)).Yields server filled () landed →
      IsShowable (landed.now + success)) :
    Session.Alike server scene (judged (timing.withTimeouts discovery success) request)
      (judged timing request) := by
  cases h with
  | unprepared hshows hprepares => nomatch hprepares
  | @success filled _ current hruns hlooks hmatch =>
    obtain ⟨ready, ⟨page, hopen, hdismiss⟩, hfilled⟩ := (runs_ok_iff hdiscovery).1 hruns
    have hfill : Session.Alike server ready (fill (timing.withTimeouts discovery success) request)
        (fill timing request) :=
      alike_fill hdiscovery hfilled hsearch (hready ready ⟨page, hopen, hdismiss⟩)
    unfold judged
    apply Session.Alike.bind_left
    intro _ place hplace
    obtain ⟨-, rfl⟩ := hplace.unique hopen
    apply Session.Alike.bind_left
    intro _ shown hshown
    obtain ⟨-, rfl⟩ := hshown.unique hdismiss
    apply hfill.bind
    intro result final hresult
    obtain ⟨rfl, rfl⟩ := (hfill.yields_iff.1 hresult).unique hfilled
    exact alike_look hpoll hlooks hmatch hlook (hlanded final · hruns)

/-- An attempt that comes to a verdict has set its deadline for the search. -/
theorem isShowable_search_of_judged {verdict : Verdict} {ready : Scene σ}
    (h : (judged timing request).Yields server scene verdict last)
    (hdiscovery : 0 < timing.discoveryInterval)
    (hshows : Shows server request scene ready) (hscript : request.script = none) :
    IsShowable (ready.now + timing.discoveryTimeout) := by
  obtain ⟨shown, filled, middle, hshown, hfill, -⟩ := judged_yields_iff_of_fill.1 h
  obtain rfl := hshows.unique hshown
  have hprepares : ∃ result start, Prepares server timing request ready result start := by
    rcases (fill_yields_iff hdiscovery).1 hfill with
      ⟨other, -, hprepares⟩ | ⟨prepared, start, result, hprepares, -, -⟩
    · exact ⟨_, _, hprepares⟩
    · exact ⟨_, _, hprepares⟩
  obtain ⟨result, start, hprepares⟩ := hprepares
  cases hprepares with
  | discovered _ hsearch _ => exact hsearch.1
  | undiscovered _ hsearch _ => exact hsearch.1
  | unreadable hsource _ => exact absurd hsource (by simp [hscript])
  | searched hsource _ _ _ => exact absurd hsource (by simp [hscript])
  | given hsource _ _ => exact absurd hsource (by simp [hscript])

/-- An attempt that has filled in its form and comes to a verdict has set its deadline for the look
at the url. -/
theorem isShowable_look_of_judged {verdict : Verdict} {ready filled landed : Scene σ}
    (h : (judged timing request).Yields server scene verdict last) (hpoll : 0 < timing.successPoll)
    (hshows : Shows server request scene ready)
    (hfilled : (fill timing request).Yields server ready (.ok ()) filled)
    (hlanded : (Session.call (.openUrl request.successUrl)).Yields server filled () landed) :
    IsShowable (landed.now + timing.successTimeout) := by
  obtain ⟨shown, result, middle, hshown, hfill, hrest⟩ := judged_yields_iff_of_fill.1 h
  obtain rfl := hshows.unique hshown
  obtain ⟨rfl, rfl⟩ := hfill.unique hfilled
  obtain ⟨current, ⟨final, hfinal, hrange, -⟩, -⟩ := (look_yields_iff hpoll).1 hrest
  obtain ⟨-, rfl⟩ := hfinal.unique hlanded
  exact hrange

end Stages

section Logins

variable {σ : Type} {server : Server σ} {timing longer : Timing} {request other : Request}
  {scene opened : Scene σ} {discovery success : Nat} {outcome : Outcome}

/-- A login that gets its session returns unless the end of the session breaks it off. -/
theorem login_returns_iff (h : (Session.call .connect).Yields server scene () opened) :
    (login timing request).Returns server scene outcome ↔
      ¬Session.Breaks server .disconnect ((attempt timing request).after server opened).2 ∧
        outcome = settled ((attempt timing request).after server opened).1 := by
  have hconnect := Session.yields_tryCall_ok_iff.2 h
  have hattempt := Session.yields_lift_caught server (attempt timing request) opened
  unfold login Session.Returns
  rw [hconnect.after_bind]
  dsimp only
  rw [hattempt.after_bind, ← Session.Returns, Session.returns_iff]
  simp only [Session.yields_bind_iff, Session.yields_callAnyway_iff]
  rcases ((attempt timing request).after server opened).1 with stop | ended
  · simp [settled]
  · simp [settled]

/-- Logins whose attempts are alike are alike. -/
theorem alike_login (h : (Session.call .connect).Yields server scene () opened)
    (hattempt : Session.Alike server opened (attempt longer other) (attempt timing request)) :
    Session.Alike server scene (login longer other) (login timing request) := by
  unfold login
  apply Session.Alike.bind_left
  intro result last hresult
  obtain ⟨rfl, rfl⟩ := hresult.unique (Session.yields_tryCall_ok_iff.2 h)
  exact hattempt.lift_caught.bind_right _

/-- A login that succeeds has got its session and reached its goal in it. -/
theorem exists_reaches_of_returns (h : (login timing request).Returns server scene outcome)
    (hstatus : outcome.status = .success) (hdiscovery : 0 < timing.discoveryInterval)
    (hpoll : 0 < timing.successPoll) :
    ∃ opened last, (Session.call .connect).Yields server scene () opened ∧
      Reaches server timing request opened .success last := by
  rcases hreply : (server .connect scene.browser).reply with (refusal | reason) | ⟨⟩
  · rw [h.unique (login_of_refused timing request hreply).1] at hstatus
    cases hstatus
  · obtain ⟨last, hyields⟩ := Session.returns_iff.1 h
    obtain ⟨reply, middle, hconnect, -⟩ := Session.yields_bind_iff.1 hyields
    unfold Session.Yields at hconnect
    rw [Session.after_tryCall, hreply] at hconnect
    cases hconnect
  · have hopened : (Session.call .connect).Yields server scene () (scene.asked server .connect) :=
      Session.yields_call_iff.2 ⟨hreply, Eq.refl _⟩
    obtain ⟨-, hsettled⟩ := (login_returns_iff hopened).1 h
    rcases hended : ((attempt timing request).after server (scene.asked server .connect)).1 with
      stop | ended
    · rw [hsettled, hended] at hstatus
      cases hstatus
    · rw [hended] at hsettled
      obtain ⟨verdict, reached, hjudged, -, rfl⟩ := attempt_returns_iff_of_judged.1 hended
      have hreaches := (judged_yields_iff hdiscovery hpoll).1 hjudged
      rw [hsettled] at hstatus
      obtain rfl := hreaches.isSuccess_iff.1 hstatus
      exact ⟨_, reached, hopened, hreaches⟩

/-- An attempt that comes to a verdict with longer timeouts has set all deadlines that it needs. -/
theorem canSetDeadlines_of_judged {verdict : Verdict} {reached : Scene σ}
    (hopened : (Session.call .connect).Yields server scene () opened)
    (h : (judged (timing.withTimeouts discovery success) request).Yields server opened verdict
      reached)
    (hdiscovery : 0 < timing.discoveryInterval) (hpoll : 0 < timing.successPoll)
    (hsearch : timing.discoveryTimeout ≤ discovery) :
    CanSetDeadlines server timing request scene discovery success := by
  have hready (place ready) (hplace : (Session.call .connect).Yields server scene () place)
      (hshows : Shows server request place ready) (hscript : request.script = none) :
      IsShowable (ready.now + discovery) := by
    obtain ⟨-, rfl⟩ := hplace.unique hopened
    exact isShowable_search_of_judged h hdiscovery hshows hscript
  refine ⟨hready, ?_⟩
  intro place filled landed hplace hruns hlanded
  obtain ⟨-, rfl⟩ := hplace.unique hopened
  obtain ⟨ready, hshows, hfilled⟩ := (runs_ok_iff hdiscovery).1 hruns
  have hfill : Session.Alike server ready (fill (timing.withTimeouts discovery success) request)
      (fill timing request) :=
    alike_fill hdiscovery hfilled hsearch (hready place ready hplace hshows)
  exact isShowable_look_of_judged h hpoll hshows (hfill.yields_iff.2 hfilled) hlanded

/-- A login that succeeds does the same, call by call, with longer timeouts, as long as the clock
can show its deadlines.  If it cannot, then the outcome is unknown. -/
theorem succeeds_with_more_time (hdiscovery : 0 < timing.discoveryInterval)
    (hpoll : 0 < timing.successPoll) (hsearch : timing.discoveryTimeout ≤ discovery)
    (hlook : timing.successTimeout ≤ success)
    (h : (login timing request).Returns server scene outcome) (hstatus : outcome.status = .success) :
    (CanSetDeadlines server timing request scene discovery success →
      (login (timing.withTimeouts discovery success) request).Returns server scene outcome ∧
      callsOf ((login (timing.withTimeouts discovery success) request).events server scene) =
        callsOf ((login timing request).events server scene)) ∧
    (¬CanSetDeadlines server timing request scene discovery success →
      (∀ other, (login (timing.withTimeouts discovery success) request).Returns server scene other →
        other = .unknown) ∧
      (NeverBreaks server .disconnect →
        (login (timing.withTimeouts discovery success) request).Returns server scene .unknown)) := by
  obtain ⟨opened, last, hopened, hreaches⟩ := exists_reaches_of_returns h hstatus hdiscovery hpoll
  constructor
  · intro hdeadlines
    have hjudged := alike_judged hdiscovery hpoll hreaches hsearch hlook
      (fun ready => hdeadlines.search opened ready hopened)
      (fun filled landed => hdeadlines.look opened filled landed hopened)
    have hattempt : Session.Alike server opened
        (attempt (timing.withTimeouts discovery success) request) (attempt timing request) := by
      rw [attempt_eq, attempt_eq]
      exact hjudged.bind_right _
    have hlogin := alike_login hopened hattempt
    exact ⟨hlogin.returns_iff.2 h, by rw [hlogin.events_eq]⟩
  · intro hdeadlines
    have hsettled : settled
        ((attempt (timing.withTimeouts discovery success) request).after server opened).1 =
          .unknown := by
      rcases hended :
          ((attempt (timing.withTimeouts discovery success) request).after server opened).1 with
        stop | ended
      · rfl
      · obtain ⟨verdict, reached, hjudged, -, -⟩ := attempt_returns_iff_of_judged.1 hended
        exact absurd (canSetDeadlines_of_judged hopened hjudged hdiscovery hpoll hsearch) hdeadlines
    constructor
    · intro other hother
      rw [((login_returns_iff hopened).1 hother).2, hsettled]
    · intro hdisconnect
      exact (login_returns_iff hopened).2 ⟨hdisconnect _, hsettled.symm⟩

theorem succeeds_at_second_look_within_hour :
    let server := hesitant "https://a.example/home/"
    let timing : Timing := ⟨1000, 100, 1000, 100, 500, 60000⟩
    let longer := timing.withTimeouts 3600000 3600000
    let request : Request :=
      { url := "https://a.example/login", successUrl := "https://a.example/home"
        credentials := ⟨"alice", "secret"⟩, script := some "wait(100)" }
    let scene : Scene Nat := ⟨0, 0⟩
    (login timing request).Returns server scene ⟨.success, none⟩ ∧
      CanSetDeadlines server timing request scene 3600000 3600000 ∧
      callsOf ((login longer request).events server scene) =
        callsOf ((login timing request).events server scene) := by
  intro server timing longer request scene
  have hsearch : timing.discoveryTimeout ≤ 3600000 := by decide
  have hlook : timing.successTimeout ≤ 3600000 := by decide
  have hlogin : (login timing request).Returns server scene ⟨.success, none⟩ := by
    unfold Session.Returns
    decide +kernel
  have hlonger : (login longer request).Returns server scene ⟨.success, none⟩ := by
    unfold Session.Returns
    decide +kernel
  obtain ⟨hsame, hunknown⟩ := succeeds_with_more_time (by decide) (by decide) hsearch hlook hlogin
    (Eq.refl _)
  have hdeadlines : CanSetDeadlines server timing request scene 3600000 3600000 := by
    by_contra hnone
    exact absurd ((hunknown hnone).1 _ hlonger) (by decide)
  exact ⟨hlogin, hdeadlines, (hsame hdeadlines).2⟩

/-- With all the seconds that 64 bits can count, the deadline of the look at the url is beyond the
clock. -/
theorem unknown_with_most_seconds :
    let timing : Timing := ⟨30000, 1000, 30000, 500, 500, 60000⟩
    let longer := timing.withTimeouts 30000 18446744073709551615000
    let request : Request :=
      { url := "https://a.example/login", successUrl := "https://a.example/home"
        credentials := ⟨"", ""⟩, script := some "" }
    let scene : Scene Page := ⟨{ fixture := { pages := [("", "<p>hello</p>")] } }, 0⟩
    (login timing request).Returns Page.handle scene ⟨.success, none⟩ ∧
      (login longer request).Returns Page.handle scene .unknown := by
  unfold Session.Returns
  decide +kernel

end Logins

end KeepAlive.Login
