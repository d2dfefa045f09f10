import KeepAlive.Proofs.Login.Calls
import KeepAlive.Proofs.Login.Stages

/-!
# A session that is opened is closed

A login opens a session, makes its attempt, keeps a picture if the attempt has come to a verdict, and
closes the session, in this order and on every path.  Whether the picture is kept and the session
closed without complaint makes no difference to the outcome.
-/

namespace KeepAlive.Login

open Browser

/-- Whether a call never breaks off whoever makes it. -/
def NeverBreaks {σ : Type} (server : Server σ) (call : Call) : Prop :=
  ∀ scene, ¬Session.Breaks server call scene

/-- The calls that keep a picture: one if a picture is asked for, with the name that is given. -/
def Request.pictures (request : Request) : List Call :=
  request.screenshotId.toList.map .saveScreenshot

/-- The outcome of a login whose attempt ends like this. -/
def settled : Except Stop Outcome → Outcome
  | .ok outcome => outcome
  | .error _ => .unknown

/-- What the browser is asked in a login. -/
inductive LoginCalls {σ : Type} (server : Server σ) (timing : Timing) (request : Request)
    (scene : Scene σ) : List Call → Prop
  /-- No session can be opened. -/
  | unopened {refusal : Refusal}
      (hconnect : (server .connect scene.browser).reply = .error (.refused refusal)) :
      LoginCalls server timing request scene [.connect]
  /-- The attempt comes to no verdict. -/
  | unjudged {opened : Scene σ} {inner : List Call}
      (hconnect : (Session.call .connect).Yields server scene () opened)
      (hinner : ∀ call ∈ inner, call.IsInner)
      (hnone : ¬∃ verdict reached, Reaches server timing request opened verdict reached) :
      LoginCalls server timing request scene (.connect :: inner ++ [.disconnect])
  /-- The attempt comes to a verdict. -/
  | judged {opened reached : Scene σ} {verdict : Verdict} {inner : List Call}
      (hconnect : (Session.call .connect).Yields server scene () opened)
      (hinner : ∀ call ∈ inner, call.IsInner)
      (hreaches : Reaches server timing request opened verdict reached) :
      LoginCalls server timing request scene (.connect :: inner ++ request.pictures ++ [.disconnect])

/-- Whether `other` handles calls as `server` does, except that it may grant pictures and ends of
sessions that the server refuses. -/
def Pardons {σ : Type} (server other : Server σ) : Prop :=
  ∀ call state, other call state = server call state ∨
    call.IsParting ∧ (∃ refusal, (server call state).reply = .error (.refused refusal)) ∧
      ∃ answer, (other call state).reply = .ok answer

section Picture

variable {σ : Type} {server : Server σ} {request : Request} {outcome ended : Outcome} {scene : Scene σ}

theorem callsOf_classified :
    callsOf ((classified request outcome).events server scene) = request.pictures := by
  unfold classified Request.pictures
  cases request.screenshotId with
  | none => rfl
  | some id =>
    dsimp only
    rw [Session.events_bind, Session.events_callAnyway]
    split <;> rfl

theorem classified_returns_iff :
    (classified request outcome).Returns server scene ended ↔
      (∀ call ∈ request.pictures, ¬Session.Breaks server call scene) ∧ ended = outcome := by
  rw [Session.returns_iff]
  unfold classified Request.pictures
  cases request.screenshotId with
  | none => simp
  | some id =>
    dsimp only
    simp only [Session.yields_bind_iff, Session.yields_callAnyway_iff, Session.yields_pure_iff]
    simp

end Picture

section Attempt

variable {σ : Type} {server : Server σ} {timing : Timing} {request : Request} {outcome : Outcome}
  {scene reached : Scene σ} {verdict : Verdict}

/-- An attempt ends with the outcome of its verdict, unless keeping the picture breaks it off. -/
theorem attempt_returns_iff_of_judged :
    (attempt timing request).Returns server scene outcome ↔
      ∃ verdict reached, (judged timing request).Yields server scene verdict reached ∧
        (∀ call ∈ request.pictures, ¬Session.Breaks server call reached) ∧
        outcome = verdict.outcome request := by
  simp only [attempt_eq, ← classified_returns_iff, Session.returns_iff, Session.yields_bind_iff]
  constructor
  · rintro ⟨last, verdict, reached, hjudged, hclassified⟩
    exact ⟨verdict, reached, hjudged, last, hclassified⟩
  · rintro ⟨verdict, reached, hjudged, last, hclassified⟩
    exact ⟨last, verdict, reached, hjudged, hclassified⟩

theorem callsOf_attempt_of_judged (h : (judged timing request).Yields server scene verdict reached) :
    callsOf ((attempt timing request).events server scene) =
      callsOf ((judged timing request).events server scene) ++ request.pictures := by
  rw [attempt_eq, h.events_bind, callsOf_append, callsOf_classified]

theorem callsOf_attempt_of_not_judged
    (h : ¬∃ verdict reached, (judged timing request).Yields server scene verdict reached) :
    callsOf ((attempt timing request).events server scene) =
      callsOf ((judged timing request).events server scene) := by
  rw [attempt_eq, Session.events_bind_of_not_yields h]

end Attempt

section Login

variable {σ : Type} {server : Server σ} (timing : Timing) (request : Request) {scene opened : Scene σ}

theorem login_of_refused {refusal : Refusal}
    (h : (server .connect scene.browser).reply = .error (.refused refusal)) :
    (login timing request).Returns server scene .unknown ∧
      callsOf ((login timing request).events server scene) = [.connect] := by
  unfold login Session.Returns
  rw [Session.after_bind, Session.events_bind, Session.after_tryCall, Session.events_tryCall, h]
  exact ⟨rfl, rfl⟩

/-- A session that is opened is closed in the end, whatever comes of the attempt. -/
theorem login_of_connected (h : (Session.call .connect).Yields server scene () opened)
    (hdisconnect : NeverBreaks server .disconnect) :
    (login timing request).Returns server scene
        (settled ((attempt timing request).after server opened).1) ∧
      callsOf ((login timing request).events server scene) =
        .connect :: callsOf ((attempt timing request).events server opened) ++ [.disconnect] := by
  have hconnect := Session.yields_tryCall_ok_iff.2 h
  have hattempt := Session.yields_lift_caught server (attempt timing request) opened
  have hclose (final : Scene σ) : (Session.callAnyway .disconnect).Yields server final ()
      (final.asked server .disconnect) :=
    Session.yields_callAnyway_iff.2 ⟨hdisconnect final, rfl⟩
  unfold login Session.Returns
  rw [hconnect.after_bind, hconnect.events_bind, Session.events_tryCall]
  dsimp only
  rw [hattempt.after_bind, hattempt.events_bind, (hclose _).after_bind, (hclose _).events_bind]
  cases ((attempt timing request).after server opened).1 <;> simp [settled]

theorem settled_eq_of_iff {ended other : Except Stop Outcome}
    (h : ∀ outcome, ended = .ok outcome ↔ other = .ok outcome) : settled ended = settled other := by
  rcases ended with stop | outcome
  · rcases other with stop | outcome
    · rfl
    · exact absurd ((h outcome).2 rfl) (by simp)
  · rw [(h outcome).1 rfl]

end Login

section Pardons

variable {σ : Type} {server other : Server σ}

theorem Pardons.breaks_iff (h : Pardons server other) (call : Call) (scene : Scene σ) :
    Session.Breaks other call scene ↔ Session.Breaks server call scene := by
  unfold Session.Breaks
  rcases h call scene.browser with hsame | ⟨-, ⟨refusal, hrefused⟩, answer, hgranted⟩
  · rw [hsame]
  · simp [hrefused, hgranted]

theorem Pardons.eq_of_not_isParting (h : Pardons server other) {call : Call}
    (hcall : ¬call.IsParting) : other call = server call := by
  funext state
  rcases h call state with hsame | ⟨hparting, -⟩
  · exact hsame
  · exact absurd hparting hcall

/-- Pictures and ends of sessions that are granted instead of refused make no difference to what
comes of an attempt. -/
theorem Pardons.settled_attempt_eq (h : Pardons server other) (timing : Timing) (request : Request)
    (opened : Scene σ) : settled ((attempt timing request).after other opened).1 =
      settled ((attempt timing request).after server opened).1 := by
  have hinner (call : Call) (hcall : call.IsInner) : ¬call.IsParting := by
    cases call <;> simp_all [Call.IsInner, Call.IsParting]
  have hjudged := (asksOnly_judged timing request).after_eq
    (fun call hcall => h.eq_of_not_isParting (hinner call hcall)) opened
  refine settled_eq_of_iff fun outcome => ?_
  change (attempt timing request).Returns other opened outcome ↔
    (attempt timing request).Returns server opened outcome
  simp only [attempt_returns_iff_of_judged, Session.Yields, hjudged, h.breaks_iff]

theorem Pardons.connected (h : Pardons server other) {scene opened : Scene σ}
    (hopened : (Session.call .connect).Yields server scene () opened) :
    (Session.call .connect).Yields other scene () opened := by
  have hsame : other .connect = server .connect := h.eq_of_not_isParting fun hparting => hparting
  obtain ⟨hreply, rfl⟩ := Session.yields_call_iff.1 hopened
  refine Session.yields_call_iff.2 ⟨?_, ?_⟩
  · rw [hsame, hreply]
  · rw [Scene.asked, Scene.asked, hsame]

/-- A login that gets its session comes to the same outcome where a refusal at its end is pardoned. -/
theorem Pardons.login_returns (h : Pardons server other) {timing : Timing} {request : Request}
    {scene opened : Scene σ} (hopened : (Session.call .connect).Yields server scene () opened)
    (hdisconnect : NeverBreaks server .disconnect) :
    (login timing request).Returns other scene
      (settled ((attempt timing request).after server opened).1) := by
  have hclosed : NeverBreaks other .disconnect := by
    intro final hbreaks
    exact hdisconnect final ((h.breaks_iff .disconnect final).1 hbreaks)
  rw [← h.settled_attempt_eq]
  exact (login_of_connected timing request (h.connected hopened) hclosed).1

end Pardons

/-- What a login that gets its session asks the browser. -/
theorem loginCalls_of_connected {σ : Type} {server : Server σ} {timing : Timing} {request : Request}
    {scene opened : Scene σ} (hopened : (Session.call .connect).Yields server scene () opened)
    (hdisconnect : NeverBreaks server .disconnect) (hdiscovery : 0 < timing.discoveryInterval)
    (hpoll : 0 < timing.successPoll) :
    LoginCalls server timing request scene
      (callsOf ((login timing request).events server scene)) := by
  have hinner (call : Call)
      (hcall : call ∈ callsOf ((judged timing request).events server opened)) : call.IsInner :=
    (asksOnly_judged timing request).of_mem_callsOf hcall
  rw [(login_of_connected timing request hopened hdisconnect).2]
  -- The picture is kept exactly when the way to the verdict has come to its end.
  by_cases hverdict : ∃ verdict reached,
      (judged timing request).Yields server opened verdict reached
  · obtain ⟨verdict, reached, hjudged⟩ := hverdict
    rw [callsOf_attempt_of_judged hjudged, ← List.cons_append]
    exact .judged hopened hinner ((judged_yields_iff hdiscovery hpoll).1 hjudged)
  · rw [callsOf_attempt_of_not_judged hverdict]
    simp only [judged_yields_iff hdiscovery hpoll] at hverdict
    exact .unjudged hopened hinner hverdict

/-- A login comes to an outcome.  If no session can be opened, nothing else is asked; otherwise the
session is closed once, at the very end.  A picture is kept only if one is asked for and the attempt
has come to a verdict, once and right before the session is closed.  Refusals to keep it or to close
the session make no difference to the outcome. -/
theorem closes_what_it_opens {σ : Type} (server : Server σ) (timing : Timing) (request : Request)
    (scene : Scene σ) (hconnect : NeverBreaks server .connect)
    (hdisconnect : NeverBreaks server .disconnect) (hdiscovery : 0 < timing.discoveryInterval)
    (hpoll : 0 < timing.successPoll) :
    ∃ outcome, (login timing request).Returns server scene outcome ∧
      LoginCalls server timing request scene
        (callsOf ((login timing request).events server scene)) ∧
      ∀ other, Pardons server other → (login timing request).Returns other scene outcome := by
  rcases hreply : (server .connect scene.browser).reply with (refusal | reason) | ⟨⟩
  · obtain ⟨hreturns, hcalls⟩ := login_of_refused timing request hreply
    refine ⟨.unknown, hreturns, ?_, ?_⟩
    · rw [hcalls]
      exact .unopened hreply
    · intro other hpardons
      have hsame : other .connect = server .connect :=
        hpardons.eq_of_not_isParting fun hparting => hparting
      rw [← hsame] at hreply
      exact (login_of_refused timing request hreply).1
  · exact absurd ⟨reason, hreply⟩ (hconnect scene)
  · have hopened : (Session.call .connect).Yields server scene () (scene.asked server .connect) :=
      Session.yields_call_iff.2 ⟨hreply, rfl⟩
    refine ⟨_, (login_of_connected timing request hopened hdisconnect).1, ?_, ?_⟩
    · exact loginCalls_of_connected hopened hdisconnect hdiscovery hpoll
    · intro other hpardons
      exact hpardons.login_returns hopened hdisconnect

/-- A server that shows the same url whatever is asked, keeps no pictures and ends no sessions. -/
def reluctant (url : String) : Server Unit := fun call _ =>
  match call with
  | .currentUrl => { reply := .ok url, state := () }
  | .pageMarkup => { reply := .ok "", state := () }
  | .isVisible _ => { reply := .ok false, state := () }
  | .hasElement _ => { reply := .ok false, state := () }
  | .saveScreenshot _ => { reply := .error (.refused (.other "no picture")), state := () }
  | .disconnect => { reply := .error (.refused (.session "gone")), state := () }
  | .connect | .openUrl _ | .fillText .. | .clickButton _ | .wait _ | .solveCaptcha =>
    { reply := .ok (), state := () }

theorem closes_what_it_opens_though_reluctant :
    let server := reluctant "https://a.example/home"
    let timing : Timing := ⟨1000, 100, 1000, 100, 500, 60000⟩
    let request : Request :=
      { url := "https://a.example", successUrl := "https://a.example/home/"
        credentials := ⟨"alice", "secret"⟩, script := some "", screenshotId := some "shot" }
    let scene : Scene Unit := ⟨(), 0⟩
    NeverBreaks server .connect ∧ NeverBreaks server .disconnect ∧
      callsOf ((login timing request).events server scene) = [.connect, .openUrl request.url,
        .solveCaptcha, .openUrl request.successUrl, .currentUrl, .saveScreenshot "shot",
        .disconnect] ∧
      ∃ outcome, (login timing request).Returns server scene outcome ∧
        LoginCalls server timing request scene
          (callsOf ((login timing request).events server scene)) ∧
        ∀ other, Pardons server other → (login timing request).Returns other scene outcome := by
  intro server timing request scene
  have hconnect : NeverBreaks server .connect := by
    rintro final ⟨reason, hreply⟩
    cases hreply
  have hdisconnect : NeverBreaks server .disconnect := by
    rintro final ⟨reason, hreply⟩
    cases hreply
  refine ⟨hconnect, hdisconnect, ?_, ?_⟩
  · decide +kernel
  · exact closes_what_it_opens server timing request scene hconnect hdisconnect (by decide)
      (by decide)

end KeepAlive.Login
