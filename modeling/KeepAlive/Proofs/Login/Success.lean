import KeepAlive.Proofs.Login.Closing
import KeepAlive.Proofs.Script.Obstacle

/-!
# When a login succeeds

A login succeeds when every stage of it does, and nothing breaks it off.  Otherwise its outcome is the
one of the stage that went wrong, and it is unknown when the browser refused something that the
attempt cannot do without or broke the attempt off.
-/

namespace KeepAlive.Login

open Browser

section Conditions

variable {σ : Type} (server : Server σ) (timing : Timing) (request : Request) (scene : Scene σ)

/-- A session is opened, the script that is prepared runs to its end, and the url that decides is the
expected one but for a slash; the picture, if one is asked for, does not break off the attempt. -/
def Succeeds : Prop :=
  ∃ opened filled reached current, (Session.call .connect).Yields server scene () opened ∧
    Runs server timing request opened (.ok ()) filled ∧
    Looks server timing request filled current reached ∧
    (current = request.successUrl ∨ current = request.successUrl ++ "/" ∨
      request.successUrl = current ++ "/") ∧
    ∀ call ∈ request.pictures, ¬Session.Breaks server call reached

/-- A session is opened, and the attempt comes to the verdict without being broken off by the
picture. -/
def Concludes (verdict : Verdict) : Prop :=
  ∃ opened reached, (Session.call .connect).Yields server scene () opened ∧
    Reaches server timing request opened verdict reached ∧
    ∀ call ∈ request.pictures, ¬Session.Breaks server call reached

end Conditions

section Verdicts

variable {σ : Type} {server : Server σ} {timing : Timing} {request : Request} {scene last : Scene σ}
  {verdict : Verdict}

theorem urlsMatch_iff {current expected : String} :
    urlsMatch current expected = true ↔
      current = expected ∨ current = expected ++ "/" ∨ expected = current ++ "/" := by
  simp [urlsMatch, or_assoc]

theorem statusWithout_ne_success (found : Locators) : statusWithout found ≠ .success := by
  rcases found with ⟨_ | username, _ | password, _ | submit⟩ <;> simp [statusWithout]

/-- Only one verdict is recorded as a success. -/
theorem Reaches.isSuccess_iff (h : Reaches server timing request scene verdict last) :
    (verdict.outcome request).status = .success ↔ verdict = .success := by
  cases h with
  | unprepared hshows hprepares =>
    cases hprepares with
    | undiscovered hscript hsearch hfound => simp [Verdict.outcome, statusWithout_ne_success]
    | unreadable hscript hparse => simp [Verdict.outcome]
  | stopped hruns =>
    obtain ⟨ready, prepared, middle, -, -, hrun⟩ := hruns
    simp [Verdict.outcome, Script.status_ne_success_of_run _ _ hrun]
  | elsewhere hruns hlooks hmismatch => simp [Verdict.outcome]
  | success hruns hlooks hmatch => simp [Verdict.outcome]

theorem concludes_success_iff :
    Concludes server timing request scene .success ↔ Succeeds server timing request scene := by
  constructor
  · rintro ⟨opened, reached, hopened, hreaches, hpicture⟩
    cases hreaches with
    | unprepared hshows hprepares => nomatch hprepares
    | success hruns hlooks hmatch =>
      exact ⟨opened, _, reached, _, hopened, hruns, hlooks, urlsMatch_iff.1 hmatch, hpicture⟩
  · rintro ⟨opened, filled, reached, current, hopened, hruns, hlooks, hmatch, hpicture⟩
    exact ⟨opened, reached, hopened, .success hruns hlooks (urlsMatch_iff.2 hmatch), hpicture⟩

end Verdicts

section Outcomes

variable {σ : Type} {server : Server σ} {timing : Timing} {request : Request} {scene : Scene σ}
  {verdict : Verdict}

theorem attempt_returns_iff (hdiscovery : 0 < timing.discoveryInterval)
    (hpoll : 0 < timing.successPoll) {outcome : Outcome} :
    (attempt timing request).Returns server scene outcome ↔
      ∃ verdict reached, Reaches server timing request scene verdict reached ∧
        (∀ call ∈ request.pictures, ¬Session.Breaks server call reached) ∧
        outcome = verdict.outcome request := by
  rw [attempt_returns_iff_of_judged]
  simp only [judged_yields_iff hdiscovery hpoll]

theorem Concludes.login_returns (h : Concludes server timing request scene verdict)
    (hdisconnect : NeverBreaks server .disconnect) (hdiscovery : 0 < timing.discoveryInterval)
    (hpoll : 0 < timing.successPoll) :
    (login timing request).Returns server scene (verdict.outcome request) := by
  obtain ⟨opened, reached, hopened, hreaches, hpicture⟩ := h
  have hattempt : (attempt timing request).Returns server opened (verdict.outcome request) :=
    (attempt_returns_iff hdiscovery hpoll).2 ⟨verdict, reached, hreaches, hpicture, rfl⟩
  have hlogin := (login_of_connected timing request hopened hdisconnect).1
  rw [hattempt] at hlogin
  exact hlogin

/-- Without a verdict nothing is known. -/
theorem login_returns_unknown (h : ¬∃ verdict, Concludes server timing request scene verdict)
    (hconnect : NeverBreaks server .connect) (hdisconnect : NeverBreaks server .disconnect)
    (hdiscovery : 0 < timing.discoveryInterval) (hpoll : 0 < timing.successPoll) :
    (login timing request).Returns server scene .unknown := by
  rcases hreply : (server .connect scene.browser).reply with (refusal | reason) | ⟨⟩
  · exact (login_of_refused timing request hreply).1
  · exact absurd ⟨reason, hreply⟩ (hconnect scene)
  · have hopened : (Session.call .connect).Yields server scene () (scene.asked server .connect) :=
      Session.yields_call_iff.2 ⟨hreply, rfl⟩
    have hlogin := (login_of_connected timing request hopened hdisconnect).1
    rcases hended : ((attempt timing request).after server (scene.asked server .connect)).1 with
      stop | outcome
    · rw [hended] at hlogin
      exact hlogin
    · obtain ⟨verdict, reached, hreaches, hpicture, -⟩ :=
        (attempt_returns_iff hdiscovery hpoll).1 hended
      exact absurd ⟨verdict, _, reached, hopened, hreaches, hpicture⟩ h

end Outcomes

/-- A login is a success exactly when every stage of it succeeds and nothing breaks it off.  If it
comes to another verdict, its outcome says which; if it comes to none, its outcome is unknown. -/
theorem succeeds_exactly_when_every_stage_does {σ : Type} (server : Server σ) (timing : Timing)
    (request : Request) (scene : Scene σ) (hconnect : NeverBreaks server .connect)
    (hdisconnect : NeverBreaks server .disconnect) (hdiscovery : 0 < timing.discoveryInterval)
    (hpoll : 0 < timing.successPoll) :
    ∃ outcome, (login timing request).Returns server scene outcome ∧
      (outcome.status = .success ↔ Succeeds server timing request scene) ∧
      (∀ verdict, Concludes server timing request scene verdict →
        outcome = verdict.outcome request) ∧
      ((¬∃ verdict, Concludes server timing request scene verdict) → outcome = .unknown) := by
  have hreturns {verdict : Verdict} (h : Concludes server timing request scene verdict) :=
    h.login_returns hdisconnect hdiscovery hpoll
  by_cases hverdict : ∃ verdict, Concludes server timing request scene verdict
  · obtain ⟨verdict, hconcludes⟩ := hverdict
    refine ⟨verdict.outcome request, hreturns hconcludes, ?_, ?_, ?_⟩
    · obtain ⟨opened, reached, -, hreaches, -⟩ := id hconcludes
      rw [hreaches.isSuccess_iff, ← concludes_success_iff]
      constructor
      · rintro rfl
        exact hconcludes
      · intro hsuccess
        have hsame := (hreturns hconcludes).unique (hreturns hsuccess)
        rw [← hreaches.isSuccess_iff, hsame]
        rfl
    · intro other hother
      exact (hreturns hconcludes).unique (hreturns hother)
    · intro hnone
      exact absurd ⟨verdict, hconcludes⟩ hnone
  · refine ⟨.unknown, login_returns_unknown hverdict hconnect hdisconnect hdiscovery hpoll, ?_, ?_,
      fun _ => rfl⟩
    · rw [← concludes_success_iff]
      constructor
      · intro hstatus
        cases hstatus
      · intro hsuccess
        exact absurd ⟨.success, hsuccess⟩ hverdict
    · intro verdict hconcludes
      exact absurd ⟨verdict, hconcludes⟩ hverdict

/-- A server that shows the login page at the first look and another url from the second one on. -/
def hesitant (url : String) : Server Nat := fun call looks =>
  match call with
  | .currentUrl =>
    { reply := .ok (if looks = 0 then "https://a.example/login" else url), state := looks + 1 }
  | .pageMarkup => { reply := .ok "", state := looks }
  | .isVisible _ => { reply := .ok false, state := looks }
  | .hasElement _ => { reply := .ok false, state := looks }
  | .connect | .openUrl _ | .fillText .. | .clickButton _ | .wait _ | .saveScreenshot _
  | .solveCaptcha | .disconnect => { reply := .ok (), state := looks }

theorem succeeds_at_second_look :
    let server := hesitant "https://a.example/home/"
    let timing : Timing := ⟨1000, 100, 1000, 100, 500, 60000⟩
    let request : Request :=
      { url := "https://a.example/login", successUrl := "https://a.example/home"
        credentials := ⟨"alice", "secret"⟩, script := some "wait(100)" }
    let scene : Scene Nat := ⟨0, 0⟩
    NeverBreaks server .connect ∧ NeverBreaks server .disconnect ∧
      Succeeds server timing request scene := by
  intro server timing request scene
  have hconnect : NeverBreaks server .connect := by
    rintro final ⟨reason, hreply⟩
    cases hreply
  have hdisconnect : NeverBreaks server .disconnect := by
    rintro final ⟨reason, hreply⟩
    cases hreply
  have hlogin : (login timing request).Returns server scene ⟨.success, none⟩ := by
    unfold Session.Returns
    decide +kernel
  obtain ⟨outcome, hreturns, hsuccess, -⟩ := succeeds_exactly_when_every_stage_does server timing
    request scene hconnect hdisconnect (by decide) (by decide)
  rw [hreturns.unique hlogin] at hsuccess
  exact ⟨hconnect, hdisconnect, hsuccess.1 rfl⟩

end KeepAlive.Login
