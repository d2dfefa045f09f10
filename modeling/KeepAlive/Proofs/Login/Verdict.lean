import KeepAlive.Proofs.Login.Polling
import Mathlib.Control.Monad.Basic

/-!
# What an attempt finds out

An attempt that is neither refused something it needs nor broken off comes to a verdict, and only
then a picture of the page may be kept.  So an attempt is its way to the verdict, and what is done
with the verdict afterwards.
-/

namespace KeepAlive.Login

open Browser

/-- What an attempt finds out. -/
inductive Verdict
  /-- The site's own script is not one. -/
  | unreadable (problem : Script.SyntaxError)
  /-- The form was not found in time; the last search found this much of it. -/
  | undiscovered (found : Locators)
  | stopped (stop : Script.Stopped)
  /-- The time for the success url is over, and the browser is still here. -/
  | elsewhere (current : String)
  | success
  deriving DecidableEq, Repr

/-- The status when too little of the form is found: that of the first field that is missing, unless
all are. -/
def statusWithout : Locators → LoginStatus
  | ⟨none, none, none⟩ => .automaticFormDetectionFailed
  | ⟨none, _, _⟩ => .usernameFieldNotFound
  | ⟨_, none, _⟩ => .passwordFieldNotFound
  | ⟨_, _, none⟩ => .submitButtonNotFound
  | ⟨some _, some _, some _⟩ => .automaticFormDetectionFailed

theorem missingStatus_eq (found : Locators) : missingStatus found = statusWithout found := by
  rcases found with ⟨_ | username, _ | password, _ | submit⟩ <;> rfl

/-- The outcome that a verdict is recorded as. -/
def Verdict.outcome (request : Request) : Verdict → Outcome
  | .unreadable problem => ⟨.unknownExecutionError, some problem.message⟩
  | .undiscovered found => ⟨statusWithout found, none⟩
  | .stopped stop => ⟨stop.status, stop.detail⟩
  | .elsewhere current =>
    ⟨.successUrlDidNotMatch, some ("Expected URL \"" ++ request.successUrl ++
      "\" but the browser stayed on \"" ++ current ++ "\".")⟩
  | .success => ⟨.success, none⟩

/-- What comes of filling in the form, if there is a verdict already. -/
def reported (request : Request) : Except Verdict Unit → Except Outcome Unit
  | .ok () => .ok ()
  | .error verdict => .error (verdict.outcome request)

/-- The commands of the script of a site that has none of its own. -/
def standardCommands : List Script.Command :=
  [.onField .username none, .onField .password none, .onField .submitButton none]

theorem parse_standard : Script.parse Script.standard = .ok standardCommands := by
  decide +kernel

theorem runSource_standard (setting : Script.Setting) :
    Script.runSource setting Script.standard = Script.run setting standardCommands := by
  unfold Script.runSource
  rw [parse_standard]

/-! ## The attempt up to its verdict -/

/-- A script with all that it runs with: the commands, and where the fields are. -/
structure Prepared where
  commands : List Script.Command
  locators : Locators

/-- The script that is to be run, once the page is shown. -/
def prepare (timing : Timing) (request : Request) : Session (Except Verdict Prepared) :=
  match request.script with
  | none => do
    let limit ← deadline timing.discoveryTimeout
    match ← poll Form.find (idle timing.discoveryInterval) Locators.isComplete limit
        (pausesWithin timing.discoveryTimeout timing.discoveryInterval) with
    | .ok found => return .ok ⟨standardCommands, found⟩
    | .error found => return .error (.undiscovered found)
  | some source =>
    match Script.parse source with
    | .error problem => return .error (.unreadable problem)
    | .ok commands => do
      let found ← if Script.needsLocators commands then Form.find else pure {}
      return .ok ⟨commands, found⟩

/-- Runs the script that is prepared. -/
def fill (timing : Timing) (request : Request) : Session (Except Verdict Unit) := do
  match ← prepare timing request with
  | .error verdict => return .error verdict
  | .ok prepared =>
    match ← Script.run (settingFor timing request prepared.locators) prepared.commands with
    | .error stop => return .error (.stopped stop)
    | .ok () => return .ok ()

/-- The look at the url after the script. -/
def look (timing : Timing) (request : Request) : Session Verdict := do
  Session.call (.openUrl request.successUrl)
  let limit ← deadline timing.successTimeout
  match ← poll (Session.call .currentUrl) (idle timing.successPoll) (urlsMatch · request.successUrl)
      limit (pausesWithin timing.successTimeout timing.successPoll) with
  | .ok _ => return .success
  | .error current => return .elsewhere current

/-- An attempt up to its verdict. -/
def judged (timing : Timing) (request : Request) : Session Verdict := do
  Session.call (.openUrl request.url)
  Session.callAnyway .solveCaptcha
  match ← fill timing request with
  | .error verdict => return verdict
  | .ok () => look timing request

section Equations

variable (timing : Timing) (request : Request)

theorem fillForm_eq (hscript : request.script = none) :
    fillForm timing request = reported request <$> fill timing request := by
  unfold fillForm fill prepare
  rw [hscript]
  simp only [bind_assoc, map_bind]
  refine congrArg _ (funext fun limit => ?_)
  rw [discover_eq, ← bind_pure_comp]
  simp only [bind_assoc, pure_bind]
  refine congrArg _ (funext fun found => ?_)
  cases found with
  | error found => simp [searched, reported, Verdict.outcome, missingStatus_eq]
  | ok found =>
    simp only [searched, runSource_standard, map_bind, pure_bind]
    refine congrArg _ (funext fun result => ?_)
    rcases result with stop | ⟨⟩ <;> simp [reported, Verdict.outcome]

theorem runScript_eq {source : String} (hscript : request.script = some source) :
    runScript timing request source =
      reported request <$> fill timing request := by
  unfold runScript fill prepare
  rw [hscript]
  dsimp only
  cases hparse : Script.parse source with
  | error problem => simp [reported, Verdict.outcome]
  | ok commands =>
    by_cases hneeds : Script.needsLocators commands = true
    · simp only [if_pos hneeds, bind_assoc, map_bind, pure_bind]
      refine congrArg _ (funext fun found => congrArg _ (funext fun result => ?_))
      rcases result with stop | ⟨⟩ <;> simp [reported, Verdict.outcome]
    · simp only [if_neg hneeds, map_bind, pure_bind]
      refine congrArg _ (funext fun result => ?_)
      rcases result with stop | ⟨⟩ <;> simp [reported, Verdict.outcome]

theorem checkSuccess_eq :
    checkSuccess timing request = Verdict.outcome request <$> look timing request := by
  unfold checkSuccess look
  rw [map_bind]
  refine congrArg _ (funext fun _ => ?_)
  rw [map_bind]
  refine congrArg _ (funext fun limit => ?_)
  rw [awaitUrl_eq, map_bind, ← bind_pure_comp]
  refine congrArg _ (funext fun decided => ?_)
  cases decided with
  | ok current =>
    dsimp only
    rw [map_pure]
    rfl
  | error current =>
    dsimp only
    rw [map_pure]
    rfl

/-- An attempt comes to its verdict and then keeps a picture. -/
theorem attempt_eq :
    attempt timing request =
      judged timing request >>= fun verdict => classified request (verdict.outcome request) := by
  have hrest (page : Except Outcome Unit → Session Outcome)
      (herror : ∀ outcome, page (.error outcome) = classified request outcome)
      (hok : page (.ok ()) = checkSuccess timing request >>= classified request) :
      (reported request <$> fill timing request) >>= page =
        fill timing request >>= fun filled => (match filled with
          | .error verdict => pure verdict
          | .ok () => look timing request) >>= fun verdict =>
            classified request (verdict.outcome request) := by
    rw [← bind_pure_comp, bind_assoc]
    refine congrArg _ (funext fun filled => ?_)
    rcases filled with verdict | ⟨⟩
    · simp [reported, herror]
    · simp only [reported, pure_bind, hok]
      rw [checkSuccess_eq, ← bind_pure_comp, bind_assoc]
      simp only [pure_bind]
  unfold attempt judged
  simp only [bind_assoc]
  refine congrArg _ (funext fun _ => congrArg _ (funext fun _ => ?_))
  cases hscript : request.script with
  | none =>
    dsimp only
    rw [fillForm_eq timing request hscript]
    exact hrest _ (fun _ => rfl) rfl
  | some source =>
    dsimp only
    rw [runScript_eq timing request hscript]
    exact hrest _ (fun _ => rfl) rfl

end Equations

end KeepAlive.Login
