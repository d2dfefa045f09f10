import KeepAlive.Proofs.Browser.Typing
import KeepAlive.Proofs.Login.Lasting

/-!
# What an attempt makes of the credentials

The commands for the fields of the form type the credentials, and nothing else is done with them.  So
on fixed pages a login comes to the same outcome at the same time whoever logs in, and it writes down
the same but for what those commands type.
-/

namespace KeepAlive

open Browser

namespace Script

open Browser.Session

/-- The setting of somebody else. -/
def Setting.withCredentials (setting : Setting) (credentials : Credentials) : Setting :=
  { setting with credentials }

@[simp] theorem Setting.locators_withCredentials (setting : Setting) (credentials : Credentials) :
    (setting.withCredentials credentials).locators = setting.locators := rfl

@[simp] theorem Setting.credentials_withCredentials (setting : Setting) (credentials : Credentials) :
    (setting.withCredentials credentials).credentials = credentials := rfl

@[simp] theorem Setting.maxWait_withCredentials (setting : Setting) (credentials : Credentials) :
    (setting.withCredentials credentials).maxWait = setting.maxWait := rfl

/-! ### One command -/

/-- How a script goes on after the call of a command on an element. -/
def carryOn (settle : Nat) (locator : String) (missing : LoginStatus) :
    Except Refusal Unit → Session (Except Stopped Unit)
  | .ok () => do
    Session.pause settle
    return .ok ()
  | .error refusal =>
    return .error (if refusal.isLocatorFailure then
        ⟨missing, some ("XPath \"" ++ locator ++ "\" not found on page.")⟩
      else ⟨.unknownExecutionError, none⟩)

theorem onElement_eq (setting : Setting) (call : Call) (locator : String) (missing : LoginStatus) :
    onElement setting call locator missing =
      Session.tell call >>= carryOn setting.settle locator missing := by
  unfold onElement Session.tell
  rw [← bind_pure_comp, bind_assoc]
  refine congrArg _ (funext fun reply => ?_)
  rw [pure_bind]
  rcases reply with refusal | answer
  · cases hrefusal : refusal.isLocatorFailure <;> simp [carryOn, Except.map, hrefusal]
  · rfl

theorem plainCall_eq (call : Call) :
    plainCall call =
      Session.tell call >>= fun reply =>
        pure (reply.mapError fun _ => ⟨.unknownExecutionError, none⟩) := by
  unfold plainCall Session.tell
  rw [← bind_pure_comp, bind_assoc]
  refine congrArg _ (funext fun reply => ?_)
  rw [pure_bind]
  cases reply <;> rfl

theorem call?_onField (setting : Setting) (field : Field) (explicit : Option String) :
    (Command.onField field explicit).call? setting =
      (explicit <|> setting.locators.get field).map (fieldCall setting.credentials · field) := by
  cases explicit <;> cases field <;> rfl

section Families

variable {ι : Type} {call : ι → Call} {scene : Scene Page}

theorem isSteady_fieldCall (credentials : ι → Credentials) (locator : String) (field : Field)
    (shown : Page) : IsSteady (fun i => fieldCall (credentials i) locator field) shown := by
  cases field with
  | username => exact isSteady_fillText locator (fun i => (credentials i).username) shown
  | password => exact isSteady_fillText locator (fun i => (credentials i).password) shown
  | submitButton => exact isSteady_const rfl shown

theorem lead_carryOn (settle : Nat) (locator : String) (missing : LoginStatus)
    (reply : Except Refusal Unit) (scene : Scene Page) :
    ∃ result last, Lead (fun _ : ι => carryOn settle locator missing reply) scene (.ok result)
      (fun _ => []) last := by
  rcases reply with refusal | ⟨⟩
  · exact ⟨_, _, lead_pure _ scene⟩
  · exact ⟨_, scene.later settle, fun _ page hpage => ⟨page, rfl, hpage, rfl⟩⟩

theorem exists_lead_onElement (h : IsSteady call scene.browser) (setting : Setting)
    (credentials : ι → Credentials) (locator : String) (missing : LoginStatus) :
    ∃ result last, Lead (fun i =>
        onElement (setting.withCredentials (credentials i)) (call i) locator missing)
      scene result (fun i => [call i]) last := by
  simp only [onElement_eq]
  obtain ⟨reply | reply, middle, htell⟩ := exists_lead_tell h
  · exact ⟨_, _, htell.bind_of_stop⟩
  · obtain ⟨result, last, hrest⟩ := lead_carryOn setting.settle locator missing reply middle
    exact ⟨_, _, htell.bind hrest⟩

theorem exists_lead_plainCall (h : IsSteady call scene.browser) :
    ∃ result last, Lead (fun i => plainCall (call i)) scene result (fun i => [call i]) last := by
  simp only [plainCall_eq]
  obtain ⟨reply | reply, middle, htell⟩ := exists_lead_tell h
  · exact ⟨_, _, htell.bind_of_stop⟩
  · exact ⟨_, _, htell.bind (lead_pure _ middle)⟩

/-- A command leads to the same whatever the credentials are, and writes down its call. -/
theorem exists_lead_perform (setting : Setting) (credentials : ι → Credentials) (command : Command)
    (scene : Scene Page) :
    ∃ result last, Lead (fun i => perform (setting.withCredentials (credentials i)) command) scene
      result (fun i => (command.call? (setting.withCredentials (credentials i))).toList) last := by
  cases command with
  | onField field explicit =>
    simp only [perform, call?_onField, Setting.locators_withCredentials,
      Setting.credentials_withCredentials]
    cases explicit <|> setting.locators.get field with
    | none => exact ⟨_, _, lead_pure _ scene⟩
    | some locator =>
      exact exists_lead_onElement (isSteady_fieldCall credentials locator field scene.browser) setting
        credentials locator _
  | fillText locator value =>
    exact exists_lead_onElement (isSteady_const rfl scene.browser) setting credentials locator _
  | clickButton locator =>
    exact exists_lead_onElement (isSteady_const rfl scene.browser) setting credentials locator _
  | openUrl url => exact exists_lead_plainCall (isSteady_const rfl scene.browser)
  | wait milliseconds =>
    simp only [perform, Command.call?, Setting.maxWait_withCredentials]
    exact exists_lead_plainCall (isSteady_const rfl scene.browser)

/-- A script leads to the same whatever the credentials are, and writes down the calls of the commands
that it comes to. -/
theorem exists_lead_run (setting : Setting) (credentials : ι → Credentials) (commands : List Command)
    (scene : Scene Page) :
    ∃ performed result last, performed <+: commands ∧
      Lead (fun i => run (setting.withCredentials (credentials i)) commands) scene result
        (fun i => performed.filterMap (·.call? (setting.withCredentials (credentials i)))) last := by
  simp only [List.filterMap_eq_flatMap_toList]
  induction commands generalizing scene with
  | nil => exact ⟨[], _, _, List.prefix_rfl, lead_pure _ scene⟩
  | cons command rest ih =>
    obtain ⟨result, middle, hfirst⟩ := exists_lead_perform setting credentials command scene
    simp only [run]
    rcases result with stop | stopped | ⟨⟩
    · refine ⟨[command], .error stop, middle, List.prefix_append [command] rest, ?_⟩
      simp only [List.flatMap_singleton]
      exact hfirst.bind_of_stop
    · refine ⟨[command], .ok (.error stopped), middle, List.prefix_append [command] rest, ?_⟩
      simp only [List.flatMap_cons]
      exact hfirst.bind (lead_pure _ middle)
    · obtain ⟨performed, result, last, hprefix, hrest⟩ := ih middle
      refine ⟨command :: performed, result, last, List.cons_prefix_cons.2 ⟨rfl, hprefix⟩, ?_⟩
      simp only [List.flatMap_cons]
      exact hfirst.bind hrest

end Families

/-! ### The same script for somebody else -/

/-- Whether two calls are the same, or type the same part of the credentials of two people into the
same field. -/
inductive Matches (credentials other : Credentials) : Call → Call → Prop
  | same (call : Call) : Matches credentials other call call
  | username (locator : String) : Matches credentials other
      (.fillText locator credentials.username) (.fillText locator other.username)
  | password (locator : String) : Matches credentials other
      (.fillText locator credentials.password) (.fillText locator other.password)

theorem rel_call? (setting : Setting) (credentials other : Credentials) (command : Command) :
    Option.Rel (Matches credentials other) (command.call? (setting.withCredentials credentials))
      (command.call? (setting.withCredentials other)) := by
  cases command with
  | onField field explicit =>
    simp only [call?_onField, Setting.locators_withCredentials, Setting.credentials_withCredentials]
    cases explicit <|> setting.locators.get field with
    | none => exact .none
    | some locator =>
      cases field with
      | username => exact .some (.username locator)
      | password => exact .some (.password locator)
      | submitButton => exact .some (.same _)
  | fillText locator value => exact .some (.same _)
  | clickButton locator => exact .some (.same _)
  | openUrl url => exact .some (.same _)
  | wait milliseconds => exact .some (.same _)

theorem forall₂_matches (setting : Setting) (credentials other : Credentials)
    (commands : List Command) :
    List.Forall₂ (Matches credentials other)
      (commands.filterMap (·.call? (setting.withCredentials credentials)))
      (commands.filterMap (·.call? (setting.withCredentials other))) := by
  induction commands with
  | nil => exact .nil
  | cons command rest ih =>
    have hcall := rel_call? setting credentials other command
    simp only [List.filterMap_cons]
    generalize command.call? (setting.withCredentials credentials) = first at hcall ⊢
    generalize command.call? (setting.withCredentials other) = second at hcall ⊢
    cases hcall with
    | none => exact ih
    | some hmatch => exact .cons hmatch ih

theorem sameButTyped_fieldCall (credentials other : Credentials) (locator : String) (field : Field) :
    (Session.tell (fieldCall credentials locator field)).SameButTyped
      (Session.tell (fieldCall other locator field)) := by
  cases field with
  | username => exact sameButTyped_tell locator credentials.username other.username
  | password => exact sameButTyped_tell locator credentials.password other.password
  | submitButton => exact .refl _

theorem sameButTyped_perform (setting : Setting) (credentials other : Credentials)
    (command : Command) :
    (perform (setting.withCredentials credentials) command).SameButTyped
      (perform (setting.withCredentials other) command) := by
  cases command with
  | onField field explicit =>
    simp only [perform, onElement_eq, Setting.locators_withCredentials,
      Setting.credentials_withCredentials]
    cases explicit <|> setting.locators.get field with
    | none => exact .refl _
    | some locator => exact (sameButTyped_fieldCall credentials other locator field).bind_right _
  | fillText locator value => exact .refl _
  | clickButton locator => exact .refl _
  | openUrl url => exact .refl _
  | wait milliseconds => exact .refl _

theorem sameButTyped_run (setting : Setting) (credentials other : Credentials)
    (commands : List Command) :
    (run (setting.withCredentials credentials) commands).SameButTyped
      (run (setting.withCredentials other) commands) := by
  induction commands with
  | nil => exact .refl _
  | cons command rest ih =>
    refine (sameButTyped_perform setting credentials other command).bind ?_
    rintro (stopped | ⟨⟩)
    · exact .refl _
    · exact ih

end Script

namespace Login

/-- The request of somebody else. -/
def Request.withCredentials (request : Request) (credentials : Credentials) : Request :=
  { request with credentials }

/-! ### The script and what is around it -/

/-- Where the fields are, as far as the script asks for it. -/
def locate (timing : Timing) (request : Request) : Session (Except Verdict Locators) :=
  match request.script with
  | none => do
    let limit ← deadline timing.discoveryTimeout
    let found ← poll Form.find (idle timing.discoveryInterval) Locators.isComplete limit
      (pausesWithin timing.discoveryTimeout timing.discoveryInterval)
    return found.mapError .undiscovered
  | some source =>
    match Script.parse source with
    | .error problem => return .error (.unreadable problem)
    | .ok commands => do
      let found ← if Script.needsLocators commands then Form.find else pure {}
      return .ok found

/-- What comes of filling in the form, by what comes of the script. -/
def concluded : Except Script.Stopped Unit → Except Verdict Unit :=
  Except.mapError .stopped

theorem prepare_eq (timing : Timing) (request : Request) :
    prepare timing request =
      Except.map (Prepared.mk request.commands) <$> locate timing request := by
  unfold prepare locate Request.commands
  cases request.script with
  | none =>
    simp only [map_bind, map_pure]
    refine congrArg _ (funext fun limit => congrArg _ (funext fun found => ?_))
    cases found <;> rfl
  | some source =>
    cases hparse : Script.parse source with
    | error problem =>
      simp only [hparse, map_pure]
      rfl
    | ok commands =>
      simp only [hparse]
      split
      · rw [map_bind]
        rfl
      · rfl

theorem fill_eq (timing : Timing) (request : Request) :
    fill timing request = locate timing request >>= fun
      | .error verdict => pure (.error verdict)
      | .ok locators =>
        concluded <$> Script.run (settingFor timing request locators) request.commands := by
  unfold fill
  rw [prepare_eq, ← bind_pure_comp, bind_assoc]
  refine congrArg _ (funext fun located => ?_)
  rw [pure_bind]
  cases located with
  | error verdict => rfl
  | ok locators =>
    simp only [Except.map]
    rw [← bind_pure_comp]
    refine congrArg _ (funext fun ended => ?_)
    rcases ended with stopped | ⟨⟩ <;> rfl

section Others

variable (timing : Timing) (request : Request) (credentials : Credentials)

theorem settingFor_withCredentials (locators : Locators) :
    settingFor timing (request.withCredentials credentials) locators =
      (settingFor timing request locators).withCredentials credentials := rfl

@[simp] theorem Request.url_withCredentials :
    (request.withCredentials credentials).url = request.url := rfl

@[simp] theorem locate_withCredentials :
    locate timing (request.withCredentials credentials) = locate timing request := rfl

@[simp] theorem look_withCredentials :
    look timing (request.withCredentials credentials) = look timing request := rfl

@[simp] theorem outcome_withCredentials (verdict : Verdict) :
    verdict.outcome (request.withCredentials credentials) = verdict.outcome request := rfl

@[simp] theorem classified_withCredentials (outcome : Outcome) :
    classified (request.withCredentials credentials) outcome = classified request outcome := rfl

end Others

/-! ### The course of a login -/

/-- What a login asks the browser, by the commands that it performs: what it asks before the script,
where the script finds the fields, and what it asks afterwards. -/
structure Course where
  before : List Call := []
  locators : Locators := {}
  performed : List Script.Command := []
  after : List Call := []

/-- What somebody's login writes down in its course. -/
def Course.journal (course : Course) (timing : Timing) (request : Request) : List Call :=
  course.before ++
    course.performed.filterMap (·.call? (settingFor timing request course.locators)) ++ course.after

/-- Entry by entry, two people's journals are the same but for the credentials that are typed. -/
theorem Course.forall₂_journal (course : Course) (timing : Timing) (request : Request)
    (credentials other : Credentials) :
    List.Forall₂ (Script.Matches credentials other)
      (course.journal timing (request.withCredentials credentials))
      (course.journal timing (request.withCredentials other)) := by
  have hsame (calls : List Call) : List.Forall₂ (Script.Matches credentials other) calls calls :=
    List.forall₂_same.2 fun call _ => .same call
  unfold journal
  simp only [settingFor_withCredentials]
  exact List.rel_append (List.rel_append (hsame _) (Script.forall₂_matches _ credentials other _))
    (hsame _)

variable {α β : Type} {timing : Timing} {request : Request}

/-- Whether sessions, one for each credentials, take the same course. -/
def TakesCourse (timing : Timing) (request : Request) (session : Credentials → Session α) : Prop :=
  ∀ scene, ∃ (course : Course) (result : Except Stop α) (last : Scene Page),
    course.performed <+: request.commands ∧
      Session.Lead session scene result
        (fun credentials => course.journal timing (request.withCredentials credentials)) last

namespace TakesCourse

theorem pure (result : α) : TakesCourse timing request fun _ => Pure.pure result :=
  fun scene => ⟨{}, _, _, List.nil_prefix, Session.lead_pure result scene⟩

theorem run (timing : Timing) (request : Request) (locators : Locators) :
    TakesCourse timing request fun credentials =>
      Script.run (settingFor timing (request.withCredentials credentials) locators)
        request.commands := by
  intro scene
  obtain ⟨performed, result, last, hprefix, hlead⟩ :=
    Script.exists_lead_run (settingFor timing request locators) id request.commands scene
  refine ⟨{ locators, performed }, result, last, hprefix, ?_⟩
  simpa [Course.journal, settingFor_withCredentials] using hlead

/-- What is done before in any case does not change the course of the rest. -/
theorem bind_left (first : Session α) {rest : Credentials → α → Session β}
    (h : ∀ answer, TakesCourse timing request fun credentials => rest credentials answer) :
    TakesCourse timing request fun credentials => first >>= rest credentials := by
  intro scene
  obtain ⟨stop | answer, calls, middle, hfirst⟩ := Session.exists_lead first scene
  · refine ⟨{ before := calls }, .error stop, middle, List.nil_prefix, ?_⟩
    simpa [Course.journal] using hfirst.bind_of_stop
  · obtain ⟨course, result, last, hprefix, hrest⟩ := h answer middle
    refine ⟨{ course with before := calls ++ course.before }, result, last, hprefix, ?_⟩
    simpa [Course.journal, List.append_assoc] using hfirst.bind hrest

theorem bind_right {session : Credentials → Session α} (h : TakesCourse timing request session)
    (rest : α → Session β) :
    TakesCourse timing request fun credentials => session credentials >>= rest := by
  intro scene
  obtain ⟨course, stop | answer, middle, hprefix, hlead⟩ := h scene
  · exact ⟨course, .error stop, middle, hprefix, hlead.bind_of_stop⟩
  · obtain ⟨result, calls, last, hrest⟩ := Session.exists_lead (rest answer) middle
    refine ⟨{ course with after := course.after ++ calls }, result, last, hprefix, ?_⟩
    simpa [Course.journal, List.append_assoc] using hlead.bind hrest

theorem lift_caught {session : Credentials → Session α} (h : TakesCourse timing request session) :
    TakesCourse timing request fun credentials => ExceptT.lift (session credentials).caught := by
  intro scene
  obtain ⟨course, result, last, hprefix, hlead⟩ := h scene
  exact ⟨course, .ok result, last, hprefix, hlead.lift_caught⟩

end TakesCourse

theorem takesCourse_fill (timing : Timing) (request : Request) :
    TakesCourse timing request fun credentials =>
      fill timing (request.withCredentials credentials) := by
  simp only [fill_eq]
  refine .bind_left (locate timing request) fun located => ?_
  cases located with
  | error verdict => exact .pure _
  | ok locators => exact (TakesCourse.run timing request locators).bind_right _

theorem takesCourse_attempt (timing : Timing) (request : Request) :
    TakesCourse timing request fun credentials =>
      attempt timing (request.withCredentials credentials) := by
  simp only [attempt_eq, judged, Request.url_withCredentials, look_withCredentials,
    outcome_withCredentials, classified_withCredentials]
  refine .bind_right (.bind_left _ fun _ => .bind_left _ fun _ => ?_) _
  exact (takesCourse_fill timing request).bind_right _

/-- Whoever logs in, a login takes the same course. -/
theorem takesCourse_login (timing : Timing) (request : Request) :
    TakesCourse timing request fun credentials =>
      login timing (request.withCredentials credentials) := by
  unfold login
  refine .bind_left _ fun opened => ?_
  cases opened with
  | error refusal => exact .pure _
  | ok answer => exact (takesCourse_attempt timing request).lift_caught.bind_right _

/-! ### The same session for somebody else -/

theorem sameButTyped_fill (credentials other : Credentials) :
    (fill timing (request.withCredentials credentials)).SameButTyped
      (fill timing (request.withCredentials other)) := by
  simp only [fill_eq, locate_withCredentials]
  refine .bind_left _ fun located => ?_
  cases located with
  | error verdict => exact .refl _
  | ok locators =>
    exact (Script.sameButTyped_run (settingFor timing request locators) credentials other
      request.commands).bind_right _

theorem sameButTyped_attempt (credentials other : Credentials) :
    (attempt timing (request.withCredentials credentials)).SameButTyped
      (attempt timing (request.withCredentials other)) := by
  simp only [attempt_eq, judged, Request.url_withCredentials, look_withCredentials,
    outcome_withCredentials, classified_withCredentials]
  refine .bind_right (.bind_left _ fun _ => .bind_left _ fun _ => ?_) _
  exact (sameButTyped_fill credentials other).bind_right _

/-- A login of somebody else is the same but for what it types. -/
theorem sameButTyped_login (timing : Timing) (request : Request) (credentials other : Credentials) :
    (login timing (request.withCredentials credentials)).SameButTyped
      (login timing (request.withCredentials other)) := by
  unfold login
  refine .bind_left _ fun opened => ?_
  cases opened with
  | error refusal => exact .refl _
  | ok answer => exact (sameButTyped_attempt credentials other).lift_caught.bind_right _

end Login

end KeepAlive
