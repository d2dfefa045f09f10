import KeepAlive.Proofs.Browser.Scene
import KeepAlive.Script.Run

/-!
# Scripts stop at the first obstacle

The commands of a script are carried out one after another, each with one call, up to the first that
lacks its locator or whose call is not answered.  What the browser is asked and what comes of the
script is said here without the loop that runs it: by the commands that are carried out, and by the
obstacle that the next one meets.
-/

namespace KeepAlive.Script

open Browser

/-- Where the element of a command is: what the command says itself goes before what was found. -/
def Command.locator? (locators : Locators) : Command → Option String
  | .onField _ (some explicit) => some explicit
  | .onField field none => locators.get field
  | .fillText locator _ | .clickButton locator => some locator
  | .openUrl _ | .wait _ => none

/-- The call of a command, if it needs no locator or has it. -/
def Command.call? (setting : Setting) (command : Command) : Option Call :=
  match command with
  | .onField .username _ =>
    (command.locator? setting.locators).map (.fillText · setting.credentials.username)
  | .onField .password _ =>
    (command.locator? setting.locators).map (.fillText · setting.credentials.password)
  | .onField .submitButton _ => (command.locator? setting.locators).map .clickButton
  | .fillText locator value => some (.fillText locator value)
  | .clickButton locator => some (.clickButton locator)
  | .openUrl url => some (.openUrl url)
  | .wait milliseconds => some (.wait (min milliseconds setting.maxWait))

/-- The status of a login that cannot reach the element of the command, if the command fills in or
clicks one. -/
def Command.notFound? : Command → Option LoginStatus
  | .onField field _ => some field.notFound
  | .fillText .. => some .textFieldNotFound
  | .clickButton _ => some .buttonNotFound
  | .openUrl _ | .wait _ => none

/-- The pause after a command that has been carried out: one after each fill or click. -/
def Command.pauses (setting : Setting) (command : Command) : List Happening :=
  if command.notFound?.isSome then [.paused setting.settle] else []

/-- The scene after the call of a command that has been carried out. -/
def Command.leaves {σ : Type} (server : Server σ) (setting : Setting) (command : Command)
    (call : Call) (scene : Scene σ) : Scene σ :=
  if command.notFound?.isSome then (scene.asked server call).later setting.settle
  else scene.asked server call

/-- The commands are carried out one after another: each has a call, and the call is answered. -/
inductive CarriedOut {σ : Type} (server : Server σ) (setting : Setting) :
    Scene σ → List Command → List Happening → Scene σ → Prop
  | none (scene : Scene σ) : CarriedOut server setting scene [] [] scene
  | next {scene last : Scene σ} {command : Command} {rest : List Command} {call : Call}
      {answer : call.Answer} {events : List Happening}
      (hcall : command.call? setting = some call)
      (hreply : (server call scene.browser).reply = .ok answer)
      (hrest : CarriedOut server setting (command.leaves server setting call scene) rest events
        last) :
      CarriedOut server setting scene (command :: rest)
        (.called call :: command.pauses setting ++ events) last

/-- How a script ends at a command that is not carried out: what is still asked, what comes of the
script, and where it stands then. -/
inductive Obstructed {σ : Type} (server : Server σ) (setting : Setting) (scene : Scene σ)
    (command : Command) : List Happening → Except Stop (Except Stopped Unit) → Scene σ → Prop
  /-- A field of the form has no locator. -/
  | unknownPlace {field : Field} (hcommand : command = .onField field none)
      (hlocator : setting.locators.get field = none) :
      Obstructed server setting scene command [] (.ok (.error ⟨field.notFound, none⟩)) scene
  /-- The element that is to be filled in or clicked cannot be reached. -/
  | unreachable {call : Call} {refusal : Refusal} {locator : String} {status : LoginStatus}
      (hcall : command.call? setting = some call)
      (hreply : (server call scene.browser).reply = .error (.refused refusal))
      (hrefusal : refusal.isLocatorFailure = true)
      (hlocator : command.locator? setting.locators = some locator)
      (hstatus : command.notFound? = some status) :
      Obstructed server setting scene command [.called call]
        (.ok (.error ⟨status, some ("XPath \"" ++ locator ++ "\" not found on page.")⟩))
        (scene.asked server call)
  /-- The call is refused for any other reason, or is not about an element. -/
  | refused {call : Call} {refusal : Refusal} (hcall : command.call? setting = some call)
      (hreply : (server call scene.browser).reply = .error (.refused refusal))
      (hother : refusal.isLocatorFailure = false ∨ command.notFound? = none) :
      Obstructed server setting scene command [.called call]
        (.ok (.error ⟨.unknownExecutionError, none⟩)) (scene.asked server call)
  /-- The call breaks off whoever runs the script. -/
  | crashed {call : Call} {reason : String} (hcall : command.call? setting = some call)
      (hreply : (server call scene.browser).reply = .error (.crashed reason)) :
      Obstructed server setting scene command [.called call] (.error (.crashed reason))
        (scene.asked server call)

/-- How a script ends that has come so far: with no command left, or at one that is not carried
out. -/
inductive Ends {σ : Type} (server : Server σ) (setting : Setting) (scene : Scene σ) :
    List Command → List Happening → Except Stop (Except Stopped Unit) → Scene σ → Prop
  | complete : Ends server setting scene [] [] (.ok (.ok ())) scene
  | early {command : Command} {rest : List Command} {events : List Happening}
      {result : Except Stop (Except Stopped Unit)} {last : Scene σ}
      (h : Obstructed server setting scene command events result last) :
      Ends server setting scene (command :: rest) events result last

section Perform

variable {σ : Type} {server : Server σ} {setting : Setting} {scene : Scene σ} {call : Call}
  {command : Command} {locator : String} {missing : LoginStatus}

theorem after_onElement (server : Server σ) (setting : Setting) (call : Call) (locator : String)
    (missing : LoginStatus) (scene : Scene σ) :
    (onElement setting call locator missing).after server scene =
      match (server call scene.browser).reply with
      | .ok _ => (.ok (.ok ()), (scene.asked server call).later setting.settle)
      | .error (.refused refusal) =>
        (.ok (.error (if refusal.isLocatorFailure then
            ⟨missing, some ("XPath \"" ++ locator ++ "\" not found on page.")⟩
          else ⟨.unknownExecutionError, none⟩)), scene.asked server call)
      | .error (.crashed reason) => (.error (.crashed reason), scene.asked server call) := by
  unfold onElement
  rw [Session.after_bind, Session.after_tryCall]
  rcases (server call scene.browser).reply with (refusal | reason) | answer
  · dsimp only
    cases refusal.isLocatorFailure <;> rfl
  · rfl
  · rfl

theorem events_onElement (server : Server σ) (setting : Setting) (call : Call) (locator : String)
    (missing : LoginStatus) (scene : Scene σ) :
    (onElement setting call locator missing).events server scene =
      .called call :: match (server call scene.browser).reply with
        | .ok _ => [.paused setting.settle]
        | .error _ => [] := by
  unfold onElement
  rw [Session.events_bind, Session.events_tryCall, Session.after_tryCall]
  rcases (server call scene.browser).reply with (refusal | reason) | answer
  · dsimp only
    cases refusal.isLocatorFailure <;> rfl
  · rfl
  · rfl

theorem after_plainCall (server : Server σ) (call : Call) (scene : Scene σ) :
    (plainCall call).after server scene =
      match (server call scene.browser).reply with
      | .ok _ => (.ok (.ok ()), scene.asked server call)
      | .error (.refused _) =>
        (.ok (.error ⟨.unknownExecutionError, none⟩), scene.asked server call)
      | .error (.crashed reason) => (.error (.crashed reason), scene.asked server call) := by
  unfold plainCall
  rw [Session.after_bind, Session.after_tryCall]
  rcases (server call scene.browser).reply with (refusal | reason) | answer <;> rfl

theorem events_plainCall (server : Server σ) (call : Call) (scene : Scene σ) :
    (plainCall call).events server scene = [.called call] := by
  unfold plainCall
  rw [Session.events_bind, Session.events_tryCall, Session.after_tryCall]
  rcases (server call scene.browser).reply with (refusal | reason) | answer <;> rfl

/-- A command does one of three things, by its kind and by whether it has its locator. -/
theorem perform_cases (setting : Setting) (command : Command) :
    (∃ call locator missing, command.call? setting = some call ∧
      command.locator? setting.locators = some locator ∧ command.notFound? = some missing ∧
      perform setting command = onElement setting call locator missing) ∨
    (∃ call, command.call? setting = some call ∧ command.notFound? = none ∧
      perform setting command = plainCall call) ∨
    ∃ field, command = .onField field none ∧ setting.locators.get field = none ∧
      perform setting command = pure (.error ⟨field.notFound, none⟩) := by
  cases command with
  | onField field explicit =>
    cases explicit with
    | some locator => cases field <;> exact .inl ⟨_, _, _, rfl, rfl, rfl, rfl⟩
    | none =>
      cases hlocator : setting.locators.get field with
      | none =>
        refine .inr (.inr ⟨field, rfl, hlocator, ?_⟩)
        simp [perform, hlocator]
      | some locator =>
        refine .inl ⟨fieldCall setting.credentials locator field, locator, field.notFound, ?_,
          hlocator, rfl, ?_⟩
        · cases field <;> simp [Command.call?, Command.locator?, hlocator, fieldCall]
        · simp [perform, hlocator]
  | fillText locator value => exact .inl ⟨_, _, _, rfl, rfl, rfl, rfl⟩
  | clickButton locator => exact .inl ⟨_, _, _, rfl, rfl, rfl, rfl⟩
  | openUrl url => exact .inr (.inl ⟨_, rfl, rfl, rfl⟩)
  | wait milliseconds => exact .inr (.inl ⟨_, rfl, rfl, rfl⟩)

/-- One step of a script: a command whose call is answered is carried out, any other one meets an
obstacle. -/
theorem perform_carriedOut_or_obstructed (server : Server σ) (setting : Setting)
    (command : Command) (scene : Scene σ) :
    (∃ (call : Call) (answer : call.Answer), command.call? setting = some call ∧
      (server call scene.browser).reply = .ok answer ∧
      (perform setting command).Yields server scene (.ok ())
        (command.leaves server setting call scene) ∧
      (perform setting command).events server scene = .called call :: command.pauses setting) ∨
    ∃ result last, Obstructed server setting scene command
        ((perform setting command).events server scene) result last ∧
      (perform setting command).after server scene = (result, last) ∧ result ≠ .ok (.ok ()) := by
  rcases perform_cases setting command with
    ⟨call, locator, missing, hcall, hlocator, hmissing, hperform⟩ | ⟨call, hcall, hmissing, hperform⟩ |
    ⟨field, hcommand, hlocator, hperform⟩
  · unfold Session.Yields Command.leaves Command.pauses
    rw [hperform, after_onElement, events_onElement, hmissing]
    rcases hreply : (server call scene.browser).reply with (refusal | reason) | answer
    · cases hrefusal : refusal.isLocatorFailure with
      | true =>
        exact .inr ⟨_, _, .unreachable hcall hreply hrefusal hlocator hmissing, by simp [hrefusal],
          by simp⟩
      | false =>
        exact .inr ⟨_, _, .refused hcall hreply (.inl hrefusal), by simp [hrefusal], by simp⟩
    · exact .inr ⟨_, _, .crashed hcall hreply, rfl, by simp⟩
    · exact .inl ⟨call, answer, hcall, hreply, rfl, rfl⟩
  · unfold Session.Yields Command.leaves Command.pauses
    rw [hperform, after_plainCall, events_plainCall, hmissing]
    rcases hreply : (server call scene.browser).reply with (refusal | reason) | answer
    · exact .inr ⟨_, _, .refused hcall hreply (.inr hmissing), rfl, by simp⟩
    · exact .inr ⟨_, _, .crashed hcall hreply, rfl, by simp⟩
    · exact .inl ⟨call, answer, hcall, hreply, rfl, rfl⟩
  · rw [hperform]
    exact .inr ⟨_, _, .unknownPlace hcommand hlocator, rfl, by simp⟩

end Perform

section Run

variable {σ : Type} (server : Server σ) (setting : Setting)

/-- A script does what its commands say, up to the first obstacle. -/
theorem exists_carriedOut_run (commands : List Command) (scene : Scene σ) :
    ∃ done rest events middle more result last, commands = done ++ rest ∧
      CarriedOut server setting scene done events middle ∧
      Ends server setting middle rest more result last ∧
      (run setting commands).events server scene = events ++ more ∧
      (run setting commands).after server scene = (result, last) := by
  -- The first command is carried out, and the rest goes on from the scene that it leaves, or it meets
  -- the obstacle.
  induction commands generalizing scene with
  | nil => exact ⟨[], [], [], scene, [], _, scene, rfl, .none scene, .complete, rfl, rfl⟩
  | cons command commands ih =>
    unfold run
    rw [Session.events_bind, Session.after_bind]
    rcases perform_carriedOut_or_obstructed server setting command scene with
      ⟨call, answer, hcall, hreply, hyields, hevents⟩ | ⟨result, last, hobstructed, hafter, hresult⟩
    · obtain ⟨done, rest, events, middle, more, result, last, rfl, hdone, hends, hrun, hrest⟩ :=
        ih (command.leaves server setting call scene)
      refine ⟨command :: done, rest, _, middle, more, result, last, rfl,
        .next hcall hreply hdone, hends, ?_, ?_⟩
      · rw [hyields, hevents, List.append_assoc, ← hrun]
      · rw [hyields, ← hrest]
    · refine ⟨[], command :: commands, [], scene, _, result, last, rfl, .none scene,
        .early hobstructed, ?_, ?_⟩
      · rw [hafter]
        rcases result with stop | stopped | ⟨⟩
        · simp
        · simp
        · exact absurd rfl hresult
      · rw [hafter]
        rcases result with stop | stopped | ⟨⟩
        · rfl
        · rfl
        · exact absurd rfl hresult

theorem notFound_ne_success (field : Field) : field.notFound ≠ .success := by
  cases field <;> simp [Field.notFound]

theorem Command.notFound?_ne_success (command : Command) : command.notFound? ≠ some .success := by
  cases command with
  | onField field explicit => simpa [Command.notFound?] using notFound_ne_success field
  | fillText locator value => simp [Command.notFound?]
  | clickButton locator => simp [Command.notFound?]
  | openUrl url => simp [Command.notFound?]
  | wait milliseconds => simp [Command.notFound?]

/-- A script that stops has not succeeded. -/
theorem status_ne_success_of_run {commands : List Command} {scene last : Scene σ} {stopped : Stopped}
    (h : (run setting commands).Yields server scene (.error stopped) last) :
    stopped.status ≠ .success := by
  obtain ⟨done, rest, events, middle, more, result, final, -, -, hends, -, hafter⟩ :=
    exists_carriedOut_run server setting commands scene
  rw [Session.Yields, hafter, Prod.mk.injEq] at h
  obtain ⟨rfl, -⟩ := h
  cases hends with
  | early hobstructed =>
    cases hobstructed with
    | unknownPlace hcommand hlocator => exact notFound_ne_success _
    | unreachable hcall hreply hrefusal hlocator hstatus =>
      rintro rfl
      exact Command.notFound?_ne_success _ hstatus
    | refused hcall hreply hother => simp

theorem perform_eq_of_needsLocator {command : Command} (h : command.needsLocator = false)
    (locators : Locators) :
    perform { setting with locators } command = perform setting command := by
  cases command with
  | onField field explicit =>
    cases explicit with
    | none => simp [Command.needsLocator] at h
    | some locator => rfl
  | fillText locator value => rfl
  | clickButton locator => rfl
  | openUrl url => rfl
  | wait milliseconds => rfl

theorem run_eq_of_needsLocators {commands : List Command} (h : needsLocators commands = false)
    (locators : Locators) : run { setting with locators } commands = run setting commands := by
  induction commands with
  | nil => rfl
  | cons command commands ih =>
    simp only [needsLocators, List.any_cons, Bool.or_eq_false_iff] at h
    unfold run
    rw [perform_eq_of_needsLocator setting h.1 locators, ih h.2]

end Run

/-- A script makes the calls of its commands in order, each once, and pauses after each fill or click
that is done, up to the first command that is not carried out; what comes of the script is what that
command meets.  Where no command relies on a discovered locator, the discovered ones make no
difference. -/
theorem stops_at_first_obstacle {σ : Type} (server : Server σ) (setting : Setting)
    (commands : List Command) (scene : Scene σ) :
    (∃ done rest events middle more result last, commands = done ++ rest ∧
      CarriedOut server setting scene done events middle ∧
      Ends server setting middle rest more result last ∧
      (run setting commands).events server scene = events ++ more ∧
      (run setting commands).after server scene = (result, last)) ∧
    (needsLocators commands = false →
      ∀ locators, run { setting with locators } commands = run setting commands) :=
  ⟨exists_carriedOut_run server setting commands scene,
    fun h => run_eq_of_needsLocators setting h⟩

/-- A server that fills in fields, but cannot find the page that is to be opened. -/
def withoutPages : Server Unit := fun call _ =>
  match call with
  | .fillText .. => { reply := .ok (), state := () }
  | .openUrl url => { reply := .error (.refused (.notFound url)), state := () }
  | _ => { reply := .error (.crashed "not expected"), state := () }

/-- A page that is not found is no element that is not found, and the click after it is not made;
this is the same with any locators. -/
theorem stops_at_page_not_found :
    let setting : Setting := { locators := {}, credentials := ⟨"alice", "secret"⟩ }
    let commands : List Command := [.onField .username (some "//input"), .openUrl "https://a.example",
      .clickButton "//button"]
    let scene : Scene Unit := ⟨(), 0⟩
    needsLocators commands = false ∧
      (∃ done rest events middle more result last, commands = done ++ rest ∧
        CarriedOut withoutPages setting scene done events middle ∧
        Ends withoutPages setting middle rest more result last ∧
        (run setting commands).events withoutPages scene = events ++ more ∧
        (run setting commands).after withoutPages scene = (result, last)) ∧
      ∀ locators, (run { setting with locators } commands).events withoutPages scene =
          [.called (.fillText "//input" "alice"), .paused 500,
            .called (.openUrl "https://a.example")] ∧
        (run { setting with locators } commands).after withoutPages scene =
          (.ok (.error ⟨.unknownExecutionError, none⟩), ⟨(), 500⟩) := by
  intro setting commands scene
  have hmain := stops_at_first_obstacle withoutPages setting commands scene
  refine ⟨rfl, hmain.1, ?_⟩
  intro locators
  rw [hmain.2 rfl locators]
  exact ⟨rfl, rfl⟩

end KeepAlive.Script
