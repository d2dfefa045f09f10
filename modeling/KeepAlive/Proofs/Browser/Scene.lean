import KeepAlive.Browser.Dialogue

/-!
# What a session does

Held against a server, a session leads from one scene to another: it gives a result or is stopped,
and on the way it makes calls and pauses.  For a session that goes on with another one all of this
is put together from the two.
-/

namespace KeepAlive.Browser

/-- What can be seen of a dialogue while it is held. -/
inductive Happening
  | called (call : Call)
  | paused (milliseconds : Nat)
  deriving DecidableEq, Repr

/-- The call that is made, if it is one. -/
def Happening.call? : Happening → Option Call
  | .called call => some call
  | .paused _ => none

/-- The calls among events. -/
def callsOf (events : List Happening) : List Call :=
  events.filterMap Happening.call?

@[simp] theorem callsOf_nil : callsOf [] = [] := rfl

@[simp] theorem callsOf_called (call : Call) (events : List Happening) :
    callsOf (.called call :: events) = call :: callsOf events := rfl

@[simp] theorem callsOf_append (events more : List Happening) :
    callsOf (events ++ more) = callsOf events ++ callsOf more :=
  List.filterMap_append

/-- A browser and the time. -/
structure Scene (σ : Type) where
  browser : σ
  now : Nat

namespace Scene

variable {σ : Type}

/-- The scene after a call. -/
def asked (server : Server σ) (call : Call) (scene : Scene σ) : Scene σ :=
  ⟨(server call scene.browser).state, scene.now + (server call scene.browser).took⟩

/-- The scene after some time. -/
def later (scene : Scene σ) (milliseconds : Nat) : Scene σ :=
  ⟨scene.browser, scene.now + milliseconds⟩

end Scene

namespace Dialogue

variable {α β σ : Type}

instance : LawfulMonad Dialogue :=
  LawfulMonad.mk' Dialogue
    (by
      intro α dialogue
      induction dialogue with
      | done result => rfl
      | ask call next ih => exact congrArg (Dialogue.ask call) (funext ih)
      | pause milliseconds next ih => exact congrArg (Dialogue.pause milliseconds) ih
      | clock next ih => exact congrArg Dialogue.clock (funext ih))
    (by
      intro α β result rest
      rfl)
    (by
      intro α β γ dialogue rest more
      induction dialogue with
      | done result => rfl
      | ask call next ih => exact congrArg (Dialogue.ask call) (funext ih)
      | pause milliseconds next ih => exact congrArg (Dialogue.pause milliseconds) ih
      | clock next ih => exact congrArg Dialogue.clock (funext ih))

/-- What happens while a dialogue is held, in order. -/
def events (server : Server σ) : Dialogue α → σ → Nat → List Happening
  | .done _, _, _ => []
  | .ask call next, state, now =>
    let handled := server call state
    .called call :: (next handled.reply).events server handled.state (now + handled.took)
  | .pause milliseconds next, state, now =>
    .paused milliseconds :: next.events server state (now + milliseconds)
  | .clock next, state, now => (next now).events server state now

theorem run_bind (server : Server σ) (dialogue : Dialogue α) (rest : α → Dialogue β) (state : σ)
    (now : Nat) :
    (dialogue.bind rest).run server state now =
      (rest (dialogue.run server state now).1).run server (dialogue.run server state now).2.1
        (dialogue.run server state now).2.2 := by
  induction dialogue generalizing state now with
  | done result => rfl
  | ask call next ih => exact ih _ _ _
  | pause milliseconds next ih => exact ih _ _
  | clock next ih => exact ih _ _ _

theorem events_bind (server : Server σ) (dialogue : Dialogue α) (rest : α → Dialogue β) (state : σ)
    (now : Nat) :
    (dialogue.bind rest).events server state now =
      dialogue.events server state now ++
        (rest (dialogue.run server state now).1).events server (dialogue.run server state now).2.1
          (dialogue.run server state now).2.2 := by
  induction dialogue generalizing state now with
  | done result => rfl
  | ask call next ih => exact congrArg (Happening.called call :: ·) (ih _ _ _)
  | pause milliseconds next ih => exact congrArg (Happening.paused milliseconds :: ·) (ih _ _)
  | clock next ih => exact ih _ _ _

theorem le_run (server : Server σ) (dialogue : Dialogue α) (state : σ) (now : Nat) :
    now ≤ (dialogue.run server state now).2.2 := by
  induction dialogue generalizing state now with
  | done result => exact Nat.le_refl _
  | ask call next ih => exact Nat.le_trans (Nat.le_add_right _ _) (ih _ _ _)
  | pause milliseconds next ih => exact Nat.le_trans (Nat.le_add_right _ _) (ih _ _)
  | clock next ih => exact ih _ _ _

end Dialogue

namespace Session

variable {α β σ : Type} {server : Server σ} {scene last : Scene σ}

/-- The result of a session and the scene where it ends. -/
def after (server : Server σ) (session : Session α) (scene : Scene σ) : Except Stop α × Scene σ :=
  let (result, browser, now) := session.caught.run server scene.browser scene.now
  (result, ⟨browser, now⟩)

/-- What happens in a session. -/
def events (server : Server σ) (session : Session α) (scene : Scene σ) : List Happening :=
  session.caught.events server scene.browser scene.now

/-- Whether a session comes to its end with the given result. -/
def Yields (server : Server σ) (session : Session α) (scene : Scene σ) (result : α)
    (last : Scene σ) : Prop :=
  session.after server scene = (.ok result, last)

/-- Whether a session comes to its end with the given result, in whatever scene. -/
def Returns (server : Server σ) (session : Session α) (scene : Scene σ) (result : α) : Prop :=
  (session.after server scene).1 = .ok result

theorem returns_iff {session : Session α} {result : α} :
    session.Returns server scene result ↔ ∃ last, session.Yields server scene result last := by
  unfold Returns Yields
  constructor
  · intro h
    exact ⟨(session.after server scene).2, Prod.ext h rfl⟩
  · rintro ⟨last, h⟩
    rw [h]

theorem Returns.unique {session : Session α} {result other : α}
    (h : session.Returns server scene result) (hother : session.Returns server scene other) :
    result = other := by
  unfold Returns at h hother
  rw [h] at hother
  exact Except.ok.inj hother

/-! ### Sessions that go on with others -/

@[simp] theorem after_pure (result : α) :
    after server (pure result) scene = (.ok result, scene) := rfl

@[simp] theorem events_pure (result : α) : events server (pure result) scene = [] := rfl

theorem after_bind (session : Session α) (rest : α → Session β) :
    after server (session >>= rest) scene =
      match session.after server scene with
      | (.ok result, middle) => (rest result).after server middle
      | (.error stop, middle) => (.error stop, middle) := by
  have hrun := Dialogue.run_bind server session.caught (ExceptT.bindCont rest) scene.browser
    scene.now
  change after server (ExceptT.mk (session.caught.bind (ExceptT.bindCont rest))) scene = _
  unfold after caught at *
  rw [ExceptT.run_mk, hrun]
  rcases Dialogue.run server session.run scene.browser scene.now with ⟨_ | result, browser, now⟩
  · rfl
  · rfl

theorem events_bind (session : Session α) (rest : α → Session β) :
    events server (session >>= rest) scene = session.events server scene ++
      match session.after server scene with
      | (.ok result, middle) => (rest result).events server middle
      | (.error _, _) => [] := by
  have hevents := Dialogue.events_bind server session.caught (ExceptT.bindCont rest) scene.browser
    scene.now
  change events server (ExceptT.mk (session.caught.bind (ExceptT.bindCont rest))) scene = _
  unfold events after caught at *
  rw [ExceptT.run_mk, hevents]
  rcases Dialogue.run server session.run scene.browser scene.now with ⟨_ | result, browser, now⟩
  · rfl
  · rfl

theorem Yields.unique {session : Session α} {result other : α} {final : Scene σ}
    (h : session.Yields server scene result last) (hother : session.Yields server scene other final) :
    result = other ∧ last = final := by
  unfold Yields at h hother
  rw [h] at hother
  simpa using hother

@[simp] theorem yields_pure_iff {result other : α} :
    Yields server (pure result) scene other last ↔ other = result ∧ last = scene := by
  simp [Yields, eq_comm]

theorem yields_bind_iff {session : Session α} {rest : α → Session β} {result : β} :
    Yields server (session >>= rest) scene result last ↔
      ∃ first middle, session.Yields server scene first middle ∧
        (rest first).Yields server middle result last := by
  unfold Yields
  rw [after_bind]
  rcases session.after server scene with ⟨_ | first, middle⟩
  · simp
  · constructor
    · intro h
      exact ⟨first, middle, rfl, h⟩
    · rintro ⟨other, final, heq, h⟩
      cases heq
      exact h

theorem Yields.after_bind {session : Session α} {first : α} {middle : Scene σ}
    (h : session.Yields server scene first middle) (rest : α → Session β) :
    after server (session >>= rest) scene = (rest first).after server middle := by
  rw [Session.after_bind, h]

theorem Yields.events_bind {session : Session α} {first : α} {middle : Scene σ}
    (h : session.Yields server scene first middle) (rest : α → Session β) :
    events server (session >>= rest) scene =
      session.events server scene ++ (rest first).events server middle := by
  rw [Session.events_bind, h]

/-- A session that is broken off is not gone on with. -/
theorem events_bind_of_not_yields {session : Session α}
    (h : ¬∃ result last, session.Yields server scene result last) (rest : α → Session β) :
    events server (session >>= rest) scene = session.events server scene := by
  rw [Session.events_bind]
  rcases hafter : session.after server scene with ⟨_ | result, middle⟩
  · exact List.append_nil _
  · exact absurd ⟨result, middle, hafter⟩ h

theorem Yields.now_le {session : Session α} {result : α}
    (h : session.Yields server scene result last) : scene.now ≤ last.now := by
  have hle := Dialogue.le_run server session.caught scene.browser scene.now
  rw [Yields, after] at h
  simp only [Prod.mk.injEq] at h
  rw [← h.2]
  exact hle

/-! ### The parts of sessions -/

variable {call : Call}

@[simp] theorem after_call :
    after server (Session.call call) scene =
      ((server call scene.browser).reply, scene.asked server call) := rfl

@[simp] theorem yields_call_iff {answer : call.Answer} :
    Yields server (Session.call call) scene answer last ↔
      (server call scene.browser).reply = .ok answer ∧ last = scene.asked server call := by
  simp [Yields, eq_comm]

theorem after_tryCall :
    after server (tryCall call) scene =
      match (server call scene.browser).reply with
      | .ok answer => (.ok (.ok answer), scene.asked server call)
      | .error (.refused refusal) => (.ok (.error refusal), scene.asked server call)
      | .error (.crashed reason) => (.error (.crashed reason), scene.asked server call) := by
  unfold after caught tryCall Scene.asked
  simp only [ExceptT.run_mk, Dialogue.run]
  rcases (server call scene.browser).reply with (refusal | reason) | answer <;> rfl

theorem yields_tryCall_ok_iff {answer : call.Answer} :
    Yields server (tryCall call) scene (.ok answer) last ↔
      Yields server (Session.call call) scene answer last := by
  rw [yields_call_iff]
  unfold Yields
  rw [after_tryCall]
  rcases (server call scene.browser).reply with (refusal | reason) | answer <;> simp [eq_comm]

@[simp] theorem events_tryCall : events server (tryCall call) scene = [.called call] := by
  unfold events caught tryCall
  simp only [ExceptT.run_mk, Dialogue.events]
  rcases (server call scene.browser).reply with (refusal | reason) | answer <;> rfl

/-- Whether a call breaks off the program that makes it. -/
def Breaks (server : Server σ) (call : Call) (scene : Scene σ) : Prop :=
  ∃ reason, (server call scene.browser).reply = .error (.crashed reason)

@[simp] theorem yields_callAnyway_iff {result : Unit} :
    Yields server (callAnyway call) scene result last ↔
      ¬Breaks server call scene ∧ last = scene.asked server call := by
  unfold callAnyway Breaks
  rw [yields_bind_iff]
  unfold Yields
  rw [after_tryCall]
  rcases (server call scene.browser).reply with (refusal | reason) | answer <;>
    simp [eq_comm]

@[simp] theorem events_callAnyway : events server (callAnyway call) scene = [.called call] := by
  unfold callAnyway
  rw [events_bind, events_tryCall]
  split <;> rfl

@[simp] theorem yields_pause_iff {milliseconds : Nat} {result : Unit} :
    Yields server (pause milliseconds) scene result last ↔ last = scene.later milliseconds := by
  unfold Yields
  change (Except.ok (), scene.later milliseconds) = (Except.ok result, last) ↔ _
  simp [eq_comm]

@[simp] theorem yields_clock_iff {now : Nat} :
    Yields server clock scene now last ↔ now = scene.now ∧ last = scene := by
  unfold Yields
  change (Except.ok scene.now, scene) = (Except.ok now, last) ↔ _
  simp [eq_comm]

@[simp] theorem yields_clock_bind_iff {rest : Nat → Session α} {result : α} :
    Yields server (clock >>= rest) scene result last ↔
      (rest scene.now).Yields server scene result last := by
  rw [yields_bind_iff]
  constructor
  · rintro ⟨now, middle, hclock, h⟩
    obtain ⟨rfl, rfl⟩ := yields_clock_iff.1 hclock
    exact h
  · intro h
    exact ⟨scene.now, scene, yields_clock_iff.2 ⟨rfl, rfl⟩, h⟩

@[simp] theorem not_yields_crash {reason : String} {result : α} :
    ¬Yields server (crash reason) scene result last := by
  unfold Yields
  change (Except.error (Stop.crashed reason), scene) ≠ (Except.ok result, last)
  simp

/-! ### Sessions whose stop is a result -/

/-- A session that is caught comes to its end in any case. -/
theorem yields_lift_caught (server : Server σ) (session : Session α) (scene : Scene σ) :
    Yields server (ExceptT.lift session.caught) scene (session.after server scene).1
      (session.after server scene).2 := by
  have hrun := Dialogue.run_bind server session.caught
    (fun result => .done (Except.ok result : Except Stop _)) scene.browser scene.now
  change after server (ExceptT.mk (session.caught.bind fun result => .done (.ok result))) scene =
    (.ok (session.after server scene).1, (session.after server scene).2)
  unfold after caught at *
  rw [ExceptT.run_mk, hrun]
  rfl

@[simp] theorem events_lift_caught (session : Session α) :
    events server (ExceptT.lift session.caught) scene = session.events server scene := by
  have hevents := Dialogue.events_bind server session.caught
    (fun result => .done (Except.ok result : Except Stop _)) scene.browser scene.now
  change events server (ExceptT.mk (session.caught.bind fun result => .done (.ok result))) scene = _
  unfold events caught at *
  rw [ExceptT.run_mk, hevents]
  exact List.append_nil _

end Session

end KeepAlive.Browser
