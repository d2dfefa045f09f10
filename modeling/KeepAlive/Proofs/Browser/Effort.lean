import KeepAlive.Proofs.Browser.Scene

/-!
# What a session costs

What happens in a session is counted: how often the markup of the page is asked for, how often the
url is looked at, and how much time the pauses take.  With a server that answers at once, this is
all the time that passes.
-/

namespace KeepAlive.Browser

/-- What is spent on a session. -/
structure Effort where
  /-- How often the markup of the page is asked for, which every search begins with. -/
  searches : Nat
  /-- How often the url is looked at. -/
  looks : Nat
  /-- The time of all pauses, in milliseconds. -/
  time : Nat
  deriving DecidableEq, Repr

namespace Effort

variable {a b c d : Effort}

instance : Zero Effort :=
  ⟨⟨0, 0, 0⟩⟩

instance : Add Effort :=
  ⟨fun a b => ⟨a.searches + b.searches, a.looks + b.looks, a.time + b.time⟩⟩

/-- One effort is at most another if it is so in every respect. -/
instance : LE Effort :=
  ⟨fun a b => a.searches ≤ b.searches ∧ a.looks ≤ b.looks ∧ a.time ≤ b.time⟩

@[simp] theorem searches_add (a b : Effort) : (a + b).searches = a.searches + b.searches := rfl

@[simp] theorem time_add (a b : Effort) : (a + b).time = a.time + b.time := rfl

theorem mk_add_mk {searches looks time searches' looks' time' : Nat} :
    mk searches looks time + mk searches' looks' time' =
      mk (searches + searches') (looks + looks') (time + time') := rfl

theorem le_refl (a : Effort) : a ≤ a :=
  ⟨Nat.le_refl _, Nat.le_refl _, Nat.le_refl _⟩

theorem le_of_eq (h : a = b) : a ≤ b :=
  h ▸ le_refl a

theorem le_zero_iff : a ≤ 0 ↔ a = 0 := by
  constructor
  · rintro ⟨hsearches, hlooks, htime⟩
    obtain ⟨searches, looks, time⟩ := a
    obtain rfl := Nat.le_zero.1 hsearches
    obtain rfl := Nat.le_zero.1 hlooks
    obtain rfl := Nat.le_zero.1 htime
    rfl
  · exact le_of_eq

theorem zero_le (a : Effort) : 0 ≤ a :=
  ⟨Nat.zero_le _, Nat.zero_le _, Nat.zero_le _⟩

theorem add_le_add (h : a ≤ b) (hmore : c ≤ d) : a + c ≤ b + d :=
  ⟨Nat.add_le_add h.1 hmore.1, Nat.add_le_add h.2.1 hmore.2.1, Nat.add_le_add h.2.2 hmore.2.2⟩

@[simp] theorem add_zero (a : Effort) : a + 0 = a := rfl

@[simp] theorem zero_add (a : Effort) : 0 + a = a := by
  obtain ⟨searches, looks, time⟩ := a
  exact congr (congr (congrArg mk (Nat.zero_add _)) (Nat.zero_add _)) (Nat.zero_add _)

end Effort

/-- The time that passes in what happens, if nothing but pauses takes any. -/
def Happening.time : Happening → Nat
  | .called _ => 0
  | .paused milliseconds => milliseconds

/-- The time that passes in all that happens. -/
def timeOf : List Happening → Nat
  | [] => 0
  | happening :: rest => happening.time + timeOf rest

/-- What is spent on what happens. -/
def effortOf (events : List Happening) : Effort :=
  { searches := (callsOf events).count .pageMarkup
    looks := (callsOf events).count .currentUrl
    time := timeOf events }

theorem timeOf_append (events more : List Happening) :
    timeOf (events ++ more) = timeOf events + timeOf more := by
  induction events with
  | nil => exact (Nat.zero_add _).symm
  | cons happening rest ih =>
    rw [List.cons_append, timeOf, ih, timeOf, Nat.add_assoc]

@[simp] theorem effortOf_nil : effortOf [] = 0 := rfl

@[simp] theorem effortOf_append (events more : List Happening) :
    effortOf (events ++ more) = effortOf events + effortOf more := by
  unfold effortOf
  rw [callsOf_append, List.count_append, List.count_append, timeOf_append, Effort.mk_add_mk]

/-- Whether a call is not counted: it is neither a search nor a look at the url. -/
def Call.IsFree : Call → Prop
  | .pageMarkup | .currentUrl => False
  | _ => True

theorem effortOf_called {call : Call} (h : call.IsFree) (events : List Happening) :
    effortOf (.called call :: events) = effortOf events := by
  have hsearch : call ≠ .pageMarkup := by
    rintro rfl
    exact h
  have hlook : call ≠ .currentUrl := by
    rintro rfl
    exact h
  simp [effortOf, hsearch, hlook, timeOf, Happening.time]

theorem effortOf_paused (milliseconds : Nat) (events : List Happening) :
    effortOf (.paused milliseconds :: events) = ⟨0, 0, milliseconds⟩ + effortOf events := by
  rw [← List.singleton_append, effortOf_append]
  rfl

/-- Whether a server takes no time for any call. -/
def AnswersAtOnce {σ : Type} (server : Server σ) : Prop :=
  ∀ call state, (server call state).took = 0

variable {α β σ : Type} {server : Server σ}

theorem Dialogue.now_run_eq (h : AnswersAtOnce server) (dialogue : Dialogue α) (state : σ)
    (now : Nat) : (dialogue.run server state now).2.2 =
      now + (effortOf (dialogue.events server state now)).time := by
  induction dialogue generalizing state now with
  | done result => rfl
  | ask call next ih =>
    rw [run, events, ih, h call state]
    simp [effortOf, timeOf, Happening.time]
  | pause milliseconds next ih =>
    rw [run, events, ih, effortOf_paused, Effort.time_add, Nat.add_assoc]
  | clock next ih => exact ih _ _ _

namespace Session

variable {session : Session α} {scene last : Scene σ} {result : α} {call : Call}

/-- With a server that answers at once, the time that passes is that of the pauses. -/
theorem now_after_eq (h : AnswersAtOnce server) (session : Session α) (scene : Scene σ) :
    (session.after server scene).2.now =
      scene.now + (effortOf (session.events server scene)).time :=
  Dialogue.now_run_eq h session.caught scene.browser scene.now

theorem Yields.now_eq (hyields : session.Yields server scene result last) (h : AnswersAtOnce server) :
    last.now = scene.now + (effortOf (session.events server scene)).time := by
  rw [← now_after_eq h, hyields]

theorem effort_call (h : call.IsFree) :
    effortOf ((Session.call call).events server scene) = 0 :=
  effortOf_called h []

theorem effort_tryCall (h : call.IsFree) : effortOf ((tryCall call).events server scene) = 0 := by
  rw [events_tryCall, effortOf_called h, effortOf_nil]

theorem effort_callAnyway (h : call.IsFree) :
    effortOf ((callAnyway call).events server scene) = 0 := by
  rw [events_callAnyway, effortOf_called h, effortOf_nil]

/-- What is spent on a session and its continuation is at most what is spent on the two. -/
theorem effort_bind_le {rest : α → Session β} {first more : Effort}
    (hfirst : effortOf (session.events server scene) ≤ first)
    (hmore : ∀ result last, session.Yields server scene result last →
      effortOf ((rest result).events server last) ≤ more) :
    effortOf ((session >>= rest).events server scene) ≤ first + more := by
  rw [events_bind, effortOf_append]
  apply Effort.add_le_add hfirst
  rcases hafter : session.after server scene with ⟨stop | result, last⟩
  · exact Effort.zero_le more
  · exact hmore result last hafter

theorem Yields.effort_bind (h : session.Yields server scene result last) (rest : α → Session β) :
    effortOf ((session >>= rest).events server scene) =
      effortOf (session.events server scene) + effortOf ((rest result).events server last) := by
  rw [h.events_bind, effortOf_append]

/-- What comes for nothing can be left out of account. -/
theorem effort_bind_eq_left {rest : α → Session β}
    (hrest : ∀ result last, effortOf ((rest result).events server last) = 0) :
    effortOf ((session >>= rest).events server scene) = effortOf (session.events server scene) := by
  rw [events_bind, effortOf_append]
  rcases session.after server scene with ⟨stop | result, last⟩
  · exact Effort.add_zero _
  · dsimp only
    rw [hrest, Effort.add_zero]

theorem effort_bind_le_of_free {rest : α → Session β} {more : Effort}
    (hfree : effortOf (session.events server scene) = 0)
    (hmore : ∀ result last, session.Yields server scene result last →
      effortOf ((rest result).events server last) ≤ more) :
    effortOf ((session >>= rest).events server scene) ≤ more := by
  have hle := effort_bind_le (Effort.le_of_eq hfree) hmore
  rwa [Effort.zero_add] at hle

end Session

end KeepAlive.Browser
