import KeepAlive.Proofs.Api.Answers
import KeepAlive.Proofs.Engine.Sameness
import KeepAlive.Proofs.Login.Standard

/-!
# Credentials leave no trace

Who logs in makes a difference to nothing but what is typed into the fields of a form.  An attempt
comes to the same outcome at the same time, and so the history that an engine records over the days,
and every answer that the service gives meanwhile, are the same for all credentials.
-/

namespace KeepAlive

open Browser

/-! ## Attempts -/

namespace Login

/-- Whether logins on fixed pages take a course, whoever logs in: they come to the same outcome at the
same time, and everybody's journal is that of the course. -/
structure Course.IsTaken (course : Course) (timing : Timing) (request : Request) (scene : Scene Page)
    (outcome : Outcome) (time : Nat) : Prop where
  performed : course.performed <+: request.commands
  yields : ∀ credentials, ∃ final : Page,
    (login timing (request.withCredentials credentials)).Yields Page.handle scene outcome
        ⟨final, time⟩ ∧
      final.journal = (course.journal timing (request.withCredentials credentials)).reverse ++
        scene.browser.journal

theorem exists_isTaken (timing : Timing) (request : Request) (scene : Scene Page) :
    ∃ (course : Course) (outcome : Outcome) (time : Nat),
      course.IsTaken timing request scene outcome time := by
  obtain ⟨course, result, last, hprefix, hlead⟩ :=
    takesCourse_login timing request ⟨scene.browser.shown, scene.now⟩
  -- Nothing crashes on fixed pages, and so the result is an outcome.
  have hopened : (Session.call .connect).Yields Page.handle scene () (scene.asked Page.handle .connect) :=
    Session.yields_call_iff.2 ⟨rfl, rfl⟩
  have hreturns : (login timing (request.withCredentials request.credentials)).Returns Page.handle
      scene _ :=
    (login_returns_iff hopened).2 ⟨neverBreaks_page .disconnect _, rfl⟩
  obtain ⟨final, hafter, -⟩ := hlead request.credentials scene.browser rfl
  rw [Session.Returns, hafter] at hreturns
  obtain ⟨outcome, rfl⟩ : ∃ outcome, result = .ok outcome := ⟨_, hreturns⟩
  refine ⟨course, outcome, last.now, hprefix, fun credentials => ?_⟩
  obtain ⟨final, hafter, -, hjournal⟩ := hlead credentials scene.browser rfl
  exact ⟨final, hafter, hjournal⟩

end Login

/-! ## Days -/

/-- What happens around an engine: it does something, a request is answered, or time passes. -/
inductive Incident
  | chore (moment : Moment) (picture : String) (chore : Chore)
  | request (moment : Moment) (request : Api.Request)
  | wait (time : Nat)

/-- An engine at work, and the answers that have been given, latest first. -/
structure Day where
  engine : Engine
  around : Surroundings Page
  answers : List Api.Response := []

namespace Day

/-- The day after something has happened. -/
def after (timing : Login.Timing) (day : Day) : Incident → Day
  | .chore moment picture chore =>
    let (engine, around) :=
      day.engine.perform (.onPages timing moment picture) day.around chore
    { day with engine, around }
  | .request moment request =>
    let (answer, store) :=
      Api.respond moment day.engine.jobs.pending request day.around.store
    { day with around := { day.around with store }, answers := answer :: day.answers }
  | .wait time => { day with around := { day.around with time } }

/-- Whether two days are the same but for credentials. -/
structure SameButCredentials (day other : Day) : Prop where
  engine : day.engine.SameButCredentials other.engine
  around : day.around.withoutCredentials = other.around.withoutCredentials
  answers : day.answers = other.answers

namespace SameButCredentials

variable {day other : Day}

/-- Days that are the same but for credentials stay so, whatever happens next. -/
theorem after (h : day.SameButCredentials other) (timing : Login.Timing) (incident : Incident) :
    (day.after timing incident).SameButCredentials (other.after timing incident) := by
  obtain ⟨hengine, haround, hanswers⟩ := h
  cases incident with
  | chore moment picture chore =>
    obtain ⟨hnext, hafter⟩ := hengine.perform haround timing moment picture chore
    exact ⟨hnext, hafter, hanswers⟩
  | request moment request =>
    obtain ⟨hanswer, hstore⟩ := Api.respond_of_same moment day.engine.jobs.pending request
      (Surroundings.store_of_same haround)
    unfold Day.after
    rw [← hengine.jobs_eq]
    refine ⟨hengine, Surroundings.same_of_store haround hstore, ?_⟩
    change _ :: day.answers = _ :: other.answers
    rw [hanswer, hanswers]
  | wait time => exact ⟨hengine, Surroundings.same_of_time haround time, hanswers⟩

theorem afterAll (h : day.SameButCredentials other) (timing : Login.Timing)
    (incidents : List Incident) :
    (incidents.foldl (Day.after timing) day).SameButCredentials
      (incidents.foldl (Day.after timing) other) := by
  induction incidents generalizing day other with
  | nil => exact h
  | cons incident rest ih => exact ih (h.after timing incident)

end SameButCredentials

end Day

/-- On fixed pages a login takes the same course whoever logs in, to the same outcome at the same time;
any two journals are the same, entry by entry, but for what the commands for the two fields type.  Two
stores that differ only in credentials answer every request alike, and while an engine works on them,
the same history is recorded in both. -/
theorem credentials_leave_no_trace (timing : Login.Timing) {store other : Store}
    (h : store.withoutCredentials = other.withoutCredentials) :
    (∀ request scene, ∃ (course : Login.Course) (outcome : Login.Outcome) (time : Nat),
      course.IsTaken timing request scene outcome time ∧
        ∀ credentials another, List.Forall₂ (Script.Matches credentials another)
          (course.journal timing (request.withCredentials credentials))
          (course.journal timing (request.withCredentials another))) ∧
      (∀ moment pending request,
        (Api.respond moment pending request store).1 =
          (Api.respond moment pending request other).1) ∧
      ∀ (engine : Engine) (page : Page) (time : Nat) (incidents : List Incident),
        let day := incidents.foldl (Day.after timing) ⟨engine, { store, browser := page, time }, []⟩
        let twin := incidents.foldl (Day.after timing)
          ⟨engine, { store := other, browser := page, time }, []⟩
        day.answers = twin.answers ∧
          day.around.store.ledger.history = twin.around.store.ledger.history := by
  refine ⟨fun request scene => ?_,
    fun moment pending request => (Api.respond_of_same moment pending request h).1,
    fun engine page time incidents => ?_⟩
  · obtain ⟨course, outcome, time, htaken⟩ := Login.exists_isTaken timing request scene
    exact ⟨course, outcome, time, htaken, course.forall₂_journal timing request⟩
  · have haround : Surroundings.withoutCredentials { store, browser := page, time } =
        Surroundings.withoutCredentials { store := other, browser := page, time } := by
      unfold Surroundings.withoutCredentials
      rw [h]
    have hstart : Day.SameButCredentials ⟨engine, { store, browser := page, time }, []⟩
        ⟨engine, { store := other, browser := page, time }, []⟩ :=
      ⟨.refl engine, haround, rfl⟩
    have hdays := hstart.afterAll timing incidents
    have hhistory := congrArg (·.ledger.history) (Surroundings.store_of_same hdays.around)
    exact ⟨hdays.answers, hhistory⟩

/-- A store with one site, for somebody's credentials. -/
def storeOf (username password : String) : Store :=
  { feed := { capacity := 16 }
    ledger := {
      sites := [{
        id := 1, name := "mail", url := "https://a.example/login"
        successUrl := "https://a.example/home", username, password
        takeScreenshot := .ofBool false, paused := .ofBool false, script := none
        dateStart := .integer 60, dateEnd := none, timeStart := none, timeEnd := none
        next := none, addedAt := "2024-05-01T12:00:00.000Z" }] } }

/-- Two users of one site leave the same traces. -/
theorem alice_and_bob_leave_no_trace :
    let timing : Login.Timing := ⟨30000, 1000, 30000, 500, 500, 60000⟩
    let alice := storeOf "alice" "secret"
    let bob := storeOf "bob" "hunter2"
    alice.withoutCredentials = bob.withoutCredentials ∧ alice.ledger ≠ bob.ledger ∧
      (∀ moment pending request, (Api.respond moment pending request alice).1 =
        (Api.respond moment pending request bob).1) ∧
      ∀ (engine : Engine) (page : Page) (time : Nat) (incidents : List Incident),
        let day := incidents.foldl (Day.after timing)
          ⟨engine, { store := alice, browser := page, time }, []⟩
        let twin := incidents.foldl (Day.after timing)
          ⟨engine, { store := bob, browser := page, time }, []⟩
        day.answers = twin.answers ∧
          day.around.store.ledger.history = twin.around.store.ledger.history := by
  intro timing alice bob
  have hsame : alice.withoutCredentials = bob.withoutCredentials := rfl
  exact ⟨hsame, by decide, (credentials_leave_no_trace timing hsame).2⟩

end KeepAlive
