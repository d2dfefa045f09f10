import KeepAlive.Browser.Call

/-!
# Dialogues with a browser

A dialogue is a program that asks a browser, pauses and looks at the clock; what it does next may
depend on all answers so far.  It can be run against anything that handles calls, at once or from
one pause to the next.
-/

namespace KeepAlive.Browser

/-- A program in conversation with a browser.  Times are in milliseconds. -/
inductive Dialogue (α : Type)
  | done (result : α)
  | ask (call : Call) (next : Except Stop call.Answer → Dialogue α)
  | pause (milliseconds : Nat) (next : Dialogue α)
  | clock (next : Nat → Dialogue α)

namespace Dialogue

/-- Goes on with another dialogue. -/
def bind {α β : Type} : Dialogue α → (α → Dialogue β) → Dialogue β
  | .done result, rest => rest result
  | .ask call next, rest => .ask call fun reply => (next reply).bind rest
  | .pause milliseconds next, rest => .pause milliseconds (next.bind rest)
  | .clock next, rest => .clock fun now => (next now).bind rest

instance : Monad Dialogue where
  pure := .done
  bind := bind

end Dialogue

/-- What came of one call: the reply, the state after it and the time it took. -/
structure Handled (call : Call) (σ : Type) where
  reply : Except Stop call.Answer
  state : σ
  took : Nat := 0

/-- Something that handles calls. -/
abbrev Server (σ : Type) : Type :=
  (call : Call) → σ → Handled call σ

namespace Dialogue

/-- The whole dialogue, held from the time `now` on: its result, the last state and the time. -/
def run {α σ : Type} (server : Server σ) : Dialogue α → σ → Nat → α × σ × Nat
  | .done result, state, now => (result, state, now)
  | .ask call next, state, now =>
    let handled := server call state
    (next handled.reply).run server handled.state (now + handled.took)
  | .pause milliseconds next, state, now => next.run server state (now + milliseconds)
  | .clock next, state, now => (next now).run server state now

/-- How far a dialogue has come. -/
inductive Progress (α : Type)
  | finished (result : α)
  | paused (milliseconds : Nat) (rest : Dialogue α)

/-- The dialogue up to its next pause. -/
def toPause {α σ : Type} (server : Server σ) : Dialogue α → σ → Nat → Progress α × σ
  | .done result, state, _ => (.finished result, state)
  | .ask call next, state, now =>
    let handled := server call state
    (next handled.reply).toPause server handled.state (now + handled.took)
  | .pause milliseconds next, state, _ => (.paused milliseconds next, state)
  | .clock next, state, now => (next now).toPause server state now

end Dialogue

/-- A dialogue that ends early when a call is refused or crashes. -/
abbrev Session : Type → Type :=
  ExceptT Stop Dialogue

namespace Session

/-- Makes a call. -/
def call (call : Call) : Session call.Answer :=
  ExceptT.mk (.ask call .done)

/-- Makes a call whose refusal is a result. -/
def tryCall (call : Call) : Session (Except Refusal call.Answer) :=
  ExceptT.mk (.ask call fun
    | .ok answer => .done (.ok (.ok answer))
    | .error (.refused refusal) => .done (.ok (.error refusal))
    | .error (.crashed reason) => .done (.error (.crashed reason)))

/-- Makes a call whose refusal does not matter. -/
def callAnyway (call : Call) : Session Unit := do
  let _ ← tryCall call
  return ()

/-- Lets time pass. -/
def pause (milliseconds : Nat) : Session Unit :=
  ExceptT.mk (.pause milliseconds (.done (.ok ())))

/-- The time. -/
def clock : Session Nat :=
  ExceptT.mk (.clock fun now => .done (.ok now))

/-- Breaks off. -/
def crash {α : Type} (reason : String) : Session α :=
  ExceptT.mk (.done (.error (.crashed reason)))

/-- The session's result or what stopped it. -/
def caught {α : Type} (session : Session α) : Dialogue (Except Stop α) :=
  session.run

end Session

end KeepAlive.Browser
