import KeepAlive.Proofs.Browser.Scene

/-!
# Which calls a session can make

Whether a session makes only calls of some kind is a property of the session alone: it has to hold
whatever the answers are.  A session that makes only such calls cannot tell two servers apart that
handle them alike.
-/

namespace KeepAlive.Browser

namespace Dialogue

variable {α β σ : Type} {isAllowed : Call → Prop}

/-- Whether a dialogue makes only calls that are allowed, whatever the answers are. -/
def AsksOnly (isAllowed : Call → Prop) : Dialogue α → Prop
  | .done _ => True
  | .ask call next => isAllowed call ∧ ∀ reply, (next reply).AsksOnly isAllowed
  | .pause _ next => next.AsksOnly isAllowed
  | .clock next => ∀ now, (next now).AsksOnly isAllowed

theorem AsksOnly.bind {dialogue : Dialogue α} {rest : α → Dialogue β}
    (h : dialogue.AsksOnly isAllowed) (hrest : ∀ result, (rest result).AsksOnly isAllowed) :
    (dialogue.bind rest).AsksOnly isAllowed := by
  induction dialogue with
  | done result => exact hrest result
  | ask call next ih => exact ⟨h.1, fun reply => ih reply (h.2 reply)⟩
  | pause milliseconds next ih => exact ih h
  | clock next ih => exact fun now => ih now (h now)

theorem AsksOnly.of_mem_callsOf {dialogue : Dialogue α} (h : dialogue.AsksOnly isAllowed)
    {server : Server σ} {state : σ} {now : Nat} {call : Call}
    (hcall : call ∈ callsOf (dialogue.events server state now)) : isAllowed call := by
  induction dialogue generalizing state now with
  | done result => exact absurd hcall List.not_mem_nil
  | ask asked next ih =>
    rcases List.mem_cons.1 hcall with rfl | hcall
    · exact h.1
    · exact ih _ (h.2 _) hcall
  | pause milliseconds next ih => exact ih h hcall
  | clock next ih => exact ih _ (h _) hcall

theorem AsksOnly.run_eq {dialogue : Dialogue α} (h : dialogue.AsksOnly isAllowed)
    {server other : Server σ} (hsame : ∀ call, isAllowed call → other call = server call)
    (state : σ) (now : Nat) : dialogue.run other state now = dialogue.run server state now := by
  induction dialogue generalizing state now with
  | done result => rfl
  | ask call next ih =>
    unfold run
    rw [hsame call h.1]
    exact ih _ (h.2 _) _ _
  | pause milliseconds next ih => exact ih h _ _
  | clock next ih => exact ih _ (h _) _ _

end Dialogue

namespace Session

variable {α β σ : Type} {isAllowed : Call → Prop}

/-- Whether a session makes only calls that are allowed, whatever the answers are. -/
def AsksOnly (isAllowed : Call → Prop) (session : Session α) : Prop :=
  session.caught.AsksOnly isAllowed

theorem asksOnly_pure (result : α) : AsksOnly isAllowed (pure result) :=
  trivial

theorem AsksOnly.bind {session : Session α} {rest : α → Session β} (h : session.AsksOnly isAllowed)
    (hrest : ∀ result, (rest result).AsksOnly isAllowed) : AsksOnly isAllowed (session >>= rest) :=
  Dialogue.AsksOnly.bind h fun
    | .ok result => hrest result
    | .error _ => trivial

theorem asksOnly_call {call : Call} (h : isAllowed call) : AsksOnly isAllowed (Session.call call) :=
  ⟨h, fun _ => trivial⟩

theorem asksOnly_tryCall {call : Call} (h : isAllowed call) : AsksOnly isAllowed (tryCall call) := by
  refine ⟨h, ?_⟩
  rintro ((refusal | reason) | answer) <;> trivial

theorem asksOnly_callAnyway {call : Call} (h : isAllowed call) :
    AsksOnly isAllowed (callAnyway call) :=
  (asksOnly_tryCall h).bind fun _ => trivial

theorem asksOnly_pause (milliseconds : Nat) : AsksOnly isAllowed (pause milliseconds) :=
  trivial

theorem asksOnly_clock : AsksOnly isAllowed clock :=
  fun _ => trivial

theorem asksOnly_crash (reason : String) : AsksOnly isAllowed (crash reason : Session α) :=
  trivial

theorem AsksOnly.of_mem_callsOf {session : Session α} (h : session.AsksOnly isAllowed)
    {server : Server σ} {scene : Scene σ} {call : Call}
    (hcall : call ∈ callsOf (session.events server scene)) : isAllowed call :=
  Dialogue.AsksOnly.of_mem_callsOf h hcall

theorem AsksOnly.after_eq {session : Session α} (h : session.AsksOnly isAllowed)
    {server other : Server σ} (hsame : ∀ call, isAllowed call → other call = server call)
    (scene : Scene σ) : session.after other scene = session.after server scene := by
  unfold after
  rw [Dialogue.AsksOnly.run_eq h hsame]

end Session

end KeepAlive.Browser
