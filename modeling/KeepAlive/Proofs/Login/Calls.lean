import KeepAlive.Proofs.Browser.Asking
import KeepAlive.Proofs.Login.Verdict

/-!
# What an attempt asks a browser

On its way to a verdict an attempt neither opens nor closes a session, and it keeps no picture.  This
holds for each of its parts, whatever the browser answers.
-/

namespace KeepAlive

open Browser

/-- Whether a call is made within a session: it neither opens nor closes one, and keeps no picture. -/
def Browser.Call.IsInner : Call → Prop
  | .connect | .saveScreenshot _ | .disconnect => False
  | _ => True

/-- Whether a call is one of those with which a login ends. -/
def Browser.Call.IsParting : Call → Prop
  | .saveScreenshot _ | .disconnect => True
  | _ => False

namespace Form

theorem asksOnly_firstVisible (candidates : List Candidate) :
    (firstVisible candidates).AsksOnly Call.IsInner := by
  induction candidates with
  | nil => exact Session.asksOnly_pure none
  | cons candidate rest ih =>
    refine (Session.asksOnly_call trivial).bind ?_
    rintro (_ | _)
    · exact ih
    · exact Session.asksOnly_pure _

theorem asksOnly_findIn (document : Markup.Document) (fields : List Field) (found : Locators) :
    (findIn document fields found).AsksOnly Call.IsInner := by
  induction fields generalizing found with
  | nil => exact Session.asksOnly_pure found
  | cons field rest ih => exact (asksOnly_firstVisible _).bind fun locator => ih _

theorem asksOnly_find : find.AsksOnly Call.IsInner :=
  (Session.asksOnly_call trivial).bind fun _ => asksOnly_findIn _ _ _

end Form

namespace Script

variable (setting : Setting)

theorem asksOnly_onElement {call : Call} (h : call.IsInner) (locator : String)
    (missing : LoginStatus) : (onElement setting call locator missing).AsksOnly Call.IsInner := by
  refine (Session.asksOnly_tryCall h).bind ?_
  rintro (refusal | answer)
  · dsimp only
    split
    · exact Session.asksOnly_pure _
    · exact Session.asksOnly_pure _
  · exact (Session.asksOnly_pause _).bind fun _ => Session.asksOnly_pure _

theorem asksOnly_plainCall {call : Call} (h : call.IsInner) :
    (plainCall call).AsksOnly Call.IsInner := by
  refine (Session.asksOnly_tryCall h).bind ?_
  rintro (refusal | answer)
  · exact Session.asksOnly_pure _
  · exact Session.asksOnly_pure _

theorem asksOnly_perform (command : Command) : (perform setting command).AsksOnly Call.IsInner := by
  cases command with
  | onField field explicit =>
    have hcall (locator : String) : (fieldCall setting.credentials locator field).IsInner := by
      cases field <;> trivial
    simp only [perform]
    split
    · exact Session.asksOnly_pure _
    · exact asksOnly_onElement setting (hcall _) _ _
  | fillText locator value =>
    have hcall : (Call.fillText locator value).IsInner := trivial
    exact asksOnly_onElement setting hcall _ _
  | clickButton locator =>
    have hcall : (Call.clickButton locator).IsInner := trivial
    exact asksOnly_onElement setting hcall _ _
  | openUrl url => exact asksOnly_plainCall trivial
  | wait milliseconds => exact asksOnly_plainCall trivial

theorem asksOnly_run (commands : List Command) : (run setting commands).AsksOnly Call.IsInner := by
  induction commands with
  | nil => exact Session.asksOnly_pure _
  | cons command rest ih =>
    refine (asksOnly_perform setting command).bind ?_
    rintro (stopped | ⟨⟩)
    · exact Session.asksOnly_pure _
    · exact ih

end Script

namespace Login

theorem asksOnly_deadline (timeout : Nat) : (deadline timeout).AsksOnly Call.IsInner := by
  refine Session.asksOnly_clock.bind fun now => ?_
  split
  · exact Session.asksOnly_pure _
  · exact Session.asksOnly_crash _

theorem asksOnly_idle (interval : Nat) : (idle interval).AsksOnly Call.IsInner :=
  (Session.asksOnly_clock.bind fun _ => Session.asksOnly_pause _).bind fun _ =>
    Session.asksOnly_callAnyway trivial

section Poll

variable {α : Type} {isAllowed : Call → Prop} {probe : Session α} {between : Session Unit}

theorem asksOnly_pollOr (hprobe : probe.AsksOnly isAllowed) (isGood : α → Bool) (limit : Nat)
    {again : Option (Session (Except α α))}
    (hagain : ∀ later ∈ again, later.AsksOnly isAllowed) :
    (pollOr probe isGood limit again).AsksOnly isAllowed := by
  refine hprobe.bind fun answer => ?_
  split
  · exact Session.asksOnly_pure _
  · refine Session.asksOnly_clock.bind fun now => ?_
    cases again with
    | none => exact Session.asksOnly_pure _
    | some later =>
      dsimp only
      split
      · exact Session.asksOnly_pure _
      · exact hagain later rfl

theorem asksOnly_poll (hprobe : probe.AsksOnly isAllowed) (hbetween : between.AsksOnly isAllowed)
    (isGood : α → Bool) (limit pauses : Nat) :
    (poll probe between isGood limit pauses).AsksOnly isAllowed := by
  induction pauses with
  | zero => exact asksOnly_pollOr hprobe isGood limit (by simp)
  | succ pauses ih =>
    refine asksOnly_pollOr hprobe isGood limit ?_
    rintro later ⟨rfl⟩
    exact hbetween.bind fun _ => ih

end Poll

variable (timing : Timing) (request : Request)

theorem asksOnly_prepare : (prepare timing request).AsksOnly Call.IsInner := by
  unfold prepare
  split
  · refine (asksOnly_deadline _).bind fun limit =>
      (asksOnly_poll Form.asksOnly_find (asksOnly_idle _) _ _ _).bind ?_
    rintro (found | found)
    · exact Session.asksOnly_pure _
    · exact Session.asksOnly_pure _
  · split
    · exact Session.asksOnly_pure _
    · split
      · exact Form.asksOnly_find.bind fun found => Session.asksOnly_pure _
      · exact Session.asksOnly_pure _

theorem asksOnly_fill : (fill timing request).AsksOnly Call.IsInner := by
  refine (asksOnly_prepare timing request).bind ?_
  rintro (verdict | prepared)
  · exact Session.asksOnly_pure _
  · refine (Script.asksOnly_run _ _).bind ?_
    rintro (stop | ⟨⟩)
    · exact Session.asksOnly_pure _
    · exact Session.asksOnly_pure _

theorem asksOnly_look : (look timing request).AsksOnly Call.IsInner := by
  refine (Session.asksOnly_call trivial).bind fun _ => (asksOnly_deadline _).bind fun limit =>
    (asksOnly_poll (Session.asksOnly_call trivial) (asksOnly_idle _) _ _ _).bind ?_
  rintro (current | current)
  · exact Session.asksOnly_pure _
  · exact Session.asksOnly_pure _

/-- Up to its verdict an attempt stays within its session. -/
theorem asksOnly_judged : (judged timing request).AsksOnly Call.IsInner := by
  refine (Session.asksOnly_call trivial).bind fun _ =>
    (Session.asksOnly_callAnyway trivial).bind fun _ => (asksOnly_fill timing request).bind ?_
  rintro (verdict | ⟨⟩)
  · exact Session.asksOnly_pure _
  · exact asksOnly_look timing request

end Login

end KeepAlive
