import KeepAlive.Browser.Page
import KeepAlive.Proofs.Browser.Scene

/-!
# What is typed into a window

A window keeps what is typed into it and writes it down, but what it answers and what it shows next
depend on neither.  So sessions that differ only in what they type come to the same result at the
same time, and leave windows that show the same.
-/

namespace KeepAlive.Browser

namespace Page

/-- What a window shows: all of it but what has been typed and written down. -/
def shown (page : Page) : Page :=
  { page with journal := [], values := [] }

/-- What is written down of a call: nothing, if it only looks at the page. -/
def entries : Call → List Call
  | .connect | .currentUrl | .pageMarkup | .isVisible _ | .hasElement _ => []
  | call => [call]

/-- What comes of a call depends only on what the window shows. -/
theorem handle_of_shown (call : Call) (page : Page) :
    (handle call page).reply = (handle call page.shown).reply ∧
      (handle call page).took = (handle call page.shown).took ∧
      (handle call page).state.shown = (handle call page.shown).state.shown ∧
      (handle call page).state.journal = entries call ++ page.journal := by
  cases call with
  | fillText locator value =>
    have husable : page.shown.usable locator = page.usable locator := rfl
    simp only [handle, husable]
    cases page.usable locator <;> exact ⟨rfl, rfl, rfl, rfl⟩
  | clickButton locator =>
    have husable : page.shown.usable locator = page.usable locator := rfl
    have htargets : page.shown.fixture = page.fixture := rfl
    simp only [handle, husable, htargets]
    cases page.usable locator with
    | error stop => exact ⟨rfl, rfl, rfl, rfl⟩
    | ok answer => cases page.fixture.clickTargets.lookup locator <;> exact ⟨rfl, rfl, rfl, rfl⟩
  | connect => exact ⟨rfl, rfl, rfl, rfl⟩
  | openUrl url => exact ⟨rfl, rfl, rfl, rfl⟩
  | wait milliseconds => exact ⟨rfl, rfl, rfl, rfl⟩
  | currentUrl => exact ⟨rfl, rfl, rfl, rfl⟩
  | pageMarkup => exact ⟨rfl, rfl, rfl, rfl⟩
  | isVisible locator => exact ⟨rfl, rfl, rfl, rfl⟩
  | hasElement locator => exact ⟨rfl, rfl, rfl, rfl⟩
  | saveScreenshot id => exact ⟨rfl, rfl, rfl, rfl⟩
  | solveCaptcha => exact ⟨rfl, rfl, rfl, rfl⟩
  | disconnect => exact ⟨rfl, rfl, rfl, rfl⟩

/-- What comes of filling in a field does not depend on what is typed. -/
theorem handle_fillText_of_shown (locator value : String) (page : Page) :
    (handle (.fillText locator value) page).reply = page.shown.usable locator ∧
      (handle (.fillText locator value) page).took = 0 ∧
      (handle (.fillText locator value) page).state.shown = page.shown ∧
      (handle (.fillText locator value) page).state.journal =
        .fillText locator value :: page.journal := by
  have husable : page.shown.usable locator = page.usable locator := rfl
  simp only [handle, husable]
  cases page.usable locator <;> exact ⟨rfl, rfl, rfl, rfl⟩

end Page

namespace Dialogue

variable {α β : Type}

/-- Whether two dialogues are the same but for what they type. -/
inductive SameButTyped : Dialogue α → Dialogue α → Prop
  | done (result : α) : SameButTyped (.done result) (.done result)
  | ask (call : Call) {next other : Except Stop call.Answer → Dialogue α}
      (h : ∀ reply, SameButTyped (next reply) (other reply)) :
      SameButTyped (.ask call next) (.ask call other)
  | fill (locator value typed : String) {next other : Except Stop Unit → Dialogue α}
      (h : ∀ reply, SameButTyped (next reply) (other reply)) :
      SameButTyped (.ask (.fillText locator value) next) (.ask (.fillText locator typed) other)
  | pause (milliseconds : Nat) {next other : Dialogue α} (h : SameButTyped next other) :
      SameButTyped (.pause milliseconds next) (.pause milliseconds other)
  | clock {next other : Nat → Dialogue α} (h : ∀ now, SameButTyped (next now) (other now)) :
      SameButTyped (.clock next) (.clock other)

namespace SameButTyped

theorem refl (dialogue : Dialogue α) : SameButTyped dialogue dialogue := by
  induction dialogue with
  | done result => exact .done result
  | ask call next ih => exact .ask call ih
  | pause milliseconds next ih => exact .pause milliseconds ih
  | clock next ih => exact .clock ih

theorem bind {dialogue other : Dialogue α} (h : SameButTyped dialogue other)
    {rest more : α → Dialogue β} (hrest : ∀ result, SameButTyped (rest result) (more result)) :
    SameButTyped (dialogue.bind rest) (other.bind more) := by
  induction h with
  | done result => exact hrest result
  | ask call _ ih => exact .ask call ih
  | fill locator value typed _ ih => exact .fill locator value typed ih
  | pause milliseconds _ ih => exact .pause milliseconds ih
  | clock _ ih => exact .clock ih

end SameButTyped

/-- Whether two dialogues have come equally far. -/
inductive Progress.SameButTyped : Progress α → Progress α → Prop
  | finished (result : α) : SameButTyped (.finished result) (.finished result)
  | paused (milliseconds : Nat) {rest other : Dialogue α} (h : rest.SameButTyped other) :
      SameButTyped (.paused milliseconds rest) (.paused milliseconds other)

/-- Up to their next pause, dialogues that differ only in what they type come equally far. -/
theorem SameButTyped.toPause {dialogue other : Dialogue α} (h : SameButTyped dialogue other)
    {page window : Page} (hshown : page.shown = window.shown) (now : Nat) :
    (dialogue.toPause Page.handle page now).1.SameButTyped
        (other.toPause Page.handle window now).1 ∧
      (dialogue.toPause Page.handle page now).2.shown =
        (other.toPause Page.handle window now).2.shown := by
  induction h generalizing page window now with
  | done result => exact ⟨.finished result, hshown⟩
  | @ask call next other _ ih =>
    obtain ⟨hreply, htook, hstate, -⟩ := Page.handle_of_shown call page
    obtain ⟨hother, hlong, hleft, -⟩ := Page.handle_of_shown call window
    rw [hshown] at hreply htook hstate
    rw [Dialogue.toPause, Dialogue.toPause, hreply, hother, htook, hlong]
    exact ih _ (hstate.trans hleft.symm) _
  | fill locator value typed _ ih =>
    obtain ⟨hreply, htook, hstate, -⟩ := Page.handle_fillText_of_shown locator value page
    obtain ⟨hother, hlong, hleft, -⟩ := Page.handle_fillText_of_shown locator typed window
    rw [Dialogue.toPause, Dialogue.toPause, hreply, hother, htook, hlong, hshown]
    exact ih _ (by rw [hstate, hleft, hshown]) _
  | pause milliseconds h _ => exact ⟨.paused milliseconds h, hshown⟩
  | clock _ ih => exact ih now hshown now

/-- What a dialogue comes to in a window depends only on what the window shows, and so does what is
written down. -/
theorem exists_run_of_shown (dialogue : Dialogue α) (shown : Page) (now : Nat) :
    ∃ (result : α) (calls : List Call) (last : Page) (time : Nat),
      ∀ page : Page, page.shown = shown →
        ∃ final : Page, dialogue.run Page.handle page now = (result, final, time) ∧
          final.shown = last ∧ final.journal = calls.reverse ++ page.journal := by
  induction dialogue generalizing shown now with
  | done result => exact ⟨result, [], shown, now, fun page h => ⟨page, rfl, h, rfl⟩⟩
  | ask call next ih =>
    obtain ⟨result, calls, last, time, hrest⟩ :=
      ih (Page.handle call shown).reply (Page.handle call shown).state.shown
        (now + (Page.handle call shown).took)
    refine ⟨result, Page.entries call ++ calls, last, time, fun page hpage => ?_⟩
    obtain ⟨hreply, htook, hstate, hjournal⟩ := Page.handle_of_shown call page
    rw [hpage] at hreply htook hstate
    obtain ⟨final, hrun, hlast, hcalls⟩ := hrest _ hstate
    refine ⟨final, ?_, hlast, ?_⟩
    · rw [run, hreply, htook, hrun]
    · have hone : (Page.entries call).reverse = Page.entries call := by
        cases call <;> rfl
      rw [hcalls, hjournal, List.reverse_append, List.append_assoc, hone]
  | pause milliseconds next ih => exact ih shown (now + milliseconds)
  | clock next ih => exact ih now shown now

end Dialogue

namespace Session

variable {ι α β σ : Type} {scene middle last : Scene Page}

/-! ### One session and another -/

/-- Whether two sessions are the same but for what they type. -/
def SameButTyped (session other : Session α) : Prop :=
  session.caught.SameButTyped other.caught

namespace SameButTyped

variable {session other : Session α}

theorem refl (session : Session α) : SameButTyped session session :=
  Dialogue.SameButTyped.refl session.caught

theorem bind (h : session.SameButTyped other) {rest more : α → Session β}
    (hrest : ∀ result, (rest result).SameButTyped (more result)) :
    SameButTyped (session >>= rest) (other >>= more) :=
  Dialogue.SameButTyped.bind h fun
    | .ok result => hrest result
    | .error _ => Dialogue.SameButTyped.refl _

theorem bind_right (h : session.SameButTyped other) (rest : α → Session β) :
    SameButTyped (session >>= rest) (other >>= rest) :=
  h.bind fun result => refl (rest result)

theorem bind_left (session : Session α) {rest more : α → Session β}
    (hrest : ∀ result, (rest result).SameButTyped (more result)) :
    SameButTyped (session >>= rest) (session >>= more) :=
  (refl session).bind hrest

theorem lift_caught (h : session.SameButTyped other) :
    SameButTyped (ExceptT.lift session.caught) (ExceptT.lift other.caught) :=
  Dialogue.SameButTyped.bind h fun _ => Dialogue.SameButTyped.refl _

end SameButTyped

/-- Makes a call of which only matters whether it is refused. -/
def tell (call : Call) : Session (Except Refusal Unit) :=
  Except.map (fun _ => ()) <$> tryCall call

theorem after_tell (server : Server σ) (call : Call) (scene : Scene σ) :
    (tell call).after server scene =
      match (server call scene.browser).reply.map fun _ => () with
      | .ok () => (.ok (.ok ()), scene.asked server call)
      | .error (.refused refusal) => (.ok (.error refusal), scene.asked server call)
      | .error (.crashed reason) => (.error (.crashed reason), scene.asked server call) := by
  unfold tell
  rw [← bind_pure_comp, after_bind, after_tryCall]
  rcases (server call scene.browser).reply with (refusal | reason) | answer <;> rfl

theorem sameButTyped_tell (locator value typed : String) :
    SameButTyped (tell (.fillText locator value)) (tell (.fillText locator typed)) := by
  refine .fill locator value typed ?_
  rintro ((refusal | reason) | answer) <;> exact Dialogue.SameButTyped.refl _

/-! ### Families of sessions -/

/-- Whether each session of a family comes to the same from a scene on, whatever has been typed and
written down before: to a result, in a window that shows the same, at the same time.  What they write
down on the way may differ. -/
def Lead (session : ι → Session α) (scene : Scene Page) (result : Except Stop α)
    (calls : ι → List Call) (last : Scene Page) : Prop :=
  ∀ i (page : Page), page.shown = scene.browser → ∃ final : Page,
    (session i).after Page.handle ⟨page, scene.now⟩ = (result, ⟨final, last.now⟩) ∧
      final.shown = last.browser ∧ final.journal = (calls i).reverse ++ page.journal

/-- Whether what comes of each call of a family depends only on what the window shows.  All of these
calls are written down. -/
def IsSteady (call : ι → Call) (shown : Page) : Prop :=
  ∃ (reply : Except Stop Unit) (took : Nat) (left : Page), ∀ i (page : Page), page.shown = shown →
    (Page.handle (call i) page).reply.map (fun _ => ()) = reply ∧
      (Page.handle (call i) page).took = took ∧ (Page.handle (call i) page).state.shown = left ∧
      (Page.handle (call i) page).state.journal = call i :: page.journal

theorem isSteady_const {call : Call} (h : Page.entries call = [call]) (shown : Page) :
    IsSteady (fun _ : ι => call) shown := by
  refine ⟨(Page.handle call shown).reply.map fun _ => (), (Page.handle call shown).took,
    (Page.handle call shown).state.shown, fun _ page hpage => ?_⟩
  obtain ⟨hreply, htook, hstate, hjournal⟩ := Page.handle_of_shown call page
  rw [hpage] at hreply htook hstate
  rw [h] at hjournal
  exact ⟨congrArg _ hreply, htook, hstate, hjournal⟩

theorem isSteady_fillText (locator : String) (value : ι → String) (shown : Page) :
    IsSteady (fun i => .fillText locator (value i)) shown := by
  refine ⟨shown.usable locator, 0, shown, fun i page hpage => ?_⟩
  obtain ⟨hreply, htook, hstate, hjournal⟩ := Page.handle_fillText_of_shown locator (value i) page
  rw [hpage] at hreply hstate
  refine ⟨?_, htook, hstate, hjournal⟩
  rw [hreply]
  cases shown.usable locator <;> rfl

variable {call : ι → Call} {session : ι → Session α} {calls more : ι → List Call}

theorem lead_pure (result : α) (scene : Scene Page) :
    Lead (fun _ : ι => pure result) scene (.ok result) (fun _ => []) scene :=
  fun _ page h => ⟨page, rfl, h, rfl⟩

theorem Lead.bind {rest : ι → α → Session β} {first : α} {result : Except Stop β}
    (h : Lead session scene (.ok first) calls middle)
    (hrest : Lead (fun i => rest i first) middle result more last) :
    Lead (fun i => session i >>= rest i) scene result (fun i => calls i ++ more i) last := by
  intro i page hpage
  obtain ⟨window, hafter, hwindow, hjournal⟩ := h i page hpage
  obtain ⟨final, hend, hfinal, hmore⟩ := hrest i window hwindow
  refine ⟨final, ?_, hfinal, ?_⟩
  · rw [after_bind, hafter]
    exact hend
  · rw [hmore, hjournal, List.reverse_append, List.append_assoc]

theorem Lead.bind_of_stop {rest : ι → α → Session β} {stop : Stop}
    (h : Lead session scene (.error stop) calls last) :
    Lead (fun i => session i >>= rest i) scene (.error stop) calls last := by
  intro i page hpage
  obtain ⟨final, hafter, hfinal, hjournal⟩ := h i page hpage
  refine ⟨final, ?_, hfinal, hjournal⟩
  rw [after_bind, hafter]

theorem Lead.lift_caught {result : Except Stop α} (h : Lead session scene result calls last) :
    Lead (fun i => ExceptT.lift (session i).caught) scene (.ok result) calls last := by
  intro i page hpage
  obtain ⟨final, hafter, hfinal, hjournal⟩ := h i page hpage
  refine ⟨final, ?_, hfinal, hjournal⟩
  have hlift := yields_lift_caught Page.handle (session i) ⟨page, scene.now⟩
  rwa [hafter] at hlift

theorem exists_lead_tell (h : IsSteady call scene.browser) :
    ∃ result last, Lead (fun i => tell (call i)) scene result (fun i => [call i]) last := by
  obtain ⟨reply, took, left, hsteady⟩ := h
  refine ⟨match reply with
    | .ok () => .ok (.ok ())
    | .error (.refused refusal) => .ok (.error refusal)
    | .error (.crashed reason) => .error (.crashed reason), ⟨left, scene.now + took⟩,
    fun i page hpage => ?_⟩
  obtain ⟨hreply, htook, hstate, hjournal⟩ := hsteady i page hpage
  refine ⟨_, ?_, hstate, hjournal⟩
  rw [after_tell, hreply, Scene.asked, htook]
  rcases reply with (refusal | reason) | ⟨⟩ <;> rfl

/-- A session that is the same for all of a family leads to the same. -/
theorem exists_lead (session : Session α) (scene : Scene Page) :
    ∃ result calls last, Lead (fun _ : ι => session) scene result (fun _ => calls) last := by
  obtain ⟨result, calls, shown, time, hrun⟩ :=
    session.caught.exists_run_of_shown scene.browser scene.now
  refine ⟨result, calls, ⟨shown, time⟩, fun _ page hpage => ?_⟩
  obtain ⟨final, hfinal, hshown, hjournal⟩ := hrun page hpage
  refine ⟨final, ?_, hshown, hjournal⟩
  rw [after, hfinal]

end Session

end KeepAlive.Browser
