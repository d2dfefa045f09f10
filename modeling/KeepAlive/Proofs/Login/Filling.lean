import KeepAlive.Proofs.Form.Choosing
import KeepAlive.Proofs.Login.Verdict
import KeepAlive.Proofs.Script.Obstacle

/-!
# What is found can be used

The search for the form asks whether an element is visible, and a script fills it in or clicks it.  On
one page the two agree, whatever the page is and whatever goes wrong with it, and typing into a field
does not come between.
-/

namespace KeepAlive.Login

open Browser

section Steps

variable {page : Page} {now : Nat} {setting : Script.Setting} {field : Field} {locator : String}

/-- The call of a command on a field is answered at once if something is visible at the locator.  It is
written down, and unless it is a click, the same can be seen as before. -/
theorem handle_fieldCall (h : page.sight locator = .ok true) (credentials : Credentials)
    (field : Field) :
    (∃ answer, (Page.handle (Script.fieldCall credentials locator field) page).reply = .ok answer) ∧
      (Page.handle (Script.fieldCall credentials locator field) page).took = 0 ∧
      (Page.handle (Script.fieldCall credentials locator field) page).state.journal =
        Script.fieldCall credentials locator field :: page.journal ∧
      (field ≠ .submitButton → ∀ other,
        (Page.handle (Script.fieldCall credentials locator field) page).state.sight other =
          page.sight other) := by
  cases field with
  | username =>
    rw [Script.fieldCall, Page.handle_fillText h]
    exact ⟨⟨(), rfl⟩, rfl, rfl, fun _ _ => rfl⟩
  | password =>
    rw [Script.fieldCall, Page.handle_fillText h]
    exact ⟨⟨(), rfl⟩, rfl, rfl, fun _ _ => rfl⟩
  | submitButton =>
    obtain ⟨hreply, htook, hjournal⟩ := Page.handle_clickButton h
    exact ⟨⟨(), hreply⟩, htook, hjournal, fun hfield => absurd rfl hfield⟩

/-- A command on a field that has been found is carried out. -/
theorem perform_onField (hlocator : setting.locators.get field = some locator)
    (hsight : page.sight locator = .ok true) (now : Nat) :
    ∃ after, (Script.perform setting (.onField field none)).Yields Page.handle ⟨page, now⟩ (.ok ())
        ⟨after, now + setting.settle⟩ ∧
      after.journal = Script.fieldCall setting.credentials locator field :: page.journal ∧
      (field ≠ .submitButton → ∀ other, after.sight other = page.sight other) := by
  have hperform : Script.perform setting (.onField field none) =
      Script.onElement setting (Script.fieldCall setting.credentials locator field) locator
        field.notFound := by
    simp [Script.perform, hlocator]
  obtain ⟨⟨answer, hreply⟩, htook, hjournal, hsame⟩ :=
    handle_fieldCall hsight setting.credentials field
  refine ⟨_, ?_, hjournal, hsame⟩
  rw [hperform, Session.Yields, Script.after_onElement, hreply]
  simp only [Scene.asked, Scene.later, htook, Nat.add_zero]

theorem run_cons_yields_iff {command : Script.Command} {rest : List Script.Command}
    {scene middle last : Scene Page} {result : Except Script.Stopped Unit}
    (h : (Script.perform setting command).Yields Page.handle scene (.ok ()) middle) :
    (Script.run setting (command :: rest)).Yields Page.handle scene result last ↔
      (Script.run setting rest).Yields Page.handle middle result last := by
  rw [Script.run, Session.Yields, h.after_bind]
  rfl

end Steps

/-- The standard script runs to its end where something is visible at each of its locators. -/
theorem runSource_standard_yields {page : Page} {username password submitButton : String}
    (husername : page.sight username = .ok true) (hpassword : page.sight password = .ok true)
    (hsubmit : page.sight submitButton = .ok true) (credentials : Credentials)
    (settle maxWait now : Nat) :
    ∃ after, (Script.runSource ⟨⟨username, password, submitButton⟩, credentials, settle, maxWait⟩
        Script.standard).Yields Page.handle ⟨page, now⟩ (.ok ())
        ⟨after, now + settle + settle + settle⟩ ∧
      after.journal = .clickButton submitButton :: .fillText password credentials.password ::
        .fillText username credentials.username :: page.journal := by
  let setting : Script.Setting :=
    ⟨⟨username, password, submitButton⟩, credentials, settle, maxWait⟩
  -- What is typed into the fields does not change what can be seen.
  obtain ⟨named, hnamed, hnamedJournal, hnamedSight⟩ := perform_onField
    (show setting.locators.get .username = some username from rfl) husername now
  rw [← hnamedSight (by decide)] at hpassword hsubmit
  obtain ⟨filled, hfilled, hfilledJournal, hfilledSight⟩ := perform_onField
    (show setting.locators.get .password = some password from rfl) hpassword (now + settle)
  rw [← hfilledSight (by decide)] at hsubmit
  obtain ⟨after, hafter, hafterJournal, -⟩ := perform_onField
    (show setting.locators.get .submitButton = some submitButton from rfl) hsubmit
    (now + settle + settle)
  refine ⟨after, ?_, ?_⟩
  · rw [runSource_standard, standardCommands, run_cons_yields_iff hnamed,
      run_cons_yields_iff hfilled, run_cons_yields_iff hafter]
    rfl
  · rw [hafterJournal, hfilledJournal, hnamedJournal]
    rfl

/-- What has been found for a field is visible. -/
theorem sight_of_find {page : Page} {now : Nat} {found : Locators} {last : Scene Page}
    (h : Form.find.Yields Page.handle ⟨page, now⟩ found last) (field : Field) {locator : String}
    (hfound : found.get field = some locator) : page.sight locator = .ok true := by
  have hlocate := (Form.find_yields_iff.1 h).2 field
  rw [hfound] at hlocate
  obtain ⟨-, -, -, -, hsight⟩ := Page.seek_eq_some_iff.1 hlocate
  exact hsight

/-- What a search finds on a page can be used there, whatever is wrong with the page: each locator can
be filled in and clicked, and if there is one for each field, the standard script runs to its end with
them.  The journal then has the three calls of the script at its end, and nothing else is new in it. -/
theorem found_can_be_used {page : Page} {now : Nat} {found : Locators} {last : Scene Page}
    (h : Form.find.Yields Page.handle ⟨page, now⟩ found last) :
    last = ⟨page, now⟩ ∧
    (∀ username password submitButton : String,
      found = ⟨username, password, submitButton⟩ → ∀ credentials settle maxWait, ∃ after,
        (Script.runSource ⟨found, credentials, settle, maxWait⟩ Script.standard).Yields Page.handle
          last (.ok ()) ⟨after, now + settle + settle + settle⟩ ∧
        after.journal.reverse = page.journal.reverse ++
          [.fillText username credentials.username, .fillText password credentials.password,
            .clickButton submitButton]) ∧
    ∀ field locator, found.get field = some locator →
      (∀ value, (Page.handle (.fillText locator value) page).reply = .ok ()) ∧
        (Page.handle (.clickButton locator) page).reply = .ok () := by
  obtain ⟨rfl, -⟩ := Form.find_yields_iff.1 h
  refine ⟨rfl, ?_, ?_⟩
  · rintro username password submitButton rfl credentials settle maxWait
    obtain ⟨after, hruns, hjournal⟩ := runSource_standard_yields (sight_of_find h .username rfl)
      (sight_of_find h .password rfl) (sight_of_find h .submitButton rfl) credentials settle maxWait
      now
    refine ⟨after, hruns, ?_⟩
    rw [hjournal]
    simp
  · intro field locator hfound
    have hsight := sight_of_find h field hfound
    exact ⟨fun value => congrArg Handled.reply (Page.handle_fillText hsight value),
      (Page.handle_clickButton hsight).1⟩

/-- All three fields of a form are found, and the standard script logs in with them. -/
theorem found_can_be_used_on_form :
    let page : Page := .showing
      "<form><input name=user><input type=password><button type=submit>Go</button></form>"
    let found : Locators := ⟨"/html/body/form/input[1]", "/html/body/form/input[2]",
      "/html/body/form/button"⟩
    Form.find.Yields Page.handle ⟨page, 0⟩ found ⟨page, 0⟩ ∧ ∃ after,
      (Script.runSource ⟨found, ⟨"alice", "secret"⟩, 500, 60000⟩ Script.standard).Yields Page.handle
        ⟨page, 0⟩ (.ok ()) ⟨after, 1500⟩ ∧
      after.journal.reverse =
        [.openUrl "", .fillText "/html/body/form/input[1]" "alice",
          .fillText "/html/body/form/input[2]" "secret", .clickButton "/html/body/form/button"] := by
  intro page found
  have hmarkup : page.markup =
      "<form><input name=user><input type=password><button type=submit>Go</button></form>" :=
    Page.markup_showing _
  have hplain : Form.IsPlain page := Form.isPlain_showing (by decide +kernel) (by decide +kernel)
  have hyields : Form.find.Yields Page.handle ⟨page, 0⟩ found ⟨page, 0⟩ := by
    refine Form.find_yields_iff.2 ⟨rfl, fun field => ?_⟩
    cases field with
    | username =>
      refine hplain.locate_eq_of_highest ?_
      rw [hmarkup]
      decide +kernel
    | password =>
      refine hplain.locate_eq_of_highest ?_
      rw [hmarkup]
      decide +kernel
    | submitButton =>
      refine hplain.locate_eq_of_highest ?_
      rw [hmarkup]
      decide +kernel
  obtain ⟨-, hruns, -⟩ := found_can_be_used hyields
  exact ⟨hyields, hruns _ _ _ rfl ⟨"alice", "secret"⟩ 500 60000⟩

end KeepAlive.Login
