import KeepAlive.Proofs.Login.Filling
import KeepAlive.Proofs.Login.Lengthening

/-!
# The standard script, written out

A site without a script of its own is searched until its form is found, and then the standard script
fills it in.  A site whose own script is the standard one is searched once, and the script stops at
the first field that is missing.  Where the first search finds the whole form, or fails, the two do
the same; where it finds less, a page that stays as it is gives them the same status, unless nothing
of the form is found at all.
-/

namespace KeepAlive.Login

open Browser

/-- What to log into, if the site has no script of its own. -/
def Request.unscripted (request : Request) : Request :=
  { request with script := none }

/-- What to log into, if the site's own script is the standard one. -/
def Request.spelledOut (request : Request) : Request :=
  { request with script := some Script.standard }

section Searches

variable {σ : Type} {server : Server σ} {timing : Timing} {request : Request} {scene : Scene σ}

theorem prepare_spelledOut (timing : Timing) (request : Request) :
    prepare timing request.spelledOut =
      Form.find >>= fun found => pure (.ok ⟨standardCommands, found⟩) := by
  have hneeds : Script.needsLocators standardCommands = true := by decide
  unfold prepare Request.spelledOut
  dsimp only
  rw [parse_standard]
  dsimp only
  rw [if_pos hneeds]

/-- A search that is good at once ends the loop. -/
theorem alike_poll_of_good {α β : Type} {probe : Session α} {between : Session Unit}
    {isGood : α → Bool} {limit pauses : Nat} (rest : Except α α → Session β)
    (h : ∀ answer middle, probe.Yields server scene answer middle → isGood answer = true) :
    Session.Alike server scene (poll probe between isGood limit pauses >>= rest)
      (probe >>= fun answer => rest (.ok answer)) := by
  have honce (again : Option (Session (Except α α))) :
      Session.Alike server scene (pollOr probe isGood limit again >>= rest)
        (probe >>= fun answer => rest (.ok answer)) := by
    rw [pollOr_eq_bind, bind_assoc]
    apply Session.Alike.bind_left
    intro answer middle hanswer
    exact (alike_pollOr_of_good (h answer middle hanswer)).bind_right rest
  cases pauses with
  | zero => exact honce none
  | succ pauses => exact honce _

theorem alike_prepare_of_complete (hshown : IsShowable (scene.now + timing.discoveryTimeout))
    (hfind : ∀ found last, Form.find.Yields server scene found last → found.isComplete = true) :
    Session.Alike server scene (prepare timing request.unscripted)
      (prepare timing request.spelledOut) := by
  rw [prepare_spelledOut]
  apply (alike_deadline_bind hshown _).trans
  exact alike_poll_of_good _ hfind

/-- Where no search of the login page finds less than the whole form, the two attempts are alike. -/
theorem alike_attempt_of_complete
    (hshown : ∀ ready, Shows server request scene ready →
      IsShowable (ready.now + timing.discoveryTimeout))
    (hfind : ∀ ready found last, Shows server request scene ready →
      Form.find.Yields server ready found last → found.isComplete = true) :
    Session.Alike server scene (attempt timing request.unscripted)
      (attempt timing request.spelledOut) := by
  rw [attempt_eq, attempt_eq]
  apply Session.Alike.bind_right
  apply Session.Alike.bind_left
  intro _ page hpage
  apply Session.Alike.bind_left
  intro _ ready hready
  have hshows : Shows server request scene ready := ⟨page, hpage, hready⟩
  have hprepare : Session.Alike server ready (prepare timing request.unscripted)
      (prepare timing request.spelledOut) :=
    alike_prepare_of_complete (hshown ready hshows) fun found last => hfind ready found last hshows
  exact (hprepare.bind_right _).bind_right _

end Searches

section Verdicts

variable {σ : Type} {server : Server σ} {timing : Timing} {request : Request} {verdict : Verdict}
  {scene ready last : Scene σ}

theorem fill_yields_of_prepare
    (h : (prepare timing request).Yields server scene (.error verdict) last) :
    (fill timing request).Yields server scene (.error verdict) last := by
  unfold fill
  exact Session.yields_bind_iff.2 ⟨.error verdict, last, h, Session.yields_pure_iff.2 ⟨rfl, rfl⟩⟩

theorem fill_yields_of_run {prepared : Prepared} {stop : Script.Stopped} {middle : Scene σ}
    (hprepare : (prepare timing request).Yields server scene (.ok prepared) middle)
    (hrun : (Script.run (settingFor timing request prepared.locators) prepared.commands).Yields
      server middle (.error stop) last) :
    (fill timing request).Yields server scene (.error (.stopped stop)) last := by
  unfold fill
  apply Session.yields_bind_iff.2 ⟨.ok prepared, middle, hprepare, _⟩
  exact Session.yields_bind_iff.2 ⟨.error stop, last, hrun, Session.yields_pure_iff.2 ⟨rfl, rfl⟩⟩

/-- An attempt that does not get its form filled in ends with the verdict on that. -/
theorem attempt_returns_of_fill (hshows : Shows server request scene ready)
    (hfill : (fill timing request).Yields server ready (.error verdict) last)
    (hpictures : ∀ call ∈ request.pictures, ¬Session.Breaks server call last) :
    (attempt timing request).Returns server scene (verdict.outcome request) := by
  have hjudged : (judged timing request).Yields server scene verdict last :=
    judged_yields_iff_of_fill.2 ⟨ready, _, last, hshows, hfill, rfl, rfl⟩
  exact attempt_returns_iff_of_judged.2 ⟨verdict, last, hjudged, hpictures, rfl⟩

/-- A loop whose answer is bad and stays the same ends with it. -/
theorem exists_poll_yields_of_bad {α : Type} {probe : Session α} {between : Session Unit}
    {isGood : α → Bool} {limit : Nat} {answer : α} (Holds : Scene σ → Prop)
    (hprobe : ∀ scene, Holds scene → probe.Yields server scene answer scene)
    (hbetween : ∀ scene, Holds scene → ∃ last, between.Yields server scene () last ∧ Holds last)
    (hbad : isGood answer = false) (pauses : Nat) (hscene : Holds scene) :
    ∃ last, (poll probe between isGood limit pauses).Yields server scene (.error answer) last := by
  have hstop {scene : Scene σ} {again : Option (Session (Except α α))} (hscene : Holds scene)
      (h : again = none ∨ limit ≤ scene.now) :
      (pollOr probe isGood limit again).Yields server scene (.error answer) scene := by
    have hanswer := hprobe scene hscene
    apply (alike_pollOr_of_answer hanswer (alike_pollOr_of_late hbad h)).yields_iff.2
    exact Session.yields_bind_iff.2
      ⟨answer, scene, hanswer, Session.yields_pure_iff.2 ⟨rfl, rfl⟩⟩
  induction pauses generalizing scene with
  | zero => exact ⟨scene, hstop hscene (.inl rfl)⟩
  | succ pauses ih =>
    by_cases hlate : limit ≤ scene.now
    · exact ⟨scene, hstop hscene (.inr hlate)⟩
    · obtain ⟨again, hagain, hholds⟩ := hbetween scene hscene
      obtain ⟨last, hlast⟩ := ih hholds
      have hanswer := hprobe scene hscene
      have hsoon : scene.now < limit := Nat.lt_of_not_le hlate
      refine ⟨last, ?_⟩
      apply (alike_pollOr_of_answer hanswer (alike_pollOr_of_soon hbad hsoon)).yields_iff.2
      exact Session.yields_bind_iff.2
        ⟨answer, scene, hanswer, Session.yields_bind_iff.2 ⟨(), again, hagain, hlast⟩⟩

end Verdicts

section Windows

variable {page : Page} {locator : String} {stop : Stop}

theorem exists_refusal_of_resolve (h : page.resolve locator = .error stop) :
    ∃ refusal, stop = .refused refusal := by
  unfold Page.resolve at h
  split at h
  · cases h
    exact ⟨_, rfl⟩
  · split at h
    · cases h
    · split at h
      · cases h
        exact ⟨_, rfl⟩
      · cases h

theorem exists_refusal_of_usable (h : page.usable locator = .error stop) :
    ∃ refusal, stop = .refused refusal := by
  unfold Page.usable at h
  split at h
  · rename_i other hresolve
    cases h
    exact exists_refusal_of_resolve hresolve
  · cases h
    exact ⟨_, rfl⟩
  · split at h
    · cases h
    · cases h
      exact ⟨_, rfl⟩

/-- A browser over fixed pages refuses things, but never breaks off whoever asks. -/
theorem neverBreaks_page (call : Call) : NeverBreaks Page.handle call := by
  rintro ⟨page, now⟩ ⟨reason, hreply⟩
  have hresolve {α : Type} {locator : String} {f : Option Markup.Place → α}
      (h : (page.resolve locator).map f = .error (.crashed reason)) : False := by
    rcases hplace : page.resolve locator with stop | place
    · obtain ⟨refusal, rfl⟩ := exists_refusal_of_resolve hplace
      rw [hplace] at h
      cases h
    · rw [hplace] at h
      cases h
  have husable {locator : String} (h : page.usable locator = .error (.crashed reason)) : False := by
    obtain ⟨refusal, hrefusal⟩ := exists_refusal_of_usable h
    cases hrefusal
  cases call with
  | fillText locator value =>
    simp only [Page.handle] at hreply
    split at hreply
    · rename_i stop hstop
      cases hreply
      exact husable hstop
    · cases hreply
  | clickButton locator =>
    simp only [Page.handle] at hreply
    split at hreply
    · rename_i stop hstop
      cases hreply
      exact husable hstop
    · split at hreply
      · cases hreply
      · cases hreply
  | isVisible locator => exact hresolve hreply
  | hasElement locator => exact hresolve hreply
  | connect | openUrl | wait | currentUrl | pageMarkup | saveScreenshot | solveCaptcha | disconnect =>
    cases hreply

end Windows

section Pages

variable {page : Page} {now : Nat} {timing : Timing} {request : Request} {found : Locators}
  {field : Field} {setting : Script.Setting}

/-- The window once the login page has been opened in it. -/
def loginPage (page : Page) (url : String) : Page :=
  let opened := (Page.handle (.openUrl url) (Page.handle .connect page).state).state
  (Page.handle .solveCaptcha opened).state

/-- A script stops at the first field that has no locator, if the fields before it are there and no
click leads elsewhere. -/
theorem exists_run_yields_of_missing {before after : List Field}
    (hbefore : ∀ other ∈ before, other ≠ .submitButton ∧
      ∃ locator, setting.locators.get other = some locator ∧ page.sight locator = .ok true)
    (hfield : setting.locators.get field = none) :
    ∃ last, (Script.run setting ((before ++ field :: after).map (.onField · none))).Yields Page.handle
      ⟨page, now⟩ (.error ⟨field.notFound, none⟩) last := by
  induction before generalizing page now with
  | nil =>
    refine ⟨⟨page, now⟩, Session.yields_bind_iff.2
      ⟨.error ⟨field.notFound, none⟩, ⟨page, now⟩, ?_, rfl⟩⟩
    simp [Script.perform, hfield]
  | cons first before ih =>
    obtain ⟨⟨hfirst, locator, hlocator, hsight⟩, hothers⟩ := List.forall_mem_cons.1 hbefore
    obtain ⟨typed, htyped, -, hsame⟩ := perform_onField hlocator hsight now
    rw [List.cons_append, List.map_cons]
    simp only [run_cons_yields_iff htyped]
    apply ih
    intro other hother
    obtain ⟨hclick, place, hplace, hseen⟩ := hothers other hother
    exact ⟨hclick, place, hplace, by rw [hsame hfirst, hseen]⟩

/-- The standard script stops at the first field that has not been found. -/
theorem exists_run_standard_yields (hmissing : setting.locators.firstMissing = some field)
    (hsight : ∀ other locator, setting.locators.get other = some locator →
      page.sight locator = .ok true) :
    ∃ last, (Script.run setting standardCommands).Yields Page.handle ⟨page, now⟩
      (.error ⟨field.notFound, none⟩) last := by
  obtain ⟨hfield, before, after, hall, hbefore⟩ := List.find?_eq_some_iff_append.1 hmissing
  have hstandard : standardCommands = (before ++ field :: after).map (.onField · none) := by
    rw [← hall]
    rfl
  have hclick : ∀ other ∈ before, other ≠ .submitButton := by
    intro other hother
    have hlast : other ∈ Field.all.dropLast := by
      rw [hall, List.dropLast_append_of_ne_nil (List.cons_ne_nil field after)]
      exact List.mem_append_left _ hother
    have hnone : ∀ other ∈ Field.all.dropLast, other ≠ .submitButton := by decide
    exact hnone other hlast
  rw [hstandard]
  apply exists_run_yields_of_missing
  · intro other hother
    obtain ⟨locator, hlocator⟩ := Option.isSome_iff_exists.1 (by simpa using hbefore other hother)
    exact ⟨hclick other hother, locator, hlocator, hsight other locator hlocator⟩
  · simpa using hfield

/-- The search of a page that stays as it is finds the same each time. -/
theorem exists_poll_find_yields (h : Form.find.Yields Page.handle ⟨page, now⟩ found ⟨page, now⟩)
    (hfound : found.isComplete = false) (interval limit pauses : Nat) :
    ∃ last, (poll Form.find (idle interval) Locators.isComplete limit pauses).Yields Page.handle
      ⟨page, now⟩ (.error found) last := by
  have hnap (scene : Scene Page) : ∃ again, (nap interval).Yields Page.handle scene () again ∧
      again.browser = scene.browser :=
    ⟨_, nap_yields_iff.2 (Eq.refl _), Eq.refl _⟩
  apply exists_poll_yields_of_bad
    (fun scene : Scene Page => ∀ field, Form.locate scene.browser field = .ok (found.get field))
  · intro scene hscene
    exact Form.find_yields_iff.2 ⟨Eq.refl _, hscene⟩
  · intro scene hscene
    obtain ⟨again, hagain, hsame⟩ := hnap scene
    refine ⟨again.asked Page.handle .solveCaptcha, ?_, ?_⟩
    · exact Session.yields_bind_iff.2
        ⟨(), again, hagain, Session.yields_callAnyway_iff.2 ⟨neverBreaks_page _ again, Eq.refl _⟩⟩
    · intro field
      rw [← hscene field, ← hsame]
      rfl
  · exact hfound
  · exact (Form.find_yields_iff.1 h).2

theorem statusWithout_eq (h : found.firstMissing = some field) :
    statusWithout found = if found = {} then .automaticFormDetectionFailed else field.notFound := by
  obtain ⟨_ | username, _ | password, _ | submitButton⟩ := found <;> cases h <;>
    simp [statusWithout, Field.notFound]

theorem shows_loginPage : Shows Page.handle request ⟨(Page.handle .connect page).state, now⟩
    ⟨loginPage page request.url, now⟩ := by
  refine ⟨_, Session.yields_call_iff.2 ⟨Eq.refl _, Eq.refl _⟩, ?_⟩
  exact Session.yields_callAnyway_iff.2 ⟨neverBreaks_page .solveCaptcha _, Eq.refl _⟩

/-- The search and the script come to the same status where some of the form is missing, unless all
of it is. -/
theorem attempts_return_of_missing
    (hshown : IsShowable (now + timing.discoveryTimeout))
    (hfind : Form.find.Yields Page.handle ⟨loginPage page request.url, now⟩ found
      ⟨loginPage page request.url, now⟩)
    (hmissing : found.firstMissing = some field) :
    (attempt timing request.unscripted).Returns Page.handle ⟨(Page.handle .connect page).state, now⟩
        ⟨if found = {} then .automaticFormDetectionFailed else field.notFound, none⟩ ∧
      (attempt timing request.spelledOut).Returns Page.handle
        ⟨(Page.handle .connect page).state, now⟩ ⟨field.notFound, none⟩ := by
  constructor
  · have hincomplete : found.isComplete = false := by
      rw [Locators.isComplete, hmissing]
      rfl
    obtain ⟨last, hlast⟩ := exists_poll_find_yields hfind hincomplete timing.discoveryInterval
      (now + timing.discoveryTimeout)
      (pausesWithin timing.discoveryTimeout timing.discoveryInterval)
    have hprepare : (prepare timing request.unscripted).Yields Page.handle
        ⟨loginPage page request.url, now⟩ (.error (.undiscovered found)) last := by
      apply (alike_deadline_bind hshown _).yields_iff.2
      exact Session.yields_bind_iff.2
        ⟨.error found, last, hlast, Session.yields_pure_iff.2 ⟨rfl, rfl⟩⟩
    rw [← statusWithout_eq hmissing]
    exact attempt_returns_of_fill shows_loginPage (fill_yields_of_prepare hprepare)
      (fun call _ => neverBreaks_page call last)
  · let setting := settingFor timing request.spelledOut found
    have hsight (other : Field) (locator : String) (h : setting.locators.get other = some locator) :
        (loginPage page request.url).sight locator = .ok true :=
      sight_of_find hfind other h
    obtain ⟨last, hlast⟩ : ∃ last, (Script.run setting standardCommands).Yields Page.handle
        ⟨loginPage page request.url, now⟩ (.error ⟨field.notFound, none⟩) last :=
      exists_run_standard_yields hmissing hsight
    have hprepare : (prepare timing request.spelledOut).Yields Page.handle
        ⟨loginPage page request.url, now⟩ (.ok ⟨standardCommands, found⟩)
        ⟨loginPage page request.url, now⟩ := by
      rw [prepare_spelledOut]
      exact Session.yields_bind_iff.2 ⟨found, _, hfind, Session.yields_pure_iff.2 ⟨rfl, rfl⟩⟩
    exact attempt_returns_of_fill shows_loginPage (fill_yields_of_run hprepare hlast)
      (fun call _ => neverBreaks_page call last)

/-- On fixed pages, a login comes to the same outcome whether the standard script is spelled out as
the site's own or not, unless nothing of the form is found on the login page: then the one without a
script says so, and the script stops at its first field.  Where all of the form is found, the two
ask the browser for the same things. -/
theorem standard_script_comes_to_same (page : Page) (now : Nat) (timing : Timing) (request : Request)
    (hshown : IsShowable (now + timing.discoveryTimeout)) :
    ∃ outcome other, (login timing request.unscripted).Returns Page.handle ⟨page, now⟩ outcome ∧
      (login timing request.spelledOut).Returns Page.handle ⟨page, now⟩ other ∧
      (Form.find.Returns Page.handle ⟨loginPage page request.url, now⟩ {} →
        outcome = ⟨.automaticFormDetectionFailed, none⟩ ∧ other = ⟨.usernameFieldNotFound, none⟩) ∧
      (¬Form.find.Returns Page.handle ⟨loginPage page request.url, now⟩ {} → outcome = other) ∧
      ∀ found, Form.find.Returns Page.handle ⟨loginPage page request.url, now⟩ found →
        found.isComplete = true →
          callsOf ((login timing request.unscripted).events Page.handle ⟨page, now⟩) =
            callsOf ((login timing request.spelledOut).events Page.handle ⟨page, now⟩) := by
  have hopened : (Session.call .connect).Yields Page.handle ⟨page, now⟩ ()
      ⟨(Page.handle .connect page).state, now⟩ :=
    Session.yields_call_iff.2 ⟨Eq.refl _, Eq.refl _⟩
  have hreturns (request : Request) : (login timing request).Returns Page.handle ⟨page, now⟩
      (settled ((attempt timing request).after Page.handle
        ⟨(Page.handle .connect page).state, now⟩).1) :=
    (login_returns_iff hopened).2 ⟨neverBreaks_page .disconnect _, Eq.refl _⟩
  refine ⟨_, _, hreturns request.unscripted, hreturns request.spelledOut, ?_⟩
  by_cases hmissing : ∃ found field, found.firstMissing = some field ∧
      Form.find.Returns Page.handle ⟨loginPage page request.url, now⟩ found
  · obtain ⟨found, field, hfield, hfound⟩ := hmissing
    obtain ⟨last, hlast⟩ := Session.returns_iff.1 hfound
    obtain ⟨rfl, -⟩ := Form.find_yields_iff.1 hlast
    obtain ⟨hbare, hwritten⟩ := attempts_return_of_missing hshown hlast hfield
    unfold Session.Returns at hbare hwritten
    rw [hbare, hwritten]
    refine ⟨?_, ?_, ?_⟩
    · intro hnothing
      obtain rfl := hfound.unique hnothing
      cases hfield
      exact ⟨rfl, rfl⟩
    · intro hsome
      rw [if_neg (by rintro rfl; exact hsome hfound)]
    · intro other hother hcomplete
      obtain rfl := hfound.unique hother
      rw [Locators.isComplete, hfield] at hcomplete
      cases hcomplete
  · have hcomplete (found : Locators) (last : Scene Page)
        (h : Form.find.Yields Page.handle ⟨loginPage page request.url, now⟩ found last) :
        found.isComplete = true := by
      rw [Locators.isComplete, Option.isNone_iff_eq_none]
      by_contra hsome
      obtain ⟨field, hfield⟩ := Option.ne_none_iff_exists'.1 hsome
      exact hmissing ⟨found, field, hfield, Session.returns_iff.2 ⟨last, h⟩⟩
    have hattempt : Session.Alike Page.handle ⟨(Page.handle .connect page).state, now⟩
        (attempt timing request.unscripted) (attempt timing request.spelledOut) := by
      apply alike_attempt_of_complete
      · intro ready hready
        obtain rfl := hready.unique shows_loginPage
        exact hshown
      · intro ready found last hready hfind
        obtain rfl := hready.unique shows_loginPage
        exact hcomplete found last hfind
    refine ⟨?_, ?_, ?_⟩
    · intro hnothing
      obtain ⟨last, hlast⟩ := Session.returns_iff.1 hnothing
      exact absurd (hcomplete {} last hlast) (by decide)
    · intro _
      rw [hattempt.after_eq]
    · intro found _ _
      rw [(alike_login hopened hattempt).events_eq]

/-- On a page without a form the two outcomes differ. -/
theorem statuses_on_page_without_form :
    let page : Page := { fixture := { pages := [("", "<p>We are closed.</p>")] } }
    let timing : Timing := ⟨30000, 1000, 30000, 500, 500, 60000⟩
    let request : Request :=
      { url := "https://a.example/login", successUrl := "https://a.example/home"
        credentials := ⟨"alice", "secret"⟩ }
    IsShowable (0 + timing.discoveryTimeout) ∧
      (login timing request.unscripted).Returns Page.handle ⟨page, 0⟩
        ⟨.automaticFormDetectionFailed, none⟩ ∧
      (login timing request.spelledOut).Returns Page.handle ⟨page, 0⟩
        ⟨.usernameFieldNotFound, none⟩ := by
  intro page timing request
  have hshown : IsShowable (0 + timing.discoveryTimeout) := by
    unfold IsShowable
    decide
  have hnothing : Form.find.Returns Page.handle ⟨loginPage page request.url, 0⟩ {} := by
    unfold Session.Returns
    decide +kernel
  obtain ⟨outcome, other, hbare, hwritten, hdiffer, -⟩ :=
    standard_script_comes_to_same page 0 timing request hshown
  obtain ⟨rfl, rfl⟩ := hdiffer hnothing
  exact ⟨hshown, hbare, hwritten⟩

end Pages

end KeepAlive.Login
