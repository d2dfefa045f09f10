import KeepAlive.Browser.Page

/-!
# What can be seen of a page

An element is seen unless its type hides it, or something hides it or an element around it.  Looking
for the first of some locators that designates a seen element leaves the page as it is, and what is
seen can be filled in and clicked.
-/

namespace KeepAlive.Browser.Page

open Markup

/-! ## Windows -/

/-- Whether a window can come about: it shows nothing at first, and then handles calls. -/
inductive Arises : Page → Prop
  | new (fixture : Fixture) : Arises { fixture }
  | handled {page : Page} (h : Arises page) (call : Call) : Arises (handle call page).state

section Windows

variable {page : Page}

theorem document_handle (h : page.document = .parse page.markup) (call : Call) :
    (handle call page).state.document = .parse (handle call page).state.markup := by
  cases call with
  | fillText locator value =>
    unfold handle
    dsimp only
    split
    · exact h
    · exact h
  | clickButton locator =>
    unfold handle
    dsimp only
    split
    · exact h
    · split
      · exact h
      · rfl
  | connect => rfl
  | openUrl url => rfl
  | wait milliseconds => exact h
  | currentUrl => exact h
  | pageMarkup => exact h
  | isVisible locator => exact h
  | hasElement locator => exact h
  | saveScreenshot id => exact h
  | solveCaptcha => exact h
  | disconnect => exact h

/-- A window shows the document of its markup. -/
theorem Arises.document_eq (h : page.Arises) : page.document = .parse page.markup := by
  induction h with
  | new fixture => rfl
  | handled _ call ih => exact document_handle ih call

/-- A window in which a text is the page of every url, and one has been opened. -/
def showing (markup : String) : Page :=
  (handle (.openUrl "") { fixture := { pages := [("", markup)] } }).state

theorem arises_showing (markup : String) : (showing markup).Arises :=
  (Arises.new _).handled _

@[simp] theorem markup_showing (markup : String) : (showing markup).markup = markup := by
  simp [showing, handle, navigate, served, noted]

end Windows

/-! ## Seen elements -/

/-- Whether a style text hides its element: blanks and the case of letters make no difference. -/
def IsHiding (style : String) : Prop :=
  ∃ rule ∈ ["display:none", "visibility:hidden"],
    rule.toList <:+: Text.asciiLower (style.toList.filter fun c => !Text.isBlank c)

/-- Whether nothing hides the element at a place. -/
structure IsSeen (place : Place) : Prop where
  type_ne : ∀ kind, place.attribute? "type" = some kind →
    Text.asciiLower kind.toList ≠ "hidden".toList
  attribute_eq : ∀ level ∈ place.here :: place.above, level.head.attribute? "hidden" = none
  not_isHiding : ∀ level ∈ place.here :: place.above, ∀ style,
    level.head.attribute? "style" = some style → ¬IsHiding style

theorem hides_iff {style : String} : hides style = true ↔ IsHiding style := by
  simp [hides, IsHiding, Text.occurs_iff]

theorem shows_iff {level : Level} : shows level = true ↔
    level.head.attribute? "hidden" = none ∧
      ∀ style, level.head.attribute? "style" = some style → ¬IsHiding style := by
  simp only [shows, Bool.and_eq_true, Option.isNone_iff_eq_none, Bool.not_eq_true',
    Option.any_eq_false, ← hides_iff, Bool.not_eq_true]

theorem visible_iff {place : Place} : visible place = true ↔ IsSeen place := by
  have htype : (!(place.attribute? "type").any fun kind =>
      decide (Text.asciiLower kind.toList = "hidden".toList)) = true ↔
      ∀ kind, place.attribute? "type" = some kind →
        Text.asciiLower kind.toList ≠ "hidden".toList := by
    simp only [Bool.not_eq_true', Option.any_eq_false, decide_eq_false_iff_not, ne_eq]
  rw [visible, Bool.and_eq_true, htype, List.all_eq_true]
  simp only [shows_iff]
  constructor
  · rintro ⟨hkind, hlevels⟩
    exact ⟨hkind, fun level hlevel => (hlevels level hlevel).1,
      fun level hlevel => (hlevels level hlevel).2⟩
  · rintro ⟨hkind, hattribute, hstyle⟩
    exact ⟨hkind, fun level hlevel => ⟨hattribute level hlevel, hstyle level hlevel⟩⟩

/-! ## Looking -/

/-- Whether a locator designates an element that is visible, if the browser answers. -/
def sight (page : Page) (locator : String) : Except Stop Bool :=
  (page.resolve locator).map (·.any visible)

/-- Whether the answer for a locator is that nothing is visible there. -/
def conceals (page : Page) (locator : String) : Bool :=
  match page.sight locator with
  | .ok false => true
  | .ok true | .error _ => false

/-- The first of some locators that designates something visible; a refusal before it ends the
search. -/
def seek (page : Page) (locators : List String) : Except Stop (Option String) :=
  match locators.find? fun locator => !page.conceals locator with
  | none => .ok none
  | some locator => (page.sight locator).map fun _ => some locator

section Looking

variable {page : Page} {locator : String} {locators : List String} {stop : Stop}

theorem conceals_iff : page.conceals locator = true ↔ page.sight locator = .ok false := by
  unfold conceals
  rcases page.sight locator with stop | _ | _ <;> simp

theorem conceals_eq_false_iff : page.conceals locator = false ↔ page.sight locator ≠ .ok false := by
  rw [← Bool.not_eq_true, conceals_iff]

/-- What is concealed does not end a search; the first locator of which something else is said does. -/
theorem seek_append_cons {before after : List String}
    (hbefore : ∀ other ∈ before, page.sight other = .ok false)
    (hlocator : page.sight locator ≠ .ok false) :
    page.seek (before ++ locator :: after) = (page.sight locator).map fun _ => some locator := by
  have hfound : (before ++ locator :: after).find? (fun locator => !page.conceals locator) =
      some locator := by
    rw [List.find?_eq_some_iff_append]
    refine ⟨by simpa [conceals_eq_false_iff] using hlocator, before, after, rfl, ?_⟩
    intro other hother
    simpa [conceals_iff] using hbefore other hother
  rw [seek, hfound]

theorem seek_of_concealed (h : ∀ locator ∈ locators, page.sight locator = .ok false) :
    page.seek locators = .ok none := by
  have hnone : locators.find? (fun locator => !page.conceals locator) = none := by
    simpa [conceals_iff] using h
  rw [seek, hnone]

/-- A search looks at one locator after the other. -/
theorem seek_cons (page : Page) (locator : String) (locators : List String) :
    page.seek (locator :: locators) =
      match page.sight locator with
      | .ok false => page.seek locators
      | .ok true => .ok (some locator)
      | .error stop => .error stop := by
  rcases hsight : page.sight locator with stop | _ | _ <;>
    simp [seek, conceals, hsight, Except.map]

theorem concealed_or_exists_first (page : Page) (locators : List String) :
    (∀ locator ∈ locators, page.sight locator = .ok false) ∨
      ∃ before locator after, locators = before ++ locator :: after ∧
        (∀ other ∈ before, page.sight other = .ok false) ∧ page.sight locator ≠ .ok false := by
  rcases hfind : locators.find? (fun locator => !page.conceals locator) with _ | locator
  · refine .inl ?_
    simpa [conceals_iff] using hfind
  · obtain ⟨hlocator, before, after, rfl, hbefore⟩ := List.find?_eq_some_iff_append.1 hfind
    refine .inr ⟨before, locator, after, rfl, ?_, by simpa [conceals_eq_false_iff] using hlocator⟩
    intro other hother
    simpa [conceals_iff] using hbefore other hother

theorem seek_eq_none_iff : page.seek locators = .ok none ↔
    ∀ locator ∈ locators, page.sight locator = .ok false := by
  refine ⟨fun h => ?_, seek_of_concealed⟩
  rcases concealed_or_exists_first page locators with hall | ⟨before, locator, after, rfl, hbefore, hne⟩
  · exact hall
  · rw [seek_append_cons hbefore hne] at h
    rcases hsight : page.sight locator with stop | seen <;> rw [hsight] at h <;> cases h

/-- A search finds the first locator that designates something visible, if all before it are answered
as well. -/
theorem seek_eq_some_iff : page.seek locators = .ok (some locator) ↔
    ∃ before after, locators = before ++ locator :: after ∧
      (∀ other ∈ before, page.sight other = .ok false) ∧ page.sight locator = .ok true := by
  constructor
  · intro h
    rcases concealed_or_exists_first page locators with hall | ⟨before, first, after, rfl, hbefore, hne⟩
    · rw [seek_of_concealed hall] at h
      cases h
    · rw [seek_append_cons hbefore hne] at h
      rcases hsight : page.sight first with stop | _ | _
      · rw [hsight] at h
        cases h
      · exact absurd hsight hne
      · rw [hsight] at h
        cases h
        exact ⟨before, after, rfl, hbefore, hsight⟩
  · rintro ⟨before, after, rfl, hbefore, hsight⟩
    rw [seek_append_cons hbefore (by simp [hsight]), hsight]
    rfl

/-- A search is broken off by the first locator that is not concealed, if that one is refused. -/
theorem seek_eq_error_iff : page.seek locators = .error stop ↔
    ∃ before locator after, locators = before ++ locator :: after ∧
      (∀ other ∈ before, page.sight other = .ok false) ∧ page.sight locator = .error stop := by
  constructor
  · intro h
    rcases concealed_or_exists_first page locators with hall | ⟨before, first, after, rfl, hbefore, hne⟩
    · rw [seek_of_concealed hall] at h
      cases h
    · rw [seek_append_cons hbefore hne] at h
      rcases hsight : page.sight first with refused | seen
      · rw [hsight] at h
        cases h
        exact ⟨before, first, after, rfl, hbefore, hsight⟩
      · rw [hsight] at h
        cases h
  · rintro ⟨before, locator, after, rfl, hbefore, hsight⟩
    rw [seek_append_cons hbefore (by simp [hsight]), hsight]
    rfl

/-! ### What the browser answers -/

/-- Whether a browser refuses to look for a locator: it is not one, and it is not known to be missing. -/
def IsRefused (page : Page) (locator : String) (e : Locator.Unsupported) : Prop :=
  locator ∉ page.fixture.missing ∧ Locator.parse locator = .error e

/-- Without broken locators, only what is no locator is refused. -/
theorem sight_eq_error_iff (hbroken : page.fixture.broken = []) : page.sight locator = .error stop ↔
    ∃ e, page.IsRefused locator e ∧ stop = .refused (.invalidLocator locator e.message) := by
  unfold sight resolve IsRefused
  rw [hbroken, if_neg (by simp)]
  by_cases hmissing : locator ∈ page.fixture.missing
  · rw [if_pos (by simpa using hmissing)]
    simp [hmissing, Except.map]
  · rw [if_neg (by simpa using hmissing), Locator.select]
    rcases Locator.parse locator with e | expression
    · simp [hmissing, Except.map, eq_comm]
    · simp [Except.map]

/-- What the browser reports as visible can be used. -/
theorem usable_of_sight (h : page.sight locator = .ok true) : page.usable locator = .ok () := by
  unfold sight at h
  unfold usable
  rcases hresolve : page.resolve locator with stop | _ | place
  · rw [hresolve] at h
    cases h
  · rw [hresolve] at h
    cases h
  · rw [hresolve] at h
    have hvisible : visible place = true := Except.ok.inj h
    simp [hvisible]

end Looking

/-! ## Filling in and clicking -/

section Using

variable {page : Page} {locator : String}

/-- Typing changes nothing but the journal and the values. -/
theorem handle_fillText (h : page.sight locator = .ok true) (value : String) :
    handle (.fillText locator value) page =
      { reply := .ok ()
        state := { page.noted (.fillText locator value) with
          values := (locator, value) :: page.values } } := by
  simp only [handle, usable_of_sight h, noted]

theorem handle_clickButton (h : page.sight locator = .ok true) :
    (handle (.clickButton locator) page).reply = .ok () ∧
      (handle (.clickButton locator) page).took = 0 ∧
      (handle (.clickButton locator) page).state.journal = .clickButton locator :: page.journal := by
  simp only [handle, usable_of_sight h]
  split
  · exact ⟨rfl, rfl, rfl⟩
  · exact ⟨rfl, rfl, rfl⟩

end Using

end KeepAlive.Browser.Page
