import KeepAlive.Proofs.Form.Choosing

/-!
# A search that is refused

Tags are read from a page more freely than locators name them, so the path of an element need not be a
locator.  A refused path is not passed over: the search for the form fails as a whole when it comes
upon one, with whatever else could still be found, and only then.
-/

namespace KeepAlive.Form

open Browser Locator Markup

/-- Whether the search for a field comes upon a path that the browser refuses: nothing before it is
visible. -/
def ComesUpon (page : Page) (field : Field) (path : String) (e : Unsupported) : Prop :=
  ∃ before after, paths page field = before ++ path :: after ∧
    (∀ other ∈ before, page.sight other = .ok false) ∧ page.IsRefused path e

section Refusals

variable {page : Page} {field : Field} {stop : Stop}

theorem locate_eq_error_iff (hbroken : page.fixture.broken = []) :
    locate page field = .error stop ↔
      ∃ path e, ComesUpon page field path e ∧ stop = .refused (.invalidLocator path e.message) := by
  rw [locate, Page.seek_eq_error_iff]
  simp only [Page.sight_eq_error_iff hbroken, ComesUpon]
  constructor
  · rintro ⟨before, path, after, hpaths, hbefore, e, hrefused, hstop⟩
    exact ⟨path, e, ⟨before, after, hpaths, hbefore, hrefused⟩, hstop⟩
  · rintro ⟨path, e, ⟨before, after, hpaths, hbefore, hrefused⟩, hstop⟩
    exact ⟨before, path, after, hpaths, hbefore, e, hrefused, hstop⟩

theorem exists_locate_iff (hbroken : page.fixture.broken = []) :
    (∃ locator, locate page field = .ok locator) ↔ ∀ path e, ¬ComesUpon page field path e := by
  rcases hlocate : locate page field with stop | locator
  · obtain ⟨path, e, hcomes, -⟩ := (locate_eq_error_iff hbroken).1 hlocate
    simp only [reduceCtorEq, exists_false, false_iff]
    exact fun h => h path e hcomes
  · refine iff_of_true ⟨locator, rfl⟩ fun path e hcomes => ?_
    have herror := (locate_eq_error_iff hbroken).2 ⟨path, e, hcomes, rfl⟩
    rw [hlocate] at herror
    cases herror

/-- The path of an element whose tag and those around it consist of characters of names is never
refused. -/
theorem not_isAddressable_of_isRefused (hmarkup : Text.byteLength page.markup.toList < 2 ^ 63)
    {place : Place} (hplace : place ∈ (Document.parse page.markup).places) {e : Unsupported}
    (hrefused : page.IsRefused place.absolutePath e) : ¬IsAddressable place := by
  intro hnames
  have hselect := select_absolutePath_eq hmarkup hplace hnames
  rw [select, hrefused.2] at hselect
  cases hselect

end Refusals

/-- Without broken locators the search comes to a result exactly when it comes upon no refused path
for any field; what it finds is then the first visible path for each field.  Otherwise it fails with the
first path that it comes upon for the first such field.  It leaves the window as it is in any case.  A
refused path is that of an element with an odd tag, its own or one around it. -/
theorem find_fails_exactly_at_refused_path (page : Page) (now : Nat)
    (hbroken : page.fixture.broken = []) :
    ((∃ found last, find.Yields Page.handle ⟨page, now⟩ found last) ↔
      ∀ field path e, ¬ComesUpon page field path e) ∧
    (∀ found last, find.Yields Page.handle ⟨page, now⟩ found last →
      last = ⟨page, now⟩ ∧ ∀ field,
        (found.get field = none ↔ ∀ path ∈ paths page field, page.sight path = .ok false) ∧
        ∀ path, found.get field = some path ↔
          ∃ before after, paths page field = before ++ path :: after ∧
            (∀ other ∈ before, page.sight other = .ok false) ∧ page.sight path = .ok true) ∧
    (∀ stop last, find.after Page.handle ⟨page, now⟩ = (.error stop, last) ↔
      last = ⟨page, now⟩ ∧ ∃ before field after path e, Field.all = before ++ field :: after ∧
        (∀ earlier ∈ before, ∀ path e, ¬ComesUpon page earlier path e) ∧
        ComesUpon page field path e ∧ stop = .refused (.invalidLocator path e.message)) ∧
    (Text.byteLength page.markup.toList < 2 ^ 63 →
      ∀ place ∈ (Document.parse page.markup).places, ∀ e,
        page.IsRefused place.absolutePath e → ¬IsAddressable place) := by
  refine ⟨?_, ?_, ?_, fun hmarkup _ hplace _ => not_isAddressable_of_isRefused hmarkup hplace⟩
  · simp only [find_yields_iff]
    constructor
    · rintro ⟨found, last, -, hfound⟩ field
      exact (exists_locate_iff hbroken).1 ⟨_, hfound field⟩
    · intro h
      have hlocate (field : Field) : ∃ locator, locate page field = .ok locator :=
        (exists_locate_iff hbroken).2 (h field)
      choose locator hlocator using hlocate
      refine ⟨⟨locator .username, locator .password, locator .submitButton⟩, _, rfl, fun field => ?_⟩
      rw [hlocator]
      cases field <;> rfl
  · intro found last hyields
    obtain ⟨rfl, hfound⟩ := find_yields_iff.1 hyields
    refine ⟨rfl, fun field => ⟨?_, fun path => ?_⟩⟩
    · rw [← Page.seek_eq_none_iff, ← locate, hfound, Except.ok.injEq]
    · rw [← Page.seek_eq_some_iff, ← locate, hfound, Except.ok.injEq]
  · intro stop last
    rw [find_after_eq_error_iff]
    simp only [exists_locate_iff hbroken, locate_eq_error_iff hbroken]
    refine and_congr_right fun _ => ?_
    constructor
    · rintro ⟨before, field, after, hall, hbefore, path, e, hcomes, hstop⟩
      exact ⟨before, field, after, path, e, hall, hbefore, hcomes, hstop⟩
    · rintro ⟨before, field, after, path, e, hall, hbefore, hcomes, hstop⟩
      exact ⟨before, field, after, hall, hbefore, path, e, hcomes, hstop⟩

/-- A page with an odd element around the field that speaks most for a name, and a plain field for a
name beside it. -/
def oddMarkup : String :=
  "<form><my.field><input name=username type=email></my.field><input name=user><input name=pwd type=password><button>Sign in</button></form>"

theorem byteLength_oddMarkup : Text.byteLength oddMarkup.toList < 2 ^ 63 := by
  decide +kernel

theorem comesUpon_oddMarkup : ∃ e,
    ComesUpon (.showing oddMarkup) .username "/html/body/form/my.field/input" e := by
  have hbest : ∃ place ∈ (Document.parse oddMarkup).places,
      isSuitable .username place = true ∧ place.absolutePath = "/html/body/form/my.field/input" ∧
        ∀ other ∈ (Document.parse oddMarkup).places, isSuitable .username other = true →
          ScoresBelow .username (.parse oddMarkup) other place := by
    decide +kernel
  obtain ⟨place, hplace, hsuitable, hpath, hbelow⟩ := hbest
  obtain ⟨candidate, rest, hrank, rfl⟩ :=
    exists_rank_eq_cons byteLength_oddMarkup hplace hsuitable fun other hother hsuitable =>
      (hbelow other hother hsuitable).eq_or_comesBefore (isNumbered_parse _) hother hplace
  have hparse : (Locator.parse "/html/body/form/my.field/input").toBool = false := by
    decide +kernel
  rcases hresult : Locator.parse "/html/body/form/my.field/input" with e | expression
  · refine ⟨e, [], rest.map (·.place.absolutePath), ?_, by simp, List.not_mem_nil, hresult⟩
    rw [paths, Page.markup_showing, hrank, List.map_cons, hpath, List.nil_append]
  · rw [hresult] at hparse
    cases hparse

/-- The field beside the odd element can be seen and is a candidate, but nothing is found on the
page. -/
theorem find_fails_beside_shown_field :
    (Page.showing oddMarkup).Arises ∧ (Page.showing oddMarkup).fixture.broken = [] ∧
      "/html/body/form/input[1]" ∈ paths (.showing oddMarkup) .username ∧
      (Page.showing oddMarkup).sight "/html/body/form/input[1]" = .ok true ∧
      ¬∃ found last, find.Yields Page.handle ⟨.showing oddMarkup, 0⟩ found last := by
  have hplain : ∃ place ∈ (Document.parse oddMarkup).places,
      place.absolutePath = "/html/body/form/input[1]" ∧ isSuitable .username place = true ∧
        IsAddressable place ∧ Page.visible place = true := by
    decide +kernel
  obtain ⟨place, hplace, hpath, hsuitable, hnames, hvisible⟩ := hplain
  have harises := Page.arises_showing oddMarkup
  refine ⟨harises, rfl, ?_, ?_, ?_⟩
  · have hmem := (mem_map_place_rank_iff byteLength_oddMarkup).2 ⟨hplace, hsuitable⟩
    obtain ⟨candidate, hcandidate, rfl⟩ := List.mem_map.1 hmem
    rw [paths, Page.markup_showing, ← hpath]
    exact List.mem_map_of_mem hcandidate
  · have hmarkup := byteLength_oddMarkup
    rw [← Page.markup_showing oddMarkup] at hmarkup hplace
    rw [← hpath, sight_eq_visible harises rfl rfl hmarkup hplace hnames, hvisible]
  · rintro ⟨found, last, hyields⟩
    obtain ⟨e, hcomes⟩ := comesUpon_oddMarkup
    have hlocate := (find_yields_iff.1 hyields).2 .username
    exact (exists_locate_iff rfl).1 ⟨_, hlocate⟩ _ _ hcomes

/-- The search on the page fails with the path of the odd field. -/
theorem find_fails_at_odd_field :
    (Page.showing oddMarkup).fixture.broken = [] ∧
      ∃ e : Unsupported, find.after Page.handle ⟨.showing oddMarkup, 0⟩ =
        (.error (.refused (.invalidLocator "/html/body/form/my.field/input" e.message)),
          ⟨.showing oddMarkup, 0⟩) := by
  obtain ⟨-, -, hfails, -⟩ := find_fails_exactly_at_refused_path (.showing oddMarkup) 0 rfl
  obtain ⟨e, hcomes⟩ := comesUpon_oddMarkup
  refine ⟨rfl, e, (hfails _ _).2 ⟨rfl, [], .username, [.password, .submitButton], _, e, rfl, ?_, hcomes,
    rfl⟩⟩
  exact fun _ hearlier => absurd hearlier List.not_mem_nil

end KeepAlive.Form
