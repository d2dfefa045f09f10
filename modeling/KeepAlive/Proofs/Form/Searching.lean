import KeepAlive.Form.Find
import KeepAlive.Proofs.Browser.Scene
import KeepAlive.Proofs.Browser.Viewing

/-!
# Searching a page for the form

The search leaves the window as it is.  For each field it looks at the paths of the candidates, best
first, up to one that is visible; the fields do not depend on each other, but a refusal ends the search
for all of them.
-/

namespace KeepAlive.Form

open Browser

/-- The paths of the candidates for a field on a page, best first. -/
def paths (page : Page) (field : Field) : List String :=
  (rank (.parse page.markup) field).map (·.place.absolutePath)

/-- What comes of looking for one field. -/
def locate (page : Page) (field : Field) : Except Stop (Option String) :=
  page.seek (paths page field)

/-- What comes of looking for some fields, one after the other. -/
def locateAll (page : Page) (fields : List Field) (found : Locators) : Except Stop Locators :=
  fields.foldlM (fun found field => (locate page field).map (found.set field)) found

theorem ext_get {found other : Locators} (h : ∀ field, found.get field = other.get field) :
    found = other := by
  obtain ⟨username, password, submitButton⟩ := found
  have husername := h .username
  have hpassword := h .password
  have hsubmit := h .submitButton
  cases other
  simp only [Locators.get] at husername hpassword hsubmit
  rw [husername, hpassword, hsubmit]

section Fields

variable {page : Page} {fields : List Field} {found result : Locators} {stop : Stop}

theorem locateAll_cons (field : Field) : locateAll page (field :: fields) found =
    match locate page field with
    | .ok locator => locateAll page fields (found.set field locator)
    | .error stop => .error stop := by
  unfold locateAll
  rw [List.foldlM_cons]
  cases locate page field <;> rfl

theorem locateAll_eq_ok_iff (hnodup : fields.Nodup) : locateAll page fields found = .ok result ↔
    ∀ field, if field ∈ fields then locate page field = .ok (result.get field)
      else result.get field = found.get field := by
  induction fields generalizing found with
  | nil =>
    simp only [List.not_mem_nil, if_false]
    constructor
    · intro h field
      cases h
      rfl
    · exact fun h => congrArg Except.ok (ext_get h).symm
  | cons field fields ih =>
    obtain ⟨hfield, hnodup⟩ := List.nodup_cons.1 hnodup
    rw [locateAll_cons]
    rcases hlocate : locate page field with refused | locator
    · refine iff_of_false (fun h => nomatch h) (fun h => ?_)
      have hself := h field
      rw [if_pos List.mem_cons_self, hlocate] at hself
      cases hself
    · dsimp only
      rw [ih hnodup]
      refine forall_congr' fun other => ?_
      by_cases hother : other = field
      · subst hother
        rw [if_neg hfield, if_pos List.mem_cons_self, Locators.get_set, if_pos rfl, hlocate,
          Except.ok.injEq, eq_comm]
      · simp only [Locators.get_set, if_neg hother, List.mem_cons, or_iff_right hother]

/-- Looking for some fields fails by the first of them for which it does. -/
theorem locateAll_eq_error_iff : locateAll page fields found = .error stop ↔
    ∃ before field after, fields = before ++ field :: after ∧
      (∀ other ∈ before, ∃ locator, locate page other = .ok locator) ∧
      locate page field = .error stop := by
  induction fields generalizing found with
  | nil =>
    constructor
    · intro h
      cases h
    · rintro ⟨before, field, after, heq, -⟩
      simp at heq
  | cons field fields ih =>
    rw [locateAll_cons]
    rcases hlocate : locate page field with refused | locator
    · constructor
      · intro h
        cases h
        exact ⟨[], field, fields, rfl, fun _ hother => absurd hother List.not_mem_nil, hlocate⟩
      · rintro ⟨_ | ⟨first, before⟩, other, after, heq, hbefore, hother⟩
        · cases heq
          rw [hlocate] at hother
          cases hother
          rfl
        · cases heq
          obtain ⟨locator, hfirst⟩ := hbefore field List.mem_cons_self
          rw [hlocate] at hfirst
          cases hfirst
    · dsimp only
      rw [ih]
      constructor
      · rintro ⟨before, other, after, rfl, hbefore, hother⟩
        exact ⟨field :: before, other, after, rfl,
          List.forall_mem_cons.2 ⟨⟨locator, hlocate⟩, hbefore⟩, hother⟩
      · rintro ⟨_ | ⟨first, before⟩, other, after, heq, hbefore, hother⟩
        · cases heq
          rw [hlocate] at hother
          cases hother
        · cases heq
          exact ⟨before, other, after, rfl, (List.forall_mem_cons.1 hbefore).2, hother⟩

end Fields

/-! ## The search as a session -/

section Sessions

variable (page : Page) (now : Nat)

theorem after_firstVisible (candidates : List Candidate) :
    (firstVisible candidates).after Page.handle ⟨page, now⟩ =
      (page.seek (candidates.map (·.place.absolutePath)), ⟨page, now⟩) := by
  induction candidates with
  | nil => rfl
  | cons candidate rest ih =>
    have hcall : Session.after Page.handle (Session.call (.isVisible candidate.place.absolutePath))
        ⟨page, now⟩ = (page.sight candidate.place.absolutePath, ⟨page, now⟩) := rfl
    rw [firstVisible, Session.after_bind, hcall, List.map_cons, Page.seek_cons]
    rcases page.sight candidate.place.absolutePath with stop | _ | _
    · rfl
    · exact ih
    · rfl

theorem after_findIn (fields : List Field) (found : Locators) :
    (findIn (.parse page.markup) fields found).after Page.handle ⟨page, now⟩ =
      (locateAll page fields found, ⟨page, now⟩) := by
  induction fields generalizing found with
  | nil => rfl
  | cons field fields ih =>
    rw [findIn, Session.after_bind, after_firstVisible, locateAll_cons]
    have hlocate : page.seek ((rank (.parse page.markup) field).map (·.place.absolutePath)) =
        locate page field := rfl
    rw [hlocate]
    cases locate page field with
    | error stop => rfl
    | ok locator => exact ih _

theorem after_find : find.after Page.handle ⟨page, now⟩ =
    (locateAll page Field.all {}, ⟨page, now⟩) := by
  unfold find
  rw [Session.after_bind]
  exact after_findIn page now Field.all {}

variable {page now} {found : Locators} {last : Scene Page} {stop : Stop}

/-- The search comes to a result when it does so for each field. -/
theorem find_yields_iff : find.Yields Page.handle ⟨page, now⟩ found last ↔
    last = ⟨page, now⟩ ∧ ∀ field, locate page field = .ok (found.get field) := by
  have hall : locateAll page Field.all {} = .ok found ↔ _ :=
    locateAll_eq_ok_iff (show Field.all.Nodup by decide)
  simp only [Field.mem_all, if_true] at hall
  rw [Session.Yields, after_find, Prod.mk.injEq, hall, and_comm, eq_comm (a := last)]

theorem find_after_eq_error_iff : find.after Page.handle ⟨page, now⟩ = (.error stop, last) ↔
    last = ⟨page, now⟩ ∧ ∃ before field after, Field.all = before ++ field :: after ∧
      (∀ other ∈ before, ∃ locator, locate page other = .ok locator) ∧
      locate page field = .error stop := by
  rw [after_find, Prod.mk.injEq, locateAll_eq_error_iff, and_comm, eq_comm (a := last)]

end Sessions

end KeepAlive.Form
