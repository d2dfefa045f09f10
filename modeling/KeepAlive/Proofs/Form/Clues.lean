import KeepAlive.Form.Clue
import KeepAlive.Proofs.Locator.Path

/-!
# What clues designate

The locator of a clue is read as the expression that is meant by it, so it designates the elements that
the clue speaks for and no others, and different clues have different locators.
-/

namespace KeepAlive.Form

open Locator Markup
open Text (areBlank_nil areBlank_space)

/-- Whether the text is a name as locators have them, in small letters. -/
def IsName (name : String) : Prop :=
  WrittenName name name.toList

instance (name : String) : Decidable (IsName name) :=
  decidable_of_iff (name.toList ≠ [] ∧ name.toList.all Locator.inName = true ∧
    Text.asciiLower name.toList = name.toList) (by rw [List.all_eq_true]; rfl)

namespace Clue

/-- Whether a locator can be written for the clue: its names are names, its texts do not hold the quote
and its numbers are numbers.  The attribute `type` has clues of its own. -/
def IsSound : Clue → Prop
  | .hasTag tag => IsName tag
  | .hasType tag kind => IsName tag ∧ '\'' ∉ kind.toList
  | .hasAttribute tag name value => IsName tag ∧ IsName name ∧ '\'' ∉ value.toList ∧ name ≠ "type"
  | .hasText tag value => IsName tag ∧ '\'' ∉ value.toList
  | .isLabelled tag position => IsName tag ∧ position < numberBound

/-- The expression that the locator of the clue stands for. -/
def expression : Clue → Expression
  | .hasTag tag => ⟨[⟨true, some tag, []⟩], none⟩
  | .hasType tag kind => ⟨[⟨true, some tag, [.attributeIs "type" kind]⟩], none⟩
  | .hasAttribute tag name value => ⟨[⟨true, some tag, [.attributeIs name value]⟩], none⟩
  | .hasText tag value => ⟨[⟨true, some tag, [.textIs value]⟩], none⟩
  | .isLabelled tag position => ⟨[⟨true, some tag, []⟩], some position⟩

/-- Whether a clue speaks for an element of a document. -/
def speaksFor (document : Document) (place : Place) : Clue → Bool
  | .hasTag tag => place.tag = tag
  | .hasType tag kind => place.tag = tag && place.attribute? "type" = some kind
  | .hasAttribute tag name value => place.tag = tag && place.attribute? name = some value
  | .hasText tag value => place.tag = tag && place.here.texts.contains value
  | .isLabelled tag position =>
    position ≠ 0 && ((document.places.filter (·.tag = tag))[position - 1]?).any (·.id = place.id)

end Clue

/-! ## Reading the locators -/

section Reading

theorem writtenSteps_below {tag : String} {conditions : List Condition} {inside : List Char}
    (htag : IsName tag) (hinside : WrittenConditions conditions inside) :
    WrittenSteps [⟨true, some tag, conditions⟩] ('/' :: '/' :: (tag.toList ++ inside)) := by
  have hsteps : WrittenSteps [⟨true, some tag, conditions⟩]
      ([] ++ (slashes true ++ ([] ++ (tag.toList ++ (inside ++ []))))) :=
    .cons areBlank_nil areBlank_nil (.named htag) hinside .nil
  simpa [slashes] using hsteps

theorem writtenString_quoted {value : String} (h : '\'' ∉ value.toList) :
    WrittenString value ('\'' :: (value.toList ++ ['\''])) :=
  ⟨'\'', .inr rfl, h, rfl⟩

theorem writtenConditions_is {looked : Subject} {value : String} {s between : List Char}
    (hlooked : WrittenSubject looked s) (hbetween : Text.AreBlank between)
    (hvalue : '\'' ∉ value.toList) :
    WrittenConditions [looked.is value]
      ('[' :: (s ++ (between ++ '=' :: (between ++ '\'' :: (value.toList ++ ['\'', ']']))))) := by
  have hconditions : WrittenConditions [looked.is value] ([] ++ '[' :: ([] ++
      ((s ++ (between ++ '=' :: (between ++ '\'' :: (value.toList ++ ['\''])))) ++ ([] ++ ']' :: [])))) :=
    .cons areBlank_nil areBlank_nil
      (.is hlooked hbetween hbetween (writtenString_quoted hvalue)) areBlank_nil .nil
  simpa using hconditions

theorem isName_type : IsName "type" := by
  decide

/-- The locator of a clue is written for its expression. -/
theorem Clue.writtenExpression {clue : Clue} (h : clue.IsSound) :
    WrittenExpression clue.expression clue.locator.toList := by
  have hpath {steps : List Step} {s : List Char} (hsome : steps ≠ []) (hsteps : WrittenSteps steps s) :
      WrittenExpression ⟨steps, none⟩ s := by
    simpa using WrittenExpression.path hsome hsteps areBlank_nil
  have hattribute {name : String} (hname : IsName name) :
      WrittenSubject (.attribute name) ('@' :: name.toList) :=
    .named areBlank_nil hname
  cases clue with
  | hasTag tag =>
    have hsteps := writtenSteps_below h .nil
    refine hpath (List.cons_ne_nil _ _) ?_
    simpa [locator] using hsteps
  | hasType tag kind =>
    have hsteps := writtenSteps_below h.1
      (writtenConditions_is (hattribute isName_type) areBlank_nil h.2)
    refine hpath (List.cons_ne_nil _ _) ?_
    simpa [locator, Subject.is] using hsteps
  | hasAttribute tag name value =>
    have hsteps := writtenSteps_below h.1
      (writtenConditions_is (hattribute h.2.1) areBlank_space h.2.2.1)
    refine hpath (List.cons_ne_nil _ _) ?_
    simpa [locator, Subject.is] using hsteps
  | hasText tag value =>
    have hsteps := writtenSteps_below h.1 (writtenConditions_is .text areBlank_space h.2)
    refine hpath (List.cons_ne_nil _ _) ?_
    simpa [locator, Subject.is] using hsteps
  | isLabelled tag position =>
    have hsteps := writtenSteps_below h.1 .nil
    have hexpression := WrittenExpression.indexed areBlank_nil (List.cons_ne_nil _ _) hsteps
      areBlank_nil areBlank_nil areBlank_nil (writtenNumber_toString h.2) areBlank_nil areBlank_nil
    simpa [locator, expression] using hexpression

theorem Clue.parse_locator {clue : Clue} (h : clue.IsSound) :
    parse clue.locator = .ok clue.expression :=
  parse_of_writtenExpression (writtenExpression h)

/-- Clues with the same locator are the same. -/
theorem Clue.eq_of_locator_eq {clue other : Clue} (hclue : clue.IsSound) (hother : other.IsSound)
    (h : clue.locator = other.locator) : clue = other := by
  have hexpression : clue.expression = other.expression := by
    have hparse := parse_locator hclue
    rw [h, parse_locator hother] at hparse
    exact (Except.ok.inj hparse).symm
  cases clue with
  | hasTag | hasText | isLabelled => cases other <;> cases hexpression; rfl
  | hasType tag kind =>
    cases other with
    | hasAttribute tag name value =>
      cases hexpression
      exact absurd rfl hother.2.2.2
    | hasTag | hasText | isLabelled => cases hexpression
    | hasType =>
      cases hexpression
      rfl
  | hasAttribute tag name value =>
    cases other with
    | hasType tag kind =>
      cases hexpression
      exact absurd rfl hclue.2.2.2
    | hasTag | hasText | isLabelled => cases hexpression
    | hasAttribute =>
      cases hexpression
      rfl

/-- No clue has a path from the top of a document for its locator. -/
theorem Clue.locator_ne_absolutePath (clue : Clue) {markup : String} {place : Place}
    (hplace : place ∈ (Document.parse markup).places) : clue.locator ≠ place.absolutePath := by
  obtain ⟨c, rest, hpath, hc⟩ := exists_absolutePath_eq hplace
  intro h
  have hlocator := congrArg String.toList h
  rw [hpath] at hlocator
  cases clue with
  | hasTag | hasType | hasAttribute | hasText =>
    simp only [locator, String.toList_append, List.append_assoc] at hlocator
    exact hc (List.cons.inj (List.cons.inj hlocator).2).1.symm
  | isLabelled tag position =>
    simp only [locator, String.toList_append, List.append_assoc] at hlocator
    exact absurd (List.cons.inj hlocator).1 (by decide)

end Reading

/-! ## Selecting -/

section Selecting

variable {document : Document}

/-- The elements that one step leads to from the document, wherever they are. -/
theorem follow_everywhere (h : IsNumbered document.size document.top.ids) {step : Step}
    (hdeep : step.deep = true) :
    follow document [Origin.ofDocument document] [step] = document.places.filter step.takes := by
  have hroot := Origin.isIn_ofDocument document
  refine follow_eq h [step] (List.forall_mem_singleton.2 hroot) fun place hplace => ?_
  have hcandidate : place ∈ step.candidates (Origin.ofDocument document) := by
    rw [Step.candidates, if_pos hdeep]
    exact hplace
  simp only [List.mem_singleton, exists_eq_left, reaches_singleton_iff, step.leads_iff h hroot,
    and_iff_right hcandidate]

theorem names_eq (tag : String) (conditions : List Condition) (place : Place) :
    Step.names ⟨true, some tag, conditions⟩ place = decide (place.tag = tag) :=
  decide_eq_decide.2 eq_comm

/-- The step to the elements with a tag. -/
theorem follow_tag (h : IsNumbered document.size document.top.ids) (tag : String) :
    follow document [Origin.ofDocument document] [⟨true, some tag, []⟩] =
      document.places.filter (·.tag = tag) := by
  rw [follow_everywhere h rfl]
  exact List.filter_congr fun place _ => names_eq tag [] place

/-- The locator of a tag designates the elements with the tag. -/
theorem select_hasTag (h : IsNumbered document.size document.top.ids) {tag : String}
    (htag : IsName tag) :
    select document (Clue.hasTag tag).locator = .ok (document.places.filter (·.tag = tag)) := by
  have hparse : parse (Clue.hasTag tag).locator = .ok (Clue.hasTag tag).expression :=
    Clue.parse_locator htag
  rw [select, hparse, ← follow_tag h tag]
  rfl

/-- What a clue that consists of one step speaks for is what the step takes. -/
theorem takes_eq_speaksFor {clue : Clue} {step : Step} (hclue : clue.expression = ⟨[step], none⟩) :
    step.deep = true ∧ ∀ place, step.takes place = clue.speaksFor document place := by
  cases clue with
  | hasTag tag =>
    cases hclue
    exact ⟨rfl, fun place => names_eq tag [] place⟩
  | hasType tag kind =>
    cases hclue
    exact ⟨rfl, fun place => congrArg (· && _) (names_eq tag _ place)⟩
  | hasAttribute tag name value =>
    cases hclue
    exact ⟨rfl, fun place => congrArg (· && _) (names_eq tag _ place)⟩
  | hasText tag value =>
    cases hclue
    exact ⟨rfl, fun place => congrArg (· && _) (names_eq tag _ place)⟩
  | isLabelled tag position => cases hclue

/-- The label with a position speaks for the element that has the position among those of its tag. -/
theorem speaksFor_isLabelled_iff (h : IsNumbered document.size document.top.ids)
    {place : Place} (hplace : place ∈ document.places) {tag : String} {index : Nat} :
    (Clue.isLabelled tag (index + 1)).speaksFor document place = true ↔
      (document.places.filter (·.tag = tag))[index]? = some place := by
  simp only [Clue.speaksFor, ne_eq, Nat.add_one_ne_zero, not_false_eq_true, decide_true,
    Bool.true_and, Nat.add_sub_cancel, Option.any_eq_true, decide_eq_true_eq]
  constructor
  · rintro ⟨other, hother, hid⟩
    have hlisted := (List.mem_filter.1 (List.mem_of_getElem? hother)).1
    rwa [eq_of_place_id_eq h hplace hlisted hid.symm]
  · exact fun hother => ⟨place, hother, rfl⟩

/-- The locator of a clue designates the elements that the clue speaks for, each once. -/
theorem select_locator (h : IsNumbered document.size document.top.ids) {clue : Clue}
    (hclue : clue.IsSound) :
    ∃ found, select document clue.locator = .ok found ∧ (found.map Place.id).Nodup ∧
      ∀ place, place ∈ found ↔ place ∈ document.places ∧ clue.speaksFor document place = true := by
  refine ⟨clue.expression.select document, by rw [select, Clue.parse_locator hclue], ?_⟩
  have hpath {step : Step} (hstep : clue.expression = ⟨[step], none⟩) :
      ((clue.expression.select document).map Place.id).Nodup ∧
        ∀ place, place ∈ clue.expression.select document ↔
          place ∈ document.places ∧ clue.speaksFor document place = true := by
    obtain ⟨hdeep, htakes⟩ : step.deep = true ∧
        ∀ place, step.takes place = clue.speaksFor document place := takes_eq_speaksFor hstep
    rw [hstep, Expression.select, follow_everywhere h hdeep]
    refine ⟨nodup_map_id_filter (nodup_map_id_places h) _, fun place => ?_⟩
    rw [List.mem_filter, htakes place]
  cases clue with
  | hasTag | hasType | hasAttribute | hasText => exact hpath rfl
  | isLabelled tag position =>
    rw [Clue.expression, Expression.select, follow_tag h]
    cases position with
    | zero => simp [Clue.speaksFor]
    | succ n =>
      have hone (only : Option Place) : (only.toList.map Place.id).Nodup := by
        cases only <;> simp
      refine ⟨hone _, fun place => ?_⟩
      rw [Option.mem_toList]
      constructor
      · intro hplace
        have hlisted := (List.mem_filter.1 (List.mem_of_getElem? hplace)).1
        exact ⟨hlisted, (speaksFor_isLabelled_iff h hlisted).2 hplace⟩
      · rintro ⟨hlisted, hspeaks⟩
        exact (speaksFor_isLabelled_iff h hlisted).1 hspeaks

end Selecting

end KeepAlive.Form
