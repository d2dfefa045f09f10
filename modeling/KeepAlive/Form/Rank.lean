import KeepAlive.Form.Clue
import KeepAlive.Locator.Select

/-!
# Ranking the elements of a page

Each clue counts for the elements that its locator designates, but not twice for the same element.
What is not marked hidden is a candidate, and being inside a form counts as well.  The ranking goes from
the highest score to the lowest; elements of equal score stay in the order in which they were found.
-/

namespace KeepAlive.Form

open Markup

/-- An element with its score and the locators that contributed to it. -/
structure Candidate where
  place : Place
  score : Nat
  evidence : List String
  deriving Repr

/-- Counts a locator for a candidate, unless it has been counted. -/
def Candidate.collect (locator : String) (weight : Nat) (candidate : Candidate) : Candidate :=
  if candidate.evidence.contains locator then candidate
  else
    { candidate with
      score := candidate.score + weight
      evidence := candidate.evidence ++ [locator] }

/-- Counts a locator for an element, which becomes a candidate if it has not been one. -/
def add (locator : String) (weight : Nat) (candidates : List Candidate) (place : Place) :
    List Candidate :=
  if candidates.any (·.place.id = place.id) then
    candidates.map fun candidate =>
      if candidate.place.id = place.id then candidate.collect locator weight else candidate
  else candidates ++ [⟨place, weight, [locator]⟩]

/-- Counts a locator for every element that it designates. -/
def addDesignated (document : Document) (candidates : List Candidate) (locator : String)
    (weight : Nat) : List Candidate :=
  match Locator.select document locator with
  | .ok places => places.foldl (add locator weight) candidates
  | .error _ => candidates

/-- Whether the element says of itself that it is not shown. -/
def isMarkedHidden (place : Place) : Bool :=
  (place.attribute? "hidden").isSome || place.attribute? "type" = some "hidden"

/-- Whether there is a form around the element. -/
def isInForm (place : Place) : Bool :=
  place.above.any (·.head.tag = "form")

/-- The elements for which clues speak, in the order in which they are found. -/
def scored (document : Document) (field : Field) : List Candidate :=
  (clues (rules field) document).foldl
    (fun candidates (clue, weight) => addDesignated document candidates clue.locator weight) []

/-- Counts being inside a form, for which the path of the element itself stands. -/
def addForms (candidates : List Candidate) : List Candidate :=
  ((candidates.map (·.place)).filter isInForm).foldl
    (fun candidates place => add place.absolutePath formBonus candidates place) candidates

/-- The candidates for a field, best first. -/
def rank (document : Document) (field : Field) : List Candidate :=
  (addForms ((scored document field).filter fun candidate => !isMarkedHidden candidate.place)).mergeSort
    fun a b => decide (b.score ≤ a.score)

end KeepAlive.Form
