import KeepAlive.Locator.Reader
import KeepAlive.Markup.Document

/-!
# The elements that a locator designates

Each step goes from some nodes, at first the document itself, to the elements below them that pass its
name test and its conditions.  The result is in document order, every element once.
-/

namespace KeepAlive.Locator

open Markup

/-- Whether `part` occurs in `whole`. -/
def contains (whole part : String) : Bool :=
  Text.occurs part.toList whole.toList

/-- A node where a step starts, the document or an element: what is around its children, nearest
first, and the children. -/
structure Origin where
  around : List Level
  inside : Forest

namespace Origin

/-- The document, where every path starts. -/
def ofDocument (document : Document) : Origin :=
  ⟨[], document.top⟩

/-- An element, where a path goes on. -/
def ofPlace (place : Place) : Origin :=
  ⟨place.here :: place.above, place.here.children⟩

/-- The place of a child that is an element. -/
def place? (origin : Origin) : Node → Option Place
  | .text .. => none
  | .element id head children => some ⟨⟨id, head, children, origin.inside⟩, origin.around⟩

/-- The children that are elements. -/
def children (origin : Origin) : List Place :=
  origin.inside.toList.filterMap origin.place?

/-- The elements below the node, in document order. -/
def below (origin : Origin) : List Place :=
  placesAmong origin.around origin.inside origin.inside

end Origin

/-- The children of an element's parent that are elements, itself included. -/
def siblings (place : Place) : List Place :=
  Origin.children ⟨place.above, place.here.siblings⟩

/-- Whether a condition holds of an element.  A position counts the siblings that pass the test. -/
def Condition.holds (test : Place → Bool) : Condition → Place → Bool
  | .position n, place =>
    (((siblings place).filter test).findIdx? (·.id = place.id)).map (· + 1) = some n
  | .hasAttribute name, place => (place.attribute? name).isSome
  | .attributeIs name value, place => place.attribute? name = some value
  | .attributeContains name value, place => (place.attribute? name).any (contains · value)
  | .textIs value, place => place.here.texts.contains value
  | .textContains value, place => place.here.texts.any (contains · value)

/-- Whether an element passes the test and all conditions.  For each condition the test is that the
element passes what stands before it. -/
def passes (test : Place → Bool) : List Condition → Place → Bool
  | [], place => test place
  | condition :: more, place =>
    passes (fun other => test other && condition.holds test other) more place

/-- Whether a step's name test takes the element. -/
def Step.names (step : Step) (place : Place) : Bool :=
  step.name.all (· = place.tag)

/-- Whether a step takes the element, once it has led there. -/
def Step.takes (step : Step) (place : Place) : Bool :=
  passes step.names step.conditions place

/-- The elements that a step looks at from a node. -/
def Step.candidates (step : Step) (origin : Origin) : List Place :=
  if step.deep then origin.below else origin.children

/-- An element with those that have been found, unless it is one of them. -/
def found (places : List Place) (place : Place) : List Place :=
  if places.any (·.id = place.id) then places else places ++ [place]

/-- What a step finds from some nodes, one after the other. -/
def Step.finds (step : Step) (origins : List Origin) : List Place :=
  origins.foldl (fun places origin => ((step.candidates origin).filter step.takes).foldl found places)
    []

/-- The elements in document order. -/
def inOrder (document : Document) (places : List Place) : List Place :=
  let order := fun place : Place => document.places.findIdx (·.id = place.id)
  ((places.map fun place => (order place, place)).mergeSort fun a b => decide (a.1 ≤ b.1)).map (·.2)

/-- The elements where a path ends that starts from some nodes. -/
def follow (document : Document) (origins : List Origin) : List Step → List Place
  | [] => []
  | [last] => inOrder document (last.finds origins)
  | step :: next :: more =>
    follow document ((inOrder document (step.finds origins)).map Origin.ofPlace) (next :: more)

/-- The elements that an expression designates. -/
def Expression.select (expression : Expression) (document : Document) : List Place :=
  let matched := follow document [Origin.ofDocument document] expression.steps
  match expression.index with
  | none => matched
  | some 0 => []
  | some (n + 1) => matched[n]?.toList

/-- The elements that a locator designates. -/
def select (document : Document) (locator : String) : Except Unsupported (List Place) :=
  match parse locator with
  | .error e => .error e
  | .ok expression => .ok (expression.select document)

end KeepAlive.Locator
