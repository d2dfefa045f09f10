/-!
# Locators

A locator designates elements of a document by a path of steps, each with a name test and further
conditions.  A path in parentheses may be followed by the position of the one element that is meant.
-/

namespace KeepAlive.Locator

/-- A condition on an element found by a step. -/
inductive Condition
  /-- Its position among those that the step has left of its siblings. -/
  | position (n : Nat)
  | hasAttribute (name : String)
  | attributeIs (name value : String)
  | attributeContains (name value : String)
  | textIs (value : String)
  | textContains (value : String)
  deriving DecidableEq, Repr

/-- One step of a path, to children or to everything below. -/
structure Step where
  deep : Bool
  /-- The tag asked for; `none` takes every element. -/
  name : Option String
  conditions : List Condition
  deriving DecidableEq, Repr

/-- A locator. -/
structure Expression where
  steps : List Step
  /-- The position, from 1, of the only element that is meant. -/
  index : Option Nat
  deriving DecidableEq, Repr

end KeepAlive.Locator
