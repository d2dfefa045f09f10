import KeepAlive.Form.Rules
import KeepAlive.Markup.Document

/-!
# Clues

A clue is a reason to take elements for a field.  It is written as a locator, and it speaks for the
elements that the locator designates.  Which clues there are depends on the elements of the page.
-/

namespace KeepAlive.Form

open Markup

/-- A reason to take elements for a field. -/
inductive Clue
  | hasTag (tag : String)
  | hasType (tag kind : String)
  | hasAttribute (tag name value : String)
  | hasText (tag value : String)
  /-- The label of the element with this position among those of its tag, from 1. -/
  | isLabelled (tag : String) (position : Nat)
  deriving DecidableEq, Repr

namespace Clue

/-- The locator of the elements that the clue speaks for. -/
def locator : Clue → String
  | .hasTag tag => "//" ++ tag
  | .hasType tag kind => "//" ++ tag ++ "[@type='" ++ kind ++ "']"
  | .hasAttribute tag name value => "//" ++ tag ++ "[@" ++ name ++ " = '" ++ value ++ "']"
  | .hasText tag value => "//" ++ tag ++ "[text() = '" ++ value ++ "']"
  | .isLabelled tag position => "(//" ++ tag ++ ")[" ++ toString position ++ "]"

end Clue

/-- Whether a text mentions one of the words. -/
def mentionsAny (words : List String) (text : String) : Bool :=
  words.any (Text.mentions text)

/-- Whether a text can stand between the quotes of a locator. -/
def isQuotable (text : String) : Bool :=
  !text.toList.contains '\'' && !text.toList.contains '"'

/-- The clue that one property of an element gives for one of the words, if any. -/
def clueOf (tag word : String) (property : Property) (place : Place) : Option Clue :=
  let value := match property with
    | .attribute name => place.attribute? name
    | .text => place.here.ownText
  match value with
  | none => none
  | some value =>
    if Text.mentions value word && isQuotable value then
      match property with
      | .attribute name => some (.hasAttribute tag name value)
      | .text => some (.hasText tag value)
    else none

/-- The clues that the properties of some elements give, each with its weight, in the order in which
they are found: by word, by property, by element. -/
def propertyClues (rules : Rules) (tag : String) (places : List Place) : List (Clue × Nat) :=
  rules.aliases.flatMap fun word =>
    rules.properties.flatMap fun (property, weight) =>
      places.filterMap fun place => (clueOf tag word property place).map (·, weight)

/-- The outermost of the elements around a field with no second element of its tag in it; the
innermost of them in any case. -/
def container (tag : String) : List Level → Option Level
  | [] => none
  | [only] => some only
  | inner :: outer :: more =>
    if outer.children.countTag tag > 1 then some inner else container tag (outer :: more)

/-- The text in front of everything else in a node. -/
def leadingText : Node → Option String
  | .text .. => none
  | .element _ _ children => children.toList.head?.bind Node.content?

/-- Whether the container of a field, or a child of the container, starts with a text that mentions
one of the words. -/
def isLabelled (rules : Rules) (tag : String) (place : Place) : Bool :=
  match container tag place.above with
  | none => false
  | some around =>
    around.ownText.any (mentionsAny rules.aliases) ||
      around.children.toList.any fun child =>
        (leadingText child).any (mentionsAny rules.aliases)

/-- The clues that the labels of the elements with a tag give. -/
def labelClues (rules : Rules) (tag : String) (places : List Place) : List (Clue × Nat) :=
  (places.zipIdx.filter fun (place, _) => isLabelled rules tag place).map fun (_, position) =>
    (.isLabelled tag (position + 1), labelBonus)

/-- The clues for the elements with a tag, beyond the tag itself. -/
def cluesAmong (rules : Rules) (tag : String) (places : List Place) : List (Clue × Nat) :=
  (rules.types.map fun (kind, weight) => (.hasType tag kind, weight)) ++
    propertyClues rules tag places ++ labelClues rules tag places

/-- All clues for a field, each with its weight: first the tags, then what else speaks for the elements
with a tag, tag by tag. -/
def clues (rules : Rules) (document : Document) : List (Clue × Nat) :=
  (rules.tags.map fun (tag, weight) => (.hasTag tag, weight)) ++
    rules.tags.flatMap fun (tag, _) =>
      cluesAmong rules tag (document.places.filter (·.tag = tag))

end KeepAlive.Form
