import KeepAlive.Markup.Forest
import KeepAlive.Markup.Token

/-!
# Documents

Every text is a document: end tags that match nothing are passed over, elements left open end with
the text, and a missing `html` or `body` is put around the content.  Number 0 is the document
itself; the other nodes are numbered as they are made, the added elements last.
-/

namespace KeepAlive.Markup

/-- An element that is still open: what it is, and its elder siblings, nearest first. -/
structure Open where
  id : Nat
  head : Element
  elder : Forest

/-- An open element ends: it becomes the youngest of its siblings. -/
def Open.close (frame : Open) (children : Forest) : Forest :=
  .element frame.id frame.head children.reverse frame.elder

/-- Ends every open element and gives the top nodes. -/
def closeAll (current : Forest) : List Open → Forest
  | [] => current.reverse
  | frame :: frames => closeAll (frame.close current) frames

/-- Ends open elements up to and including the innermost one with the tag. -/
def closeThrough (tag : String) (current : Forest) : List Open → Forest × List Open
  | [] => (current, [])
  | frame :: frames =>
    if frame.head.tag = tag then (frame.close current, frames)
    else closeThrough tag (frame.close current) frames

/-- The element that a start tag makes. -/
def Element.ofTag (tag : List Char) (attributes : List (List Char × List Char)) : Element :=
  ⟨String.ofList tag, attributes.map fun (name, value) => (String.ofList name, String.ofList value)⟩

/-- Makes nodes from tokens.  `next` is the number of the next node, `current` holds the nodes made
so far inside the innermost open element, nearest first. -/
def grow (next : Nat) (current : Forest) (frames : List Open) : List Token → Forest × Nat
  | [] => (closeAll current frames, next)
  | .text content :: tokens =>
    grow (next + 1) (.text next (String.ofList content) current) frames tokens
  | .opening tag attributes leaf :: tokens =>
    if leaf then
      grow (next + 1) (.element next (Element.ofTag tag attributes) .nil current) frames tokens
    else
      grow (next + 1) .nil (⟨next, Element.ofTag tag attributes, current⟩ :: frames) tokens
  | .closing tag :: tokens =>
    if frames.any (·.head.tag = String.ofList tag) then
      let (outer, left) := closeThrough (String.ofList tag) current frames
      grow next outer left tokens
    else grow next current frames tokens

/-- The children of an `html` element with a `body` among them: a new one takes in all of them but
the `head` elements. -/
def withBody (next : Nat) (children : Forest) : Forest :=
  let (heads, others) := children.toList.partition (·.tag? = some "head")
  .ofList (heads ++ [.element next ⟨"body", []⟩ (.ofList others)])

/-- The top nodes, with a `body` in the first `html` element, and how many nodes that adds. -/
def completed (next : Nat) : Forest → Option (Forest × Nat)
  | .nil => none
  | .text id content rest =>
    (completed next rest).map fun (forest, added) => (.text id content forest, added)
  | .element id head children rest =>
    if head.tag = "html" then
      if children.hasTop "body" then some (.element id head children rest, 0)
      else some (.element id head (withBody next children) rest, 1)
    else
      (completed next rest).map fun (forest, added) => (.element id head children forest, added)

/-- A document: its top nodes, and the number of all nodes, itself included. -/
structure Document where
  top : Forest
  size : Nat
  deriving Repr, Inhabited

namespace Document

/-- The document that a markup text describes. -/
def ofMarkup (markup : List Char) : Document :=
  let (top, next) := grow 1 .nil [] (tokens markup)
  match completed next top with
  | some (forest, added) => ⟨forest, next + added⟩
  | none =>
    ⟨.element next ⟨"html", []⟩ (.element (next + 1) ⟨"body", []⟩ top .nil) .nil, next + 2⟩

/-- The document that a markup text describes. -/
def parse (markup : String) : Document :=
  ofMarkup markup.toList

end Document

/-! ## Every node with its parent and children -/

/-- What a node is. -/
inductive Kind
  | document
  | text (content : String)
  | element (head : Element)
  deriving DecidableEq, Repr

/-- A node with the numbers of its parent and its children. -/
structure Entry where
  id : Nat
  parent : Option Nat
  children : List Nat
  kind : Kind
  deriving DecidableEq, Repr

/-- The entries of all nodes of a forest below `parent`, in document order. -/
def Forest.entries (parent : Nat) : Forest → List Entry
  | .nil => []
  | .text id content next => ⟨id, some parent, [], .text content⟩ :: next.entries parent
  | .element id head children next =>
    ⟨id, some parent, children.toList.map Node.id, .element head⟩ ::
      (children.entries id ++ next.entries parent)

/-- The entries of all nodes of a document, in document order. -/
def Document.entries (document : Document) : List Entry :=
  ⟨0, none, document.top.toList.map Node.id, .document⟩ :: document.top.entries 0

/-! ## Elements in their place -/

/-- An element among its siblings. -/
structure Level where
  id : Nat
  head : Element
  children : Forest
  /-- All children of its parent, itself included. -/
  siblings : Forest
  deriving Repr

/-- An element with the elements around it, nearest first. -/
structure Place where
  here : Level
  above : List Level
  deriving Repr

/-- The places of all elements of a forest, the younger part of `siblings`, in document order. -/
def placesAmong (above : List Level) (siblings : Forest) : Forest → List Place
  | .nil => []
  | .text _ _ next => placesAmong above siblings next
  | .element id head children next =>
    let here : Level := ⟨id, head, children, siblings⟩
    ⟨here, above⟩ ::
      (placesAmong (here :: above) children children ++ placesAmong above siblings next)

/-- The places of all elements of a document, in document order. -/
def Document.places (document : Document) : List Place :=
  placesAmong [] document.top document.top

namespace Level

/-- The characters of the texts that are children of the element. -/
def texts (level : Level) : List String :=
  level.children.toList.filterMap Node.content?

/-- The text in front of everything else in the element. -/
def ownText (level : Level) : Option String :=
  level.children.toList.head?.bind Node.content?

/-- The siblings that have the same tag. -/
def namesakes (level : Level) : List Node :=
  level.siblings.toList.filter (·.tag? = some level.head.tag)

/-- The step of an absolute path that leads to the element: its tag, with its position among its
namesakes if it has any others. -/
def segment (level : Level) : String :=
  if level.namesakes.length > 1 then
    level.head.tag ++ "[" ++
      toString (level.namesakes.findIdx (·.id = level.id) + 1) ++ "]"
  else level.head.tag

end Level

namespace Place

/-- The number of the element. -/
def id (place : Place) : Nat :=
  place.here.id

/-- The name of the element. -/
def tag (place : Place) : String :=
  place.here.head.tag

/-- The value of one of the element's attributes. -/
def attribute? (place : Place) (name : String) : Option String :=
  place.here.head.attribute? name

/-- The number of the parent, which may be the document. -/
def parentId (place : Place) : Nat :=
  match place.above with
  | [] => 0
  | level :: _ => level.id

/-- The path from the top of the document to the element. -/
def absolutePath (place : Place) : String :=
  "/" ++ "/".intercalate ((place.here :: place.above).map Level.segment).reverse

end Place

end KeepAlive.Markup
