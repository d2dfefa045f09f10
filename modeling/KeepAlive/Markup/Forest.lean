/-!
# Trees of markup

The nodes of a document are numbered in the order in which they are made.  A forest is a node with
the siblings that follow it; the children of an element are again a forest.
-/

namespace KeepAlive.Markup

/-- The name of an element and its attributes, in the order of the source. -/
structure Element where
  tag : String
  attributes : List (String × String) := []
  deriving DecidableEq, Repr, Inhabited

/-- The value of an attribute. -/
def Element.attribute? (element : Element) (name : String) : Option String :=
  element.attributes.lookup name

/-- Nodes that follow one another below the same parent. -/
inductive Forest
  | nil
  | text (id : Nat) (content : String) (next : Forest)
  | element (id : Nat) (head : Element) (children next : Forest)
  deriving DecidableEq, Repr, Inhabited

/-- One node of a forest. -/
inductive Node
  | text (id : Nat) (content : String)
  | element (id : Nat) (head : Element) (children : Forest)
  deriving DecidableEq, Repr

namespace Node

/-- The number of a node. -/
def id : Node → Nat
  | .text id _ => id
  | .element id _ _ => id

/-- The name of an element. -/
def tag? : Node → Option String
  | .text .. => none
  | .element _ head _ => some head.tag

/-- The characters of a text. -/
def content? : Node → Option String
  | .text _ content => some content
  | .element .. => none

end Node

namespace Forest

/-- A node in front of the others. -/
def cons : Node → Forest → Forest
  | .text id content, next => .text id content next
  | .element id head children, next => .element id head children next

/-- The nodes of a forest, without those below them. -/
def toList : Forest → List Node
  | .nil => []
  | .text id content next => .text id content :: next.toList
  | .element id head children next => .element id head children :: next.toList

/-- The forest of the given nodes. -/
def ofList (nodes : List Node) : Forest :=
  nodes.foldr cons .nil

@[simp] theorem toList_cons (node : Node) (forest : Forest) :
    (cons node forest).toList = node :: forest.toList := by
  cases node <;> rfl

@[simp] theorem toList_ofList (nodes : List Node) : (ofList nodes).toList = nodes := by
  induction nodes with
  | nil => rfl
  | cons node rest ih => simpa [ofList] using ih

@[simp] theorem ofList_toList (forest : Forest) : ofList forest.toList = forest := by
  induction forest with
  | nil => rfl
  | text id content next ih => simpa [ofList, toList, cons] using ih
  | element id head children next _ ih => simpa [ofList, toList, cons] using ih

/-- The nodes of `reversed`, last first, in front of `forest`. -/
def reverseOnto : (reversed forest : Forest) → Forest
  | .nil, forest => forest
  | .text id content next, forest => next.reverseOnto (.text id content forest)
  | .element id head children next, forest =>
    next.reverseOnto (.element id head children forest)

theorem toList_reverseOnto (reversed forest : Forest) :
    (reversed.reverseOnto forest).toList = reversed.toList.reverse ++ forest.toList := by
  induction reversed generalizing forest with
  | nil => rfl
  | text id content next ih => simp [reverseOnto, ih, toList]
  | element id head children next _ ih => simp [reverseOnto, ih, toList]

/-- The forest with its nodes in the opposite order. -/
def reverse (forest : Forest) : Forest :=
  forest.reverseOnto .nil

@[simp] theorem toList_reverse (forest : Forest) :
    forest.reverse.toList = forest.toList.reverse := by
  simp [reverse, toList_reverseOnto, toList]

/-- The number of nodes, those below included. -/
def size : Forest → Nat
  | .nil => 0
  | .text _ _ next => next.size + 1
  | .element _ _ children next => children.size + next.size + 1

/-- The numbers of all nodes in document order. -/
def ids : Forest → List Nat
  | .nil => []
  | .text id _ next => id :: next.ids
  | .element id _ children next => id :: (children.ids ++ next.ids)

theorem length_ids (forest : Forest) : forest.ids.length = forest.size := by
  induction forest with
  | nil => rfl
  | text id content next ih => simp [ids, size, ih]
  | element id head children next ihc ihn => simp [ids, size, ihc, ihn]

/-- How many elements have the tag, those below included. -/
def countTag (tag : String) : Forest → Nat
  | .nil => 0
  | .text _ _ next => next.countTag tag
  | .element _ head children next =>
    (if head.tag = tag then 1 else 0) + children.countTag tag + next.countTag tag

/-- Whether one of the nodes, not below them, is an element with the tag. -/
def hasTop (tag : String) (forest : Forest) : Bool :=
  forest.toList.any (·.tag? = some tag)

end Forest

end KeepAlive.Markup
