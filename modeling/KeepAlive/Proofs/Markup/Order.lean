import KeepAlive.Proofs.Markup.Numbers
import Mathlib.Data.List.Nodup
import Mathlib.Logic.Relation
import Mathlib.Order.Interval.Set.Defs
import Mathlib.Data.Set.Function

/-!
# Document order

The nodes of a document can be looked up by their numbers.  A walk that keeps the nodes to visit on a
stack, and puts the children of each visited node on top, visits them in document order: a parent
before all that is below it, and all that is below a child before the next child.
-/

namespace KeepAlive.Markup

/-- The name of an element. -/
def Kind.tag? : Kind → Option String
  | .element head => some head.tag
  | _ => none

namespace Document

/-! ### Looking up nodes -/

/-- The node with the number. -/
def node? (document : Document) (id : Nat) : Option Entry :=
  document.entries.find? (·.id = id)

/-- The numbers of the children of a node. -/
def childrenOf (document : Document) (id : Nat) : List Nat :=
  ((document.node? id).map Entry.children).getD []

/-- The name of a node that is an element. -/
def tag? (document : Document) (id : Nat) : Option String :=
  (document.node? id).bind (·.kind.tag?)

/-- Whether a node is a child of another. -/
def IsChild (document : Document) (parent child : Nat) : Prop :=
  child ∈ document.childrenOf parent

/-- The nodes that a walk visits in at most so many steps, from the nodes on its stack. -/
def visited (document : Document) : (steps : Nat) → (stack : List Nat) → List Nat
  | 0, _ => []
  | _ + 1, [] => []
  | steps + 1, id :: stack => id :: document.visited steps (document.childrenOf id ++ stack)

/-- The place of a node in the walk through the whole document. -/
def order (document : Document) (id : Nat) : Nat :=
  (document.visited document.size [0]).idxOf id

/-- The elements below a node, in the order of a walk through them. -/
def descendants (document : Document) (id : Nat) : List Nat :=
  (document.visited document.size (document.childrenOf id)).filter fun below =>
    (document.tag? below).isSome

/-! ### Entries of numbered documents -/

section Numbered

variable {document : Document}

theorem map_id_entries : document.entries.map Entry.id = 0 :: document.top.ids := by
  simp [entries]

/-- Below every node there is a forest, whose numbers follow that of the node. -/
theorem exists_forest_below {entry : Entry} (hentry : entry ∈ document.entries) :
    ∃ below : Forest, entry.children = below.roots ∧
      (entry.id :: below.ids).Sublist (0 :: document.top.ids) ∧
      ∀ inner ∈ below.entries entry.id, inner ∈ document.entries := by
  rcases List.mem_cons.1 hentry with rfl | hentry
  · exact ⟨document.top, rfl, List.Sublist.refl _, fun inner hinner =>
      List.mem_cons_of_mem _ hinner⟩
  · obtain ⟨below, hchildren, hsublist, hentries⟩ := Forest.exists_forest_below hentry
    exact ⟨below, hchildren, hsublist.cons 0, fun inner hinner =>
      List.mem_cons_of_mem _ (hentries inner hinner)⟩

/-- A child is listed in the entry of its parent. -/
theorem exists_entry_of_isChild {parent child : Nat} (hchild : document.IsChild parent child) :
    ∃ entry ∈ document.entries, entry.id = parent ∧ child ∈ entry.children := by
  unfold IsChild childrenOf at hchild
  cases hnode : document.node? parent with
  | none =>
    rw [hnode] at hchild
    exact absurd hchild List.not_mem_nil
  | some entry =>
    rw [hnode] at hchild
    have hid : entry.id = parent := by simpa using List.find?_some hnode
    exact ⟨entry, List.mem_of_find?_eq_some hnode, hid, hchild⟩

variable (h : IsNumbered document.size document.top.ids)

include h

theorem eq_of_id_eq {entry other : Entry} (hentry : entry ∈ document.entries)
    (hother : other ∈ document.entries) (hid : entry.id = other.id) : entry = other := by
  have hnodup : (document.entries.map Entry.id).Nodup := by
    rw [map_id_entries]
    exact h.nodup
  exact List.inj_on_of_nodup_map hnodup hentry hother hid

theorem node?_eq {entry : Entry} (hentry : entry ∈ document.entries) :
    document.node? entry.id = some entry := by
  unfold node?
  cases hfind : document.entries.find? (·.id = entry.id) with
  | none => exact absurd (List.find?_eq_none.1 hfind entry hentry) (by simp)
  | some other =>
    have hid : other.id = entry.id := by simpa using List.find?_some hfind
    rw [eq_of_id_eq h (List.mem_of_find?_eq_some hfind) hentry hid]

theorem childrenOf_eq {entry : Entry} (hentry : entry ∈ document.entries) :
    document.childrenOf entry.id = entry.children := by
  simp [childrenOf, node?_eq h hentry]

theorem tag?_eq {entry : Entry} (hentry : entry ∈ document.entries) :
    document.tag? entry.id = entry.kind.tag? := by
  simp [tag?, node?_eq h hentry]

theorem tag?_of_mem_toList {forest : Forest} {parent : Nat} {node : Node}
    (hentries : ∀ entry ∈ forest.entries parent, entry ∈ document.entries)
    (hnode : node ∈ forest.toList) : document.tag? node.id = node.tag? := by
  have htree (entry : Entry) (hentry : entry ∈ node.tree.entries parent) :
      entry ∈ document.entries :=
    hentries entry (Forest.mem_entries_of_tree hnode hentry)
  cases node with
  | text id content => exact tag?_eq h (htree _ List.mem_cons_self)
  | element id head children => exact tag?_eq h (htree _ List.mem_cons_self)

/-! ### The walk -/

/-- A walk visits a forest on top of its stack in order. -/
theorem visited_roots_append {forest : Forest} {parent : Nat}
    (hentries : ∀ entry ∈ forest.entries parent, entry ∈ document.entries) (steps : Nat)
    (stack : List Nat) :
    document.visited (forest.size + steps) (forest.roots ++ stack) =
      forest.ids ++ document.visited steps stack := by
  -- The children of an element are on top of what follows it, so the forest below is done first.
  induction forest generalizing parent steps stack with
  | nil => simp [Forest.size, Forest.ids]
  | text id content next ih =>
    obtain ⟨hentry, hnext⟩ := List.forall_mem_cons.1 hentries
    have hchildren := childrenOf_eq h hentry
    simp only [Forest.size, Forest.roots_text, Forest.ids, List.cons_append, Nat.add_right_comm _ 1]
    rw [visited, hchildren, List.nil_append, ih hnext]
  | element id head children next ihc ihn =>
    obtain ⟨hentry, hrest⟩ := List.forall_mem_cons.1 hentries
    obtain ⟨hbelow, hnext⟩ := List.forall_mem_append.1 hrest
    have hchildren := childrenOf_eq h hentry
    simp only [Forest.size, Forest.roots_element, Forest.ids, List.cons_append,
      Nat.add_right_comm _ 1]
    rw [visited, hchildren, Nat.add_assoc]
    change id :: document.visited _ (children.roots ++ (next.roots ++ stack)) = _
    rw [ihc hbelow, ihn hnext, List.append_assoc]

omit h in
theorem visited_nil (steps : Nat) : document.visited steps [] = [] := by
  cases steps <;> rfl

theorem childrenOf_zero : document.childrenOf 0 = document.top.roots := by
  have hroot : (⟨0, none, document.top.roots, .document⟩ : Entry) ∈ document.entries :=
    List.mem_cons_self
  exact childrenOf_eq h hroot

theorem size_eq : document.size = document.top.size + 1 := by
  have hlength := h.length_eq
  rw [List.length_range, List.length_cons, Forest.length_ids] at hlength
  exact hlength.symm

theorem visited_roots (steps : Nat) :
    document.visited (document.top.size + steps) document.top.roots = document.top.ids := by
  have hentries (entry : Entry) (hentry : entry ∈ document.top.entries 0) :
      entry ∈ document.entries := List.mem_cons_of_mem _ hentry
  have hvisited := visited_roots_append h hentries steps []
  simpa [visited_nil] using hvisited

/-- A walk through the whole document takes as many steps as there are nodes. -/
theorem visited_zero {steps : Nat} (hsteps : document.size ≤ steps) :
    document.visited steps [0] = 0 :: document.top.ids := by
  obtain ⟨more, rfl⟩ := Nat.exists_eq_add_of_le hsteps
  rw [size_eq h, Nat.add_right_comm, visited, childrenOf_zero h, List.append_nil, visited_roots h]

theorem order_eq (id : Nat) : document.order id = (0 :: document.top.ids).idxOf id := by
  rw [order, visited_zero h (Nat.le_refl _)]

/-! ### Places in the walk -/

theorem mem_iff_lt_size {id : Nat} : id ∈ 0 :: document.top.ids ↔ id < document.size := by
  rw [List.Perm.mem_iff h, List.mem_range]

/-- Every place in the walk is taken by one node. -/
theorem bijOn_order :
    Set.BijOn document.order (Set.Iio document.size) (Set.Iio document.size) := by
  have hlength : (0 :: document.top.ids).length = document.size := by
    rw [List.Perm.length_eq h, List.length_range]
  refine ⟨fun id hid => ?_, fun id hid other hother hsame => ?_, fun place hplace => ?_⟩
  · rw [Set.mem_Iio, order_eq h, ← hlength]
    exact List.idxOf_lt_length_of_mem ((mem_iff_lt_size h).2 hid)
  · rw [order_eq h, order_eq h] at hsame
    exact (List.idxOf_inj ((mem_iff_lt_size h).2 hid)).1 hsame
  · rw [Set.mem_Iio, ← hlength] at hplace
    refine ⟨(0 :: document.top.ids)[place], ?_, ?_⟩
    · exact (mem_iff_lt_size h).1 (List.getElem_mem hplace)
    · rw [order_eq h]
      exact h.nodup.idxOf_getElem place hplace

/-- What stands before another in the list of all nodes is visited before it. -/
theorem order_lt_of_sublist {id other : Nat}
    (hsublist : [id, other].Sublist (0 :: document.top.ids)) :
    document.order id < document.order other := by
  rw [order_eq h, order_eq h]
  obtain ⟨front, rear, hlist, hid, hother⟩ := List.cons_sublist_iff.1 hsublist
  have hrear : other ∈ rear := List.singleton_sublist.1 hother
  have hnodup := h.nodup
  rw [hlist] at hnodup ⊢
  have hfront : other ∉ front := by
    intro hmem
    exact (List.nodup_append.1 hnodup).2.2 other hmem other hrear rfl
  rw [List.idxOf_append_of_mem hid, List.idxOf_append_of_notMem hfront]
  exact Nat.lt_add_right _ (List.idxOf_lt_length_of_mem hid)

theorem order_lt_of_isChild {parent child : Nat} (hchild : document.IsChild parent child) :
    document.order parent < document.order child := by
  obtain ⟨entry, hentry, rfl, hmem⟩ := exists_entry_of_isChild hchild
  obtain ⟨below, hchildren, hsublist, -⟩ := exists_forest_below hentry
  rw [hchildren] at hmem
  refine order_lt_of_sublist h (List.Sublist.trans ?_ hsublist)
  exact (List.singleton_sublist.2 (below.roots_sublist_ids.mem hmem)).cons_cons entry.id

theorem order_lt_of_transGen {above below : Nat}
    (hbelow : Relation.TransGen document.IsChild above below) :
    document.order above < document.order below := by
  induction hbelow with
  | single hchild => exact order_lt_of_isChild h hchild
  | tail _ hchild ih => exact Nat.lt_trans ih (order_lt_of_isChild h hchild)

/-- Whatever is reached from a forest is part of it. -/
theorem mem_ids_of_reached {forest : Forest} {parent id reached : Nat}
    (hentries : ∀ entry ∈ forest.entries parent, entry ∈ document.entries) (hid : id ∈ forest.ids)
    (hreached : Relation.ReflTransGen document.IsChild id reached) : reached ∈ forest.ids := by
  induction hreached with
  | refl => exact hid
  | tail _ hchild ih =>
    rw [← forest.map_id_entries parent] at ih
    obtain ⟨entry, hentry, rfl⟩ := List.mem_map.1 ih
    obtain ⟨below, hchildren, hsublist, -⟩ := Forest.exists_forest_below hentry
    rw [IsChild, childrenOf_eq h (hentries entry hentry), hchildren] at hchild
    exact hsublist.mem (List.mem_cons_of_mem _ (below.roots_sublist_ids.mem hchild))

/-- All that is below a child is visited before the next child. -/
theorem order_lt_of_sibling {entry : Entry} (hentry : entry ∈ document.entries)
    {before after : List Nat} {child next : Nat}
    (hchildren : entry.children = before ++ child :: next :: after) {id : Nat}
    (hreached : Relation.ReflTransGen document.IsChild child id) :
    document.order id < document.order next := by
  obtain ⟨below, hroots, hsublist, hentries⟩ := exists_forest_below hentry
  rw [hroots] at hchildren
  obtain ⟨node, hnode, rfl, hbefore⟩ := Forest.exists_tree_before hchildren
  have htree (inner : Entry) (hinner : inner ∈ node.tree.entries entry.id) :
      inner ∈ document.entries :=
    hentries inner (Forest.mem_entries_of_tree hnode hinner)
  -- What is below the child does not leave its tree, and the tree stands before the next child.
  have hid := mem_ids_of_reached h htree (Forest.id_mem_ids_tree node) hreached
  exact order_lt_of_sublist h ((hbefore id hid).trans ((List.sublist_cons_self _ _).trans hsublist))

/-! ### Reached from the top -/

theorem reached_of_roots {forest : Forest} {parent : Nat}
    (hentries : ∀ entry ∈ forest.entries parent, entry ∈ document.entries)
    (hroots : ∀ root ∈ forest.roots, Relation.ReflTransGen document.IsChild 0 root) :
    ∀ entry ∈ forest.entries parent, Relation.ReflTransGen document.IsChild 0 entry.id := by
  induction forest generalizing parent with
  | nil => exact fun entry hentry => absurd hentry List.not_mem_nil
  | text id content next ih =>
    obtain ⟨-, hnext⟩ := List.forall_mem_cons.1 hentries
    obtain ⟨hroot, hrest⟩ := List.forall_mem_cons.1 hroots
    exact List.forall_mem_cons.2 ⟨hroot, ih hnext hrest⟩
  | element id head children next ihc ihn =>
    obtain ⟨hentry, hinner⟩ := List.forall_mem_cons.1 hentries
    obtain ⟨hbelow, hnext⟩ := List.forall_mem_append.1 hinner
    obtain ⟨hroot, hrest⟩ := List.forall_mem_cons.1 hroots
    have hchild (child : Nat) (hchild : child ∈ children.roots) : document.IsChild id child := by
      rw [IsChild, childrenOf_eq h hentry]
      exact hchild
    refine List.forall_mem_cons.2 ⟨hroot, List.forall_mem_append.2 ⟨?_, ihn hnext hrest⟩⟩
    exact ihc hbelow fun child hmem => hroot.tail (hchild child hmem)

theorem reached_zero {entry : Entry} (hentry : entry ∈ document.entries) :
    Relation.ReflTransGen document.IsChild 0 entry.id := by
  rcases List.mem_cons.1 hentry with rfl | hentry
  · exact .refl
  · refine reached_of_roots h (fun entry hentry => List.mem_cons_of_mem _ hentry) ?_ entry hentry
    intro root hroot
    refine .single ?_
    rw [IsChild, childrenOf_zero h]
    exact hroot

/-! ### Elements -/

theorem descendants_zero :
    document.descendants 0 = document.top.ids.filter fun id => (document.tag? id).isSome := by
  rw [descendants, childrenOf_zero h, size_eq h, visited_roots h]

theorem map_id_placesAmong {forest : Forest} {parent : Nat}
    (hentries : ∀ entry ∈ forest.entries parent, entry ∈ document.entries) (above : List Level)
    (siblings : Forest) :
    (placesAmong above siblings forest).map Place.id =
      forest.ids.filter fun id => (document.tag? id).isSome := by
  induction forest generalizing parent above siblings with
  | nil => rfl
  | text id content next ih =>
    obtain ⟨hentry, hnext⟩ := List.forall_mem_cons.1 hentries
    have htag := tag?_eq h hentry
    simp only [placesAmong, Forest.ids]
    rw [ih hnext, List.filter_cons_of_neg (by simp [htag, Kind.tag?])]
  | element id head children next ihc ihn =>
    obtain ⟨hentry, hinner⟩ := List.forall_mem_cons.1 hentries
    obtain ⟨hbelow, hnext⟩ := List.forall_mem_append.1 hinner
    have htag := tag?_eq h hentry
    simp only [placesAmong, Forest.ids, List.map_cons, List.map_append]
    rw [ihc hbelow, ihn hnext, List.filter_cons_of_pos (by simp [htag, Kind.tag?]),
      List.filter_append]
    rfl

/-- The elements below the document are those that are searched for a form. -/
theorem descendants_zero_eq_places :
    document.descendants 0 = document.places.map Place.id := by
  rw [descendants_zero h, places]
  exact (map_id_placesAmong h (fun entry hentry => List.mem_cons_of_mem _ hentry) _ _).symm

end Numbered

end Document

end KeepAlive.Markup
