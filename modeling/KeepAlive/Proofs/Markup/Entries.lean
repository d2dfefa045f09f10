import KeepAlive.Markup.Document

/-!
# The entries of a forest

The numbers of a forest, the numbers of its top nodes and the children of its entries are three views
of the same nodes.  A forest is also the list of its trees, and every entry stands at the top of a
forest of its own.
-/

namespace KeepAlive.Markup

/-- A node on its own. -/
def Node.tree (node : Node) : Forest :=
  .cons node .nil

namespace Forest

/-- The numbers of the top nodes. -/
def roots (forest : Forest) : List Nat :=
  forest.toList.map Node.id

@[simp] theorem roots_nil : roots .nil = [] := rfl

@[simp] theorem roots_text (id : Nat) (content : String) (next : Forest) :
    (text id content next).roots = id :: next.roots := rfl

@[simp] theorem roots_element (id : Nat) (head : Element) (children next : Forest) :
    (element id head children next).roots = id :: next.roots := rfl

/-! ### Trees side by side -/

theorem entries_cons (parent : Nat) (node : Node) (forest : Forest) :
    (cons node forest).entries parent = node.tree.entries parent ++ forest.entries parent := by
  cases node <;> simp [Node.tree, cons, entries]

theorem entries_ofList (parent : Nat) (nodes : List Node) :
    (ofList nodes).entries parent = nodes.flatMap fun node => node.tree.entries parent := by
  induction nodes with
  | nil => rfl
  | cons node rest ih =>
    rw [List.flatMap_cons, ← ih]
    exact entries_cons parent node (ofList rest)

/-- The entries of a forest are those of its trees. -/
theorem entries_eq_flatMap (parent : Nat) (forest : Forest) :
    forest.entries parent = forest.toList.flatMap fun node => node.tree.entries parent := by
  rw [← entries_ofList, ofList_toList]

theorem mem_entries_of_tree {forest : Forest} {parent : Nat} {node : Node} {entry : Entry}
    (hnode : node ∈ forest.toList) (hentry : entry ∈ node.tree.entries parent) :
    entry ∈ forest.entries parent := by
  rw [entries_eq_flatMap]
  exact List.mem_flatMap.2 ⟨node, hnode, hentry⟩

theorem entries_perm {forest other : Forest} (h : forest.toList.Perm other.toList) (parent : Nat) :
    (forest.entries parent).Perm (other.entries parent) := by
  rw [entries_eq_flatMap, entries_eq_flatMap parent other]
  exact h.flatMap_right _

/-! ### Numbers -/

@[simp] theorem map_id_entries (parent : Nat) (forest : Forest) :
    (forest.entries parent).map Entry.id = forest.ids := by
  induction forest generalizing parent with
  | nil => rfl
  | text id content next ih => simp [entries, ids, ih]
  | element id head children next ihc ihn => simp [entries, ids, ihc, ihn]

theorem ids_ofList (nodes : List Node) :
    (ofList nodes).ids = nodes.flatMap fun node => node.tree.ids := by
  rw [← map_id_entries 0, entries_ofList, List.map_flatMap]
  simp only [map_id_entries]

/-- The numbers of a forest are those of its trees. -/
theorem ids_eq_flatMap (forest : Forest) :
    forest.ids = forest.toList.flatMap fun node => node.tree.ids := by
  rw [← ids_ofList, ofList_toList]

theorem ids_perm {forest other : Forest} (h : forest.toList.Perm other.toList) :
    forest.ids.Perm other.ids := by
  simpa using (entries_perm h 0).map Entry.id

theorem ids_reverse_perm (forest : Forest) : forest.reverse.ids.Perm forest.ids := by
  refine ids_perm ?_
  rw [toList_reverse]
  exact List.reverse_perm _

theorem roots_sublist_ids (forest : Forest) : forest.roots.Sublist forest.ids := by
  induction forest with
  | nil => exact List.Sublist.refl []
  | text id content next ih => exact ih.cons_cons id
  | element id head children next _ ih =>
    exact (ih.trans (List.sublist_append_right children.ids next.ids)).cons_cons id

/-- Every number of a forest is either that of a top node or that of a child, and only once. -/
theorem children_append_roots_perm (parent : Nat) (forest : Forest) :
    ((forest.entries parent).flatMap Entry.children ++ forest.roots).Perm forest.ids := by
  induction forest generalizing parent with
  | nil => exact List.Perm.refl []
  | text id content next ih => exact List.perm_middle.trans ((ih parent).cons id)
  | element id head children next ihc ihn =>
    have hchildren : (children.roots ++ (children.entries id).flatMap Entry.children).Perm
        children.ids := List.perm_append_comm.trans (ihc id)
    simp only [entries, List.flatMap_cons, List.flatMap_append, roots_element, ids]
    refine List.perm_middle.trans (List.Perm.cons id ?_)
    rw [← List.append_assoc, List.append_assoc]
    exact hchildren.append (ihn parent)

/-! ### Entries and their children -/

variable {parent : Nat} {forest : Forest}

/-- A top node has an entry with the parent that is given. -/
theorem exists_entry_of_root (parent : Nat) {root : Nat} (h : root ∈ forest.roots) :
    ∃ entry ∈ forest.entries parent, entry.id = root ∧ entry.parent = some parent := by
  induction forest with
  | nil => exact absurd h List.not_mem_nil
  | text id content next ih =>
    rcases List.mem_cons.1 h with rfl | h
    · exact ⟨_, List.mem_cons_self, rfl, rfl⟩
    · obtain ⟨entry, hentry, hroot⟩ := ih h
      exact ⟨entry, List.mem_cons_of_mem _ hentry, hroot⟩
  | element id head children next _ ih =>
    rcases List.mem_cons.1 h with rfl | h
    · exact ⟨_, List.mem_cons_self, rfl, rfl⟩
    · obtain ⟨entry, hentry, hroot⟩ := ih h
      exact ⟨entry, List.mem_cons_of_mem _ (List.mem_append_right _ hentry), hroot⟩

/-- Every node stands among the children of its parent, or on top. -/
theorem exists_parent_of_entry {entry : Entry} (h : entry ∈ forest.entries parent) :
    (entry.parent = some parent ∧ entry.id ∈ forest.roots) ∨
      ∃ above ∈ forest.entries parent, entry.parent = some above.id ∧ entry.id ∈ above.children := by
  induction forest generalizing parent with
  | nil => exact absurd h List.not_mem_nil
  | text id content next ih =>
    rcases List.mem_cons.1 h with rfl | h
    · exact .inl ⟨rfl, List.mem_cons_self⟩
    · rcases ih h with ⟨hparent, hroot⟩ | ⟨above, habove, hchild⟩
      · exact .inl ⟨hparent, List.mem_cons_of_mem _ hroot⟩
      · exact .inr ⟨above, List.mem_cons_of_mem _ habove, hchild⟩
  | element id head children next ihc ihn =>
    rcases List.mem_cons.1 h with rfl | h
    · exact .inl ⟨rfl, List.mem_cons_self⟩
    · rcases List.mem_append.1 h with h | h
      · rcases ihc h with hroot | ⟨above, habove, hchild⟩
        · exact .inr ⟨_, List.mem_cons_self, hroot⟩
        · exact .inr ⟨above, List.mem_cons_of_mem _ (List.mem_append_left _ habove), hchild⟩
      · rcases ihn h with ⟨hparent, hroot⟩ | ⟨above, habove, hchild⟩
        · exact .inl ⟨hparent, List.mem_cons_of_mem _ hroot⟩
        · exact .inr ⟨above, List.mem_cons_of_mem _ (List.mem_append_right _ habove), hchild⟩

/-- No node below the document is the document. -/
theorem kind_ne_document {entry : Entry} (h : entry ∈ forest.entries parent) :
    entry.kind ≠ .document := by
  induction forest generalizing parent with
  | nil => exact absurd h List.not_mem_nil
  | text id content next ih =>
    rcases List.mem_cons.1 h with rfl | h
    · exact Kind.noConfusion
    · exact ih h
  | element id head children next ihc ihn =>
    rcases List.mem_cons.1 h with rfl | h
    · exact Kind.noConfusion
    · rcases List.mem_append.1 h with h | h
      · exact ihc h
      · exact ihn h

/-- Below every node there is a forest, whose numbers follow that of the node. -/
theorem exists_forest_below {entry : Entry} (h : entry ∈ forest.entries parent) :
    ∃ below : Forest, entry.children = below.roots ∧
      (entry.id :: below.ids).Sublist forest.ids ∧
      ∀ inner ∈ below.entries entry.id, inner ∈ forest.entries parent := by
  induction forest generalizing parent with
  | nil => exact absurd h List.not_mem_nil
  | text id content next ih =>
    rcases List.mem_cons.1 h with rfl | h
    · refine ⟨.nil, rfl, ?_, fun inner hinner => absurd hinner List.not_mem_nil⟩
      exact (List.nil_sublist next.ids).cons_cons id
    · obtain ⟨below, hchildren, hsublist, hentries⟩ := ih h
      exact ⟨below, hchildren, hsublist.cons id,
        fun inner hinner => List.mem_cons_of_mem _ (hentries inner hinner)⟩
  | element id head children next ihc ihn =>
    rcases List.mem_cons.1 h with rfl | h
    · refine ⟨children, rfl, ?_, fun inner hinner => ?_⟩
      · exact (List.sublist_append_left children.ids next.ids).cons_cons id
      · exact List.mem_cons_of_mem _ (List.mem_append_left _ hinner)
    · rcases List.mem_append.1 h with h | h
      · obtain ⟨below, hchildren, hsublist, hentries⟩ := ihc h
        refine ⟨below, hchildren, ?_, fun inner hinner => ?_⟩
        · exact (hsublist.trans (List.sublist_append_left children.ids next.ids)).cons id
        · exact List.mem_cons_of_mem _ (List.mem_append_left _ (hentries inner hinner))
      · obtain ⟨below, hchildren, hsublist, hentries⟩ := ihn h
        refine ⟨below, hchildren, ?_, fun inner hinner => ?_⟩
        · exact (hsublist.trans (List.sublist_append_right children.ids next.ids)).cons id
        · exact List.mem_cons_of_mem _ (List.mem_append_right _ (hentries inner hinner))

/-! ### Neighbours -/

theorem id_mem_ids_tree (node : Node) : node.id ∈ node.tree.ids := by
  cases node <;> simp [Node.tree, Node.id, cons, ids]

/-- The tree of a top node stands before the next top node. -/
theorem exists_tree_before {before after : List Nat} {id next : Nat}
    (h : forest.roots = before ++ id :: next :: after) :
    ∃ node ∈ forest.toList, node.id = id ∧
      ∀ inner ∈ node.tree.ids, [inner, next].Sublist forest.ids := by
  obtain ⟨front, rear, hlist, -, hrear⟩ := List.map_eq_append_iff.1 h
  obtain ⟨node, others, rfl, rfl, hothers⟩ := List.map_eq_cons_iff.1 hrear
  obtain ⟨neighbour, rest, rfl, rfl, -⟩ := List.map_eq_cons_iff.1 hothers
  refine ⟨node, by simp [hlist], rfl, fun inner hinner => ?_⟩
  rw [ids_eq_flatMap, hlist, List.flatMap_append, List.flatMap_cons, List.flatMap_cons]
  have hfirst : [inner].Sublist node.tree.ids := List.singleton_sublist.2 hinner
  have hsecond : [neighbour.id].Sublist (neighbour.tree.ids ++ rest.flatMap fun node =>
      node.tree.ids) := List.singleton_sublist.2 (List.mem_append_left _ (id_mem_ids_tree neighbour))
  exact (hfirst.append hsecond).trans (List.sublist_append_right _ _)

end Forest

end KeepAlive.Markup
