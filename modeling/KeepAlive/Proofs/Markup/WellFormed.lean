import KeepAlive.Proofs.Markup.Order
import KeepAlive.Proofs.Markup.Tidy
import Mathlib.Data.List.Pairwise

/-!
# Every text is a well-formed document

However careless a markup text is, its document is a tree: every node but the document has one place
among the children of its parent, and document order follows the tree.
-/

namespace KeepAlive.Markup

/-- Whether the nodes of a document make up a tree in which elements are as they should be, and the
order of a walk through the document follows the tree. -/
structure Document.IsWellFormed (document : Document) : Prop where
  /-- The nodes have the numbers below the size, each once. -/
  numbered : (document.entries.map Entry.id).Perm (List.range document.size)
  /-- Number 0 is the document, and nothing else is; only it has no parent. -/
  root : ∀ entry ∈ document.entries, (entry.kind = .document ↔ entry.id = 0) ∧
    (entry.parent = none ↔ entry.id = 0)
  /-- Every other node stands once among the children of its parent, and nowhere else. -/
  placed : ∀ entry ∈ document.entries, entry.id ≠ 0 → ∃ parent ∈ document.entries,
    entry.parent = some parent.id ∧ parent.children.count entry.id = 1 ∧
      ∀ other ∈ document.entries, other ≠ parent → entry.id ∉ other.children
  /-- Whatever is among the children of a node is a node with that parent. -/
  children : ∀ entry ∈ document.entries, ∀ child ∈ entry.children, ∃ node ∈ document.entries,
    node.id = child ∧ node.parent = some entry.id
  reached : ∀ entry ∈ document.entries, Relation.ReflTransGen document.IsChild 0 entry.id
  /-- Only the document and elements have children, and void and raw elements have none. -/
  childless : ∀ entry ∈ document.entries, entry.children ≠ [] → entry.kind = .document ∨
    ∃ head, entry.kind = .element head ∧ head.tag ∉ voidTags ∧ head.tag ∉ rawTags
  names : ∀ entry ∈ document.entries, ∀ head, entry.kind = .element head →
    (head.attributes.map Prod.fst).Nodup
  /-- The first `html` element on top has a `body` among its children. -/
  body : ∃ before html after, document.childrenOf 0 = before ++ html :: after ∧
    (∀ id ∈ before, document.tag? id ≠ some "html") ∧ document.tag? html = some "html" ∧
      ∃ body ∈ document.childrenOf html, document.tag? body = some "body"
  /-- A walk from the document ends after as many steps as there are nodes, and visits the entries in
  their order. -/
  walked : ∀ steps, document.size ≤ steps →
    document.visited steps [0] = document.entries.map Entry.id
  bijOn_order : Set.BijOn document.order (Set.Iio document.size) (Set.Iio document.size)
  order_lt_below : ∀ above below, Relation.TransGen document.IsChild above below →
    document.order above < document.order below
  /-- All that is below a child comes before the next child. -/
  order_lt_next : ∀ entry ∈ document.entries, ∀ before child next after,
    entry.children = before ++ child :: next :: after →
      ∀ id, Relation.ReflTransGen document.IsChild child id → document.order id < document.order next
  /-- The descendants of the document are all elements. -/
  mem_descendants : ∀ id, id ∈ document.descendants 0 ↔ ∃ entry ∈ document.entries,
    entry.id = id ∧ ∃ head, entry.kind = .element head
  /-- They are listed in document order, so none twice. -/
  descendants_pairwise :
    (document.descendants 0).Pairwise fun id other => document.order id < document.order other
  descendants_eq_places : document.descendants 0 = document.places.map Place.id

namespace Document

variable {document : Document}

/-- The child lists of all nodes together hold every node but the document once. -/
theorem flatMap_children_perm :
    (document.entries.flatMap Entry.children).Perm document.top.ids :=
  List.perm_append_comm.trans (document.top.children_append_roots_perm 0)

/-- Every node but the document is below it. -/
theorem mem_top_entries {entry : Entry} (hentry : entry ∈ document.entries)
    (hid : entry.id ≠ 0) : entry ∈ document.top.entries 0 := by
  rcases List.mem_cons.1 hentry with rfl | hentry
  · exact absurd rfl hid
  · exact hentry

variable (h : IsNumbered document.size document.top.ids)

include h

theorem nodup_flatMap_children : (document.entries.flatMap Entry.children).Nodup :=
  flatMap_children_perm.nodup_iff.2 (List.nodup_cons.1 h.nodup).2

theorem count_children {parent : Entry} (hparent : parent ∈ document.entries) {id : Nat}
    (hid : id ∈ parent.children) : parent.children.count id = 1 ∧
      ∀ other ∈ document.entries, other ≠ parent → id ∉ other.children := by
  obtain ⟨hnodup, hdisjoint⟩ := List.nodup_flatMap.1 (nodup_flatMap_children h)
  refine ⟨List.count_eq_one_of_mem (hnodup parent hparent) hid, ?_⟩
  intro other hother hne hmem
  have hsymm : Std.Symm (Function.onFun List.Disjoint Entry.children) := ⟨fun _ _ => List.disjoint_symm⟩
  exact hdisjoint.forall hother hparent hne hmem hid

/-- Every node but the document stands once among the children of its parent, and nowhere else. -/
theorem exists_parent {entry : Entry} (hentry : entry ∈ document.entries) (hid : entry.id ≠ 0) :
    ∃ parent ∈ document.entries, entry.parent = some parent.id ∧
      parent.children.count entry.id = 1 ∧
        ∀ other ∈ document.entries, other ≠ parent → entry.id ∉ other.children := by
  rcases Forest.exists_parent_of_entry (mem_top_entries hentry hid) with
    ⟨hparent, hroot⟩ | ⟨above, habove, hparent, hchild⟩
  · exact ⟨_, List.mem_cons_self, hparent, count_children h List.mem_cons_self hroot⟩
  · have hmem : above ∈ document.entries := List.mem_cons_of_mem _ habove
    exact ⟨above, hmem, hparent, count_children h hmem hchild⟩

theorem kind_and_parent_iff {entry : Entry} (hentry : entry ∈ document.entries) :
    (entry.kind = .document ↔ entry.id = 0) ∧ (entry.parent = none ↔ entry.id = 0) := by
  by_cases hid : entry.id = 0
  · have hroot : entry = ⟨0, none, document.top.roots, .document⟩ :=
      eq_of_id_eq h hentry List.mem_cons_self hid
    subst hroot
    exact ⟨⟨fun _ => rfl, fun _ => rfl⟩, ⟨fun _ => rfl, fun _ => rfl⟩⟩
  · have hkind := Forest.kind_ne_document (mem_top_entries hentry hid)
    obtain ⟨parent, -, hparent, -⟩ := exists_parent h hentry hid
    simp [hid, hkind, hparent]

theorem exists_body (hbody : document.top.HasBody) :
    ∃ before html after, document.childrenOf 0 = before ++ html :: after ∧
      (∀ id ∈ before, document.tag? id ≠ some "html") ∧ document.tag? html = some "html" ∧
        ∃ body ∈ document.childrenOf html, document.tag? body = some "body" := by
  obtain ⟨before, id, head, children, after, htop, hbefore, htag, hhas⟩ := hbody
  have hentries (entry : Entry) (hentry : entry ∈ document.top.entries 0) :
      entry ∈ document.entries := List.mem_cons_of_mem _ hentry
  have hhtml : Node.element id head children ∈ document.top.toList := by simp [htop]
  have hbelow (entry : Entry) (hentry : entry ∈ children.entries id) : entry ∈ document.entries :=
    hentries entry (Forest.mem_entries_of_tree hhtml
      (List.mem_cons_of_mem _ (List.mem_append_left _ hentry)))
  have hchildren : document.childrenOf id = children.roots :=
    childrenOf_eq h (hentries _ (Forest.mem_entries_of_tree hhtml List.mem_cons_self))
  refine ⟨before.map Node.id, id, after.map Node.id, ?_, ?_, ?_, ?_⟩
  · rw [childrenOf_zero h, Forest.roots, htop, List.map_append, List.map_cons]
    rfl
  · intro other hother
    obtain ⟨node, hnode, rfl⟩ := List.mem_map.1 hother
    rw [tag?_of_mem_toList h hentries (by simp [htop, hnode])]
    exact hbefore node hnode
  · rw [← htag]
    exact tag?_of_mem_toList h hentries hhtml
  · obtain ⟨node, hnode, hbody⟩ := List.any_eq_true.1 hhas
    refine ⟨node.id, ?_, ?_⟩
    · rw [hchildren]
      exact List.mem_map_of_mem hnode
    · rw [tag?_of_mem_toList h hbelow hnode]
      simpa using hbody

theorem mem_descendants_zero_iff {id : Nat} :
    id ∈ document.descendants 0 ↔
      ∃ entry ∈ document.entries, entry.id = id ∧ ∃ head, entry.kind = .element head := by
  rw [descendants_zero h, List.mem_filter, ← document.top.map_id_entries 0]
  constructor
  · rintro ⟨hid, htag⟩
    obtain ⟨entry, hentry, rfl⟩ := List.mem_map.1 hid
    have hmem : entry ∈ document.entries := List.mem_cons_of_mem _ hentry
    rw [tag?_eq h hmem] at htag
    refine ⟨entry, hmem, rfl, ?_⟩
    cases hkind : entry.kind with
    | document => simp [hkind, Kind.tag?] at htag
    | text content => simp [hkind, Kind.tag?] at htag
    | element head => exact ⟨head, rfl⟩
  · rintro ⟨entry, hentry, rfl, head, hkind⟩
    have hid : entry.id ≠ 0 := by
      rw [ne_eq, ← (kind_and_parent_iff h hentry).1, hkind]
      exact Kind.noConfusion
    refine ⟨List.mem_map_of_mem (mem_top_entries hentry hid), ?_⟩
    rw [tag?_eq h hentry, hkind]
    rfl

theorem descendants_zero_pairwise :
    (document.descendants 0).Pairwise fun id other => document.order id < document.order other := by
  rw [descendants_zero h, List.pairwise_iff_forall_sublist]
  intro id other hsublist
  refine order_lt_of_sublist h (hsublist.trans ?_)
  exact (List.filter_sublist).trans (List.sublist_cons_self _ _)

end Document

/-- Every text, whatever it is, describes a well-formed document. -/
theorem isWellFormed_parse (markup : String) : (Document.parse markup).IsWellFormed := by
  have h := isNumbered_parse markup
  obtain ⟨htidy, hbody⟩ := isTidy_and_hasBody_parse markup
  generalize Document.parse markup = document at h htidy hbody
  exact {
    numbered := by
      rw [Document.map_id_entries]
      exact h
    root := fun entry hentry => Document.kind_and_parent_iff h hentry
    placed := fun entry hentry hid => Document.exists_parent h hentry hid
    children := by
      intro entry hentry child hchild
      obtain ⟨below, hroots, -, hentries⟩ := Document.exists_forest_below hentry
      rw [hroots] at hchild
      obtain ⟨node, hnode, hid, hparent⟩ := Forest.exists_entry_of_root entry.id hchild
      exact ⟨node, hentries node hnode, hid, hparent⟩
    reached := fun entry hentry => Document.reached_zero h hentry
    childless := by
      intro entry hentry hchildren
      rcases List.mem_cons.1 hentry with rfl | hentry
      · exact .inl rfl
      · obtain ⟨head, hkind, hhead⟩ := htidy.exists_head hentry hchildren
        exact .inr ⟨head, hkind, not_or.1 hhead⟩
    names := by
      intro entry hentry head hkind
      rcases List.mem_cons.1 hentry with rfl | hentry
      · cases hkind
      · exact htidy.nodup_names hentry hkind
    body := Document.exists_body h hbody
    walked := by
      intro steps hsteps
      rw [Document.visited_zero h hsteps, Document.map_id_entries]
    bijOn_order := Document.bijOn_order h
    order_lt_below := fun above below hbelow => Document.order_lt_of_transGen h hbelow
    order_lt_next := fun entry hentry before child next after hchildren id hreached =>
      Document.order_lt_of_sibling h hentry hchildren hreached
    mem_descendants := fun id => Document.mem_descendants_zero_iff h
    descendants_pairwise := Document.descendants_zero_pairwise h
    descendants_eq_places := Document.descendants_zero_eq_places h }

end KeepAlive.Markup
