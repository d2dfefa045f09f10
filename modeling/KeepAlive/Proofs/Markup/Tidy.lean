import KeepAlive.Proofs.Markup.Numbers
import Mathlib.Data.List.Nodup

/-!
# What elements are like

The attributes of an element have distinct names, and some elements never have children.  Both come
from the tokens: only the first attribute of each name is kept, and nothing can stand inside an
element that is a leaf.  A document that is complete has an `html` element with a `body`.
-/

namespace KeepAlive.Markup

/-- Whether elements with the tag never have children. -/
def IsChildless (tag : String) : Prop :=
  tag ∈ voidTags ∨ tag ∈ rawTags

/-! ## Tokens -/

/-- The names of attributes that are kept stay distinct with each attribute. -/
theorem nodup_foldl_kept (attributes kept : List (List Char × List Char))
    (h : (kept.map Prod.fst).Nodup) :
    ((attributes.foldl (fun kept pair => if kept.any (·.1 = pair.1) then kept else kept ++ [pair])
      kept).map Prod.fst).Nodup := by
  induction attributes generalizing kept with
  | nil => exact h
  | cons pair attributes ih =>
    rw [List.foldl_cons]
    refine ih _ ?_
    split
    · exact h
    · rename_i hnew
      have hname : pair.1 ∉ kept.map Prod.fst := by
        intro hmem
        obtain ⟨other, hother, hsame⟩ := List.mem_map.1 hmem
        exact hnew (List.any_eq_true.2 ⟨other, hother, by simpa using hsame⟩)
      rw [List.map_append]
      exact h.append (List.nodup_singleton _) (by simpa using hname)

theorem nodup_firstOfEachName (attributes : List (List Char × List Char)) :
    ((firstOfEachName attributes).map Prod.fst).Nodup :=
  nodup_foldl_kept attributes [] List.nodup_nil

/-- Whether a token can make an element: its attributes have distinct names, and it is a leaf if
elements with its tag never have children. -/
def Token.IsSound : Token → Prop
  | .opening tag attributes leaf =>
    (attributes.map Prod.fst).Nodup ∧ (IsChildless (String.ofList tag) → leaf = true)
  | _ => True

theorem isSound_of_mem_tokens (s : List Char) : ∀ token ∈ tokens s, token.IsSound := by
  fun_induction tokens s with
  | case1 => exact fun token htoken => absurd htoken List.not_mem_nil
  | case2 c rest hcomment hle ih => exact ih
  | case3 c rest hcomment hdeclaration hle ih => exact ih
  | case4 c rest hcomment hdeclaration hclosing name hle ih =>
    exact List.forall_mem_cons.2 ⟨trivial, ih⟩
  | case5 c rest _ _ _ _ tag _ _ read hraw _ ih =>
    exact List.forall_mem_cons.2 ⟨⟨nodup_firstOfEachName read.1, fun _ => rfl⟩, ih⟩
  | case6 c rest _ _ _ _ tag _ _ read hraw ih =>
    refine List.forall_mem_cons.2 ⟨⟨nodup_firstOfEachName read.1, ?_⟩, ih⟩
    rintro (hvoid | hmem)
    · simp [hvoid]
    · exact absurd hmem (by simpa using hraw)
  | case7 c rest _ _ _ _ raw hle hblank ih => exact ih
  | case8 c rest _ _ _ _ raw hle hblank ih => exact List.forall_mem_cons.2 ⟨trivial, ih⟩

/-! ## Forests -/

/-- Whether an element can have the children: its attributes have distinct names, and it has no
children if elements with its tag never have any. -/
def Element.Bears (head : Element) (children : Forest) : Prop :=
  (head.attributes.map Prod.fst).Nodup ∧ (IsChildless head.tag → children = .nil)

/-- Whether every element of a forest can have its children. -/
def Forest.IsTidy : Forest → Prop
  | .nil => True
  | .text _ _ next => next.IsTidy
  | .element _ head children next => head.Bears children ∧ children.IsTidy ∧ next.IsTidy

/-- Whether an element that is still open can have any children. -/
def Open.IsTidy (frame : Open) : Prop :=
  (∀ children, frame.head.Bears children) ∧ frame.elder.IsTidy

theorem Forest.isTidy_cons_iff {node : Node} {forest : Forest} :
    (cons node forest).IsTidy ↔ node.tree.IsTidy ∧ forest.IsTidy := by
  cases node <;> simp [Node.tree, cons, IsTidy, and_assoc]

theorem Forest.isTidy_ofList_iff {nodes : List Node} :
    (ofList nodes).IsTidy ↔ ∀ node ∈ nodes, node.tree.IsTidy := by
  induction nodes with
  | nil => simp [ofList, IsTidy]
  | cons node rest ih =>
    rw [List.forall_mem_cons, ← ih]
    exact isTidy_cons_iff

/-- A forest is tidy when its trees are. -/
theorem Forest.isTidy_iff {forest : Forest} :
    forest.IsTidy ↔ ∀ node ∈ forest.toList, node.tree.IsTidy := by
  rw [← isTidy_ofList_iff, ofList_toList]

theorem Forest.IsTidy.reverse {forest : Forest} (h : forest.IsTidy) : forest.reverse.IsTidy := by
  rw [Forest.isTidy_iff] at *
  intro node hnode
  rw [Forest.toList_reverse, List.mem_reverse] at hnode
  exact h node hnode

/-- An entry of a tidy forest is a text without children, or an element that can have its children. -/
theorem Forest.IsTidy.entry_cases {forest : Forest} {parent : Nat} {entry : Entry}
    (h : forest.IsTidy) (hentry : entry ∈ forest.entries parent) :
    (entry.children = [] ∧ ∃ content, entry.kind = .text content) ∨
      ∃ head children, entry.kind = .element head ∧ entry.children = children.roots ∧
        head.Bears children := by
  induction forest generalizing parent with
  | nil => exact absurd hentry List.not_mem_nil
  | text id content next ih =>
    rcases List.mem_cons.1 hentry with rfl | hentry
    · exact .inl ⟨rfl, content, rfl⟩
    · exact ih h hentry
  | element id head children next ihc ihn =>
    rcases List.mem_cons.1 hentry with rfl | hentry
    · exact .inr ⟨head, children, rfl, rfl, h.1⟩
    · rcases List.mem_append.1 hentry with hentry | hentry
      · exact ihc h.2.1 hentry
      · exact ihn h.2.2 hentry

/-- Only elements have children, and not those that never have any. -/
theorem Forest.IsTidy.exists_head {forest : Forest} {parent : Nat} {entry : Entry}
    (h : forest.IsTidy) (hentry : entry ∈ forest.entries parent) (hchildren : entry.children ≠ []) :
    ∃ head, entry.kind = .element head ∧ ¬IsChildless head.tag := by
  rcases h.entry_cases hentry with ⟨hnone, -⟩ | ⟨head, children, hkind, hroots, hbears⟩
  · exact absurd hnone hchildren
  · refine ⟨head, hkind, fun hchildless => hchildren ?_⟩
    rw [hroots, hbears.2 hchildless]
    rfl

theorem Forest.IsTidy.nodup_names {forest : Forest} {parent : Nat} {entry : Entry} {head : Element}
    (h : forest.IsTidy) (hentry : entry ∈ forest.entries parent)
    (hkind : entry.kind = .element head) : (head.attributes.map Prod.fst).Nodup := by
  rcases h.entry_cases hentry with ⟨-, content, htext⟩ | ⟨own, children, hown, -, hbears⟩
  · rw [htext] at hkind
    cases hkind
  · rw [hown] at hkind
    cases hkind
    exact hbears.1

theorem Element.bears_of_not_isChildless {head : Element}
    (hnames : (head.attributes.map Prod.fst).Nodup) (hchildren : ¬IsChildless head.tag)
    (children : Forest) : head.Bears children :=
  ⟨hnames, fun h => absurd h hchildren⟩

/-! ## Growing -/

theorem Open.IsTidy.close {frame : Open} {children : Forest} (h : frame.IsTidy)
    (hchildren : children.IsTidy) : (frame.close children).IsTidy :=
  ⟨h.1 _, hchildren.reverse, h.2⟩

theorem isTidy_closeAll {current : Forest} {frames : List Open} (hcurrent : current.IsTidy)
    (hframes : ∀ frame ∈ frames, frame.IsTidy) : (closeAll current frames).IsTidy := by
  induction frames generalizing current with
  | nil => exact hcurrent.reverse
  | cons frame frames ih =>
    rw [List.forall_mem_cons] at hframes
    exact ih (hframes.1.close hcurrent) hframes.2

theorem isTidy_closeThrough (tag : String) {current : Forest} {frames : List Open}
    (hcurrent : current.IsTidy) (hframes : ∀ frame ∈ frames, frame.IsTidy) :
    (closeThrough tag current frames).1.IsTidy ∧
      ∀ frame ∈ (closeThrough tag current frames).2, frame.IsTidy := by
  induction frames generalizing current with
  | nil => exact ⟨hcurrent, hframes⟩
  | cons frame frames ih =>
    rw [List.forall_mem_cons] at hframes
    unfold closeThrough
    split
    · exact ⟨hframes.1.close hcurrent, hframes.2⟩
    · exact ih (hframes.1.close hcurrent) hframes.2

theorem nodup_names_ofTag (tag : List Char) {attributes : List (List Char × List Char)}
    (h : (attributes.map Prod.fst).Nodup) :
    ((Element.ofTag tag attributes).attributes.map Prod.fst).Nodup := by
  have hnames : (Element.ofTag tag attributes).attributes.map Prod.fst =
      (attributes.map Prod.fst).map String.ofList := by
    simp [Element.ofTag, Function.comp_def]
  rw [hnames]
  exact h.map fun _ _ => String.ofList_injective

/-- What grows from sound tokens is tidy. -/
theorem isTidy_grow {next : Nat} {current : Forest} {frames : List Open} {tokens : List Token}
    (hcurrent : current.IsTidy) (hframes : ∀ frame ∈ frames, frame.IsTidy)
    (htokens : ∀ token ∈ tokens, token.IsSound) :
    (grow next current frames tokens).1.IsTidy := by
  induction tokens generalizing next current frames with
  | nil => exact isTidy_closeAll hcurrent hframes
  | cons token tokens ih =>
    rw [List.forall_mem_cons] at htokens
    cases token with
    | text content => exact ih hcurrent hframes htokens.2
    | opening tag attributes leaf =>
      have hnames := nodup_names_ofTag tag htokens.1.1
      unfold grow
      split
      · exact ih ⟨⟨hnames, fun _ => rfl⟩, trivial, hcurrent⟩ hframes htokens.2
      · rename_i hleaf
        have hopen : ¬IsChildless (Element.ofTag tag attributes).tag := by
          intro hchildless
          exact hleaf (htokens.1.2 hchildless)
        refine ih trivial (List.forall_mem_cons.2 ⟨⟨?_, hcurrent⟩, hframes⟩) htokens.2
        exact Element.bears_of_not_isChildless hnames hopen
    | closing tag =>
      unfold grow
      split
      · obtain ⟨houter, hleft⟩ := isTidy_closeThrough (String.ofList tag) hcurrent hframes
        exact ih houter hleft htokens.2
      · exact ih hcurrent hframes htokens.2

/-! ## Completing -/

theorem not_isChildless_html : ¬IsChildless "html" := by
  unfold IsChildless
  decide

theorem not_isChildless_body : ¬IsChildless "body" := by
  unfold IsChildless
  decide

theorem bears_of_bare {tag : String} (h : ¬IsChildless tag) (children : Forest) :
    Element.Bears ⟨tag, []⟩ children :=
  ⟨List.nodup_nil, fun hchildless => absurd hchildless h⟩

theorem Forest.IsTidy.withBody {children : Forest} (h : children.IsTidy) (next : Nat) :
    (withBody next children).IsTidy := by
  obtain ⟨heads, others, hparts, heq⟩ := exists_withBody_eq next children
  have hnode (node : Node) (hnode : node ∈ heads ++ others) : node.tree.IsTidy :=
    Forest.isTidy_iff.1 h node (hparts.mem_iff.1 hnode)
  rw [heq, isTidy_ofList_iff]
  intro node hmem
  rcases List.mem_append.1 hmem with hhead | hbody
  · exact hnode node (List.mem_append_left _ hhead)
  · obtain rfl := List.mem_singleton.1 hbody
    refine ⟨bears_of_bare not_isChildless_body _, ?_, trivial⟩
    exact isTidy_ofList_iff.2 fun other hother => hnode other (List.mem_append_right _ hother)

theorem Forest.IsTidy.completed {next added : Nat} {forest whole : Forest} (h : forest.IsTidy)
    (hcompleted : completed next forest = some (whole, added)) : whole.IsTidy := by
  induction forest generalizing whole with
  | nil => cases hcompleted
  | text id content rest ih =>
    obtain ⟨⟨inner, count⟩, hinner, heq⟩ := Option.map_eq_some_iff.1 hcompleted
    cases heq
    have htidy : inner.IsTidy := ih h hinner
    exact htidy
  | element id head children rest _ ih =>
    unfold Markup.completed at hcompleted
    split at hcompleted
    · rename_i htag
      split at hcompleted
      · cases hcompleted
        exact h
      · cases hcompleted
        refine ⟨Element.bears_of_not_isChildless h.1.1 ?_ _, h.2.1.withBody next, h.2.2⟩
        rw [htag]
        exact not_isChildless_html
    · obtain ⟨⟨inner, count⟩, hinner, heq⟩ := Option.map_eq_some_iff.1 hcompleted
      cases heq
      exact ⟨h.1, h.2.1, ih h.2.2 hinner⟩

/-- Whether the first `html` element among the nodes has a `body` among its children. -/
def Forest.HasBody (forest : Forest) : Prop :=
  ∃ before id head children after,
    forest.toList = before ++ .element id head children :: after ∧
      (∀ node ∈ before, node.tag? ≠ some "html") ∧ head.tag = "html" ∧
      children.hasTop "body" = true

theorem Forest.HasBody.cons {node : Node} {forest : Forest} (h : forest.HasBody)
    (hnode : node.tag? ≠ some "html") : (Forest.cons node forest).HasBody := by
  obtain ⟨before, id, head, children, after, heq, hbefore, hrest⟩ := h
  refine ⟨node :: before, id, head, children, after, ?_, ?_, hrest⟩
  · rw [toList_cons, heq, List.cons_append]
  · exact List.forall_mem_cons.2 ⟨hnode, hbefore⟩

theorem hasTop_withBody (next : Nat) (children : Forest) :
    (withBody next children).hasTop "body" = true := by
  obtain ⟨heads, others, -, heq⟩ := exists_withBody_eq next children
  rw [heq, Forest.hasTop, Forest.toList_ofList]
  simp [Node.tag?]

theorem hasBody_completed {next added : Nat} {forest whole : Forest}
    (h : completed next forest = some (whole, added)) : whole.HasBody := by
  induction forest generalizing whole with
  | nil => cases h
  | text id content rest ih =>
    obtain ⟨⟨inner, count⟩, hinner, heq⟩ := Option.map_eq_some_iff.1 h
    cases heq
    have hnode : (Node.text id content).tag? ≠ some "html" := by simp [Node.tag?]
    exact (ih hinner).cons hnode
  | element id head children rest _ ih =>
    unfold completed at h
    split at h
    · rename_i htag
      split at h
      · rename_i hbody
        cases h
        exact ⟨[], id, head, children, _, rfl, by simp, htag, hbody⟩
      · cases h
        exact ⟨[], id, head, _, _, rfl, by simp, htag, hasTop_withBody next children⟩
    · rename_i htag
      obtain ⟨⟨inner, count⟩, hinner, heq⟩ := Option.map_eq_some_iff.1 h
      cases heq
      have hnode : (Node.element id head children).tag? ≠ some "html" := by
        simpa [Node.tag?] using htag
      exact (ih hinner).cons hnode

/-- Every text gives a document whose elements are as they should be, with an `html` and a `body`. -/
theorem isTidy_and_hasBody_parse (markup : String) :
    (Document.parse markup).top.IsTidy ∧ (Document.parse markup).top.HasBody := by
  have hgrow : (grow 1 .nil [] (tokens markup.toList)).1.IsTidy :=
    isTidy_grow trivial (fun frame hframe => absurd hframe List.not_mem_nil)
      (isSound_of_mem_tokens markup.toList)
  unfold Document.parse Document.ofMarkup
  generalize grow 1 .nil [] (tokens markup.toList) = grown at hgrow ⊢
  obtain ⟨top, next⟩ := grown
  dsimp only at hgrow ⊢
  cases hcompleted : completed next top with
  | none =>
    refine ⟨⟨bears_of_bare not_isChildless_html _,
      ⟨bears_of_bare not_isChildless_body _, hgrow, trivial⟩, trivial⟩, ?_⟩
    exact ⟨[], next, ⟨"html", []⟩, _, [], rfl, by simp, rfl, rfl⟩
  | some completion => exact ⟨hgrow.completed hcompleted, hasBody_completed hcompleted⟩

end KeepAlive.Markup
