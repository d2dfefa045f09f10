import KeepAlive.Proofs.Markup.Entries

/-!
# The numbers of the nodes

Nodes are numbered as they are made, and none is lost: while a document grows, the numbers below the
next one belong to the document itself, to the nodes inside the innermost open element, to the open
elements and to their elder siblings.  Ending an element moves nodes about without making any, and an
added `html` or `body` takes the next number.
-/

namespace KeepAlive.Markup

/-- The numbers of open elements and of what stands before them. -/
def openIds (frames : List Open) : List Nat :=
  frames.flatMap fun frame => frame.id :: frame.elder.ids

/-- Whether the numbers below `next` are in use, each once: 0 for the document, the others for its
nodes. -/
def IsNumbered (next : Nat) (numbers : List Nat) : Prop :=
  (0 :: numbers).Perm (List.range next)

section Numbers

variable {next : Nat} {numbers others : List Nat}

theorem IsNumbered.perm (h : IsNumbered next numbers) (hperm : others.Perm numbers) :
    IsNumbered next others :=
  (hperm.cons 0).trans h

theorem IsNumbered.nodup (h : IsNumbered next numbers) : (0 :: numbers).Nodup :=
  h.nodup_iff.2 List.nodup_range

/-- New nodes take the next numbers. -/
theorem IsNumbered.append (h : IsNumbered next numbers) (added : Nat) :
    IsNumbered (next + added) (List.range' next added ++ numbers) := by
  unfold IsNumbered at *
  rw [List.range_add, ← List.range'_eq_map_range]
  refine List.perm_middle.symm.trans (List.perm_append_comm.trans ?_)
  exact h.append_right _

theorem IsNumbered.cons (h : IsNumbered next numbers) : IsNumbered (next + 1) (next :: numbers) :=
  h.append 1

end Numbers

/-! ## Growing -/

theorem ids_close_perm (frame : Open) (children : Forest) :
    (frame.close children).ids.Perm (children.ids ++ (frame.id :: frame.elder.ids)) := by
  refine List.Perm.trans (List.Perm.cons frame.id ?_) List.perm_middle.symm
  exact children.ids_reverse_perm.append_right frame.elder.ids

theorem ids_closeAll_perm (current : Forest) (frames : List Open) :
    (closeAll current frames).ids.Perm (current.ids ++ openIds frames) := by
  induction frames generalizing current with
  | nil => simpa [closeAll, openIds] using current.ids_reverse_perm
  | cons frame frames ih =>
    refine (ih (frame.close current)).trans ?_
    refine ((ids_close_perm frame current).append_right (openIds frames)).trans ?_
    simp [openIds]

theorem ids_closeThrough_perm (tag : String) (current : Forest) (frames : List Open) :
    ((closeThrough tag current frames).1.ids ++
      openIds (closeThrough tag current frames).2).Perm (current.ids ++ openIds frames) := by
  induction frames generalizing current with
  | nil => exact List.Perm.refl _
  | cons frame frames ih =>
    have hclose : ((frame.close current).ids ++ openIds frames).Perm
        (current.ids ++ openIds (frame :: frames)) := by
      refine ((ids_close_perm frame current).append_right (openIds frames)).trans ?_
      simp [openIds]
    unfold closeThrough
    split
    · exact hclose
    · exact (ih (frame.close current)).trans hclose

/-- What has been numbered stays numbered, whatever tokens follow. -/
theorem isNumbered_grow {next : Nat} {current : Forest} {frames : List Open}
    (h : IsNumbered next (current.ids ++ openIds frames)) (tokens : List Token) :
    IsNumbered (grow next current frames tokens).2 (grow next current frames tokens).1.ids := by
  -- A text and a start tag make one node each; an end tag only moves nodes about.
  induction tokens generalizing next current frames with
  | nil => exact h.perm (ids_closeAll_perm current frames)
  | cons token tokens ih =>
    cases token with
    | text content => exact ih h.cons
    | opening tag attributes leaf =>
      unfold grow
      split
      · exact ih h.cons
      · exact ih h.cons
    | closing tag =>
      unfold grow
      split
      · exact ih (h.perm (ids_closeThrough_perm _ current frames))
      · exact ih h

/-! ## Completing -/

/-- The children of an `html` element, with a `body` around some of them. -/
theorem exists_withBody_eq (next : Nat) (children : Forest) :
    ∃ heads others, (heads ++ others).Perm children.toList ∧
      withBody next children =
        .ofList (heads ++ [.element next ⟨"body", []⟩ (.ofList others)]) := by
  refine ⟨children.toList.filter (·.tag? = some "head"),
    children.toList.filter fun node => !decide (node.tag? = some "head"),
    List.filter_append_perm _ _, ?_⟩
  unfold withBody
  rw [List.partition_eq_filter_filter]
  rfl

theorem ids_withBody_perm (next : Nat) (children : Forest) :
    (withBody next children).ids.Perm (next :: children.ids) := by
  obtain ⟨heads, others, hparts, heq⟩ := exists_withBody_eq next children
  have hids : (Forest.ofList (heads ++ others)).ids.Perm children.ids :=
    Forest.ids_perm (by rwa [Forest.toList_ofList])
  rw [heq]
  refine List.Perm.trans ?_ (hids.cons next)
  simp [Forest.ids_ofList, Node.tree, Forest.cons, Forest.ids]

/-- A `body` that is added takes the next number. -/
theorem ids_completed_perm {next added : Nat} {forest whole : Forest}
    (h : completed next forest = some (whole, added)) :
    whole.ids.Perm (List.range' next added ++ forest.ids) := by
  induction forest generalizing whole with
  | nil => cases h
  | text id content rest ih =>
    obtain ⟨⟨inner, count⟩, hinner, heq⟩ := Option.map_eq_some_iff.1 h
    cases heq
    exact ((ih hinner).cons id).trans List.perm_middle.symm
  | element id head children rest _ ih =>
    unfold completed at h
    split at h
    · split at h
      · cases h
        exact List.Perm.refl _
      · cases h
        refine (((ids_withBody_perm next children).append_right rest.ids).cons id).trans ?_
        exact List.Perm.swap next id _
    · obtain ⟨⟨inner, count⟩, hinner, heq⟩ := Option.map_eq_some_iff.1 h
      cases heq
      refine (((ih hinner).append_left children.ids).cons id).trans ?_
      refine List.Perm.trans ?_ List.perm_middle.symm
      exact (List.perm_append_comm_assoc children.ids _ rest.ids).cons id

/-- The numbers of a document are those below its size, each once. -/
theorem isNumbered_parse (markup : String) :
    IsNumbered (Document.parse markup).size (Document.parse markup).top.ids := by
  have hstart : IsNumbered 1 (Forest.nil.ids ++ openIds []) := List.Perm.refl [0]
  have hgrow := isNumbered_grow hstart (tokens markup.toList)
  unfold Document.parse Document.ofMarkup
  generalize grow 1 .nil [] (tokens markup.toList) = grown at hgrow ⊢
  obtain ⟨top, next⟩ := grown
  dsimp only at hgrow ⊢
  cases hcompleted : completed next top with
  | none =>
    have hids : (Forest.element next ⟨"html", []⟩
        (.element (next + 1) ⟨"body", []⟩ top .nil) .nil).ids = next :: (next + 1) :: top.ids := by
      simp [Forest.ids]
    dsimp only
    rw [hids]
    exact hgrow.cons.cons.perm (List.Perm.swap _ _ _)
  | some completion => exact (hgrow.append _).perm (ids_completed_perm hcompleted)

end KeepAlive.Markup
