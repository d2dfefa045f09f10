import KeepAlive.Proofs.Markup.Numbers
import KeepAlive.Proofs.Text.Letters

/-!
# Where elements come from

Every element of a document is made by a start tag of its text, the `html` and the `body` that may be
added apart.  Its tag is thus a name in small letters that begins with a letter, and a document has
hardly more nodes than its text has characters.
-/

namespace KeepAlive.Markup

/-- The name and attributes of every element, in document order. -/
def Forest.heads : Forest → List Element
  | .nil => []
  | .text _ _ next => next.heads
  | .element _ head children next => head :: (children.heads ++ next.heads)

/-- The names and attributes of open elements and of the elements before them. -/
def openHeads (frames : List Open) : List Element :=
  frames.flatMap fun frame => frame.head :: frame.elder.heads

/-- The name and attributes that a start tag gives an element. -/
def Token.head? : Token → Option Element
  | .opening tag attributes _ => some (Element.ofTag tag attributes)
  | .text _ => none
  | .closing _ => none

/-! ## Growing -/

theorem Forest.heads_ofList (nodes : List Node) :
    (ofList nodes).heads = nodes.flatMap fun node => node.tree.heads := by
  induction nodes with
  | nil => rfl
  | cons node rest ih =>
    rw [List.flatMap_cons, ← ih]
    cases node <;> simp [ofList, Node.tree, cons, heads]

theorem Forest.heads_perm {forest other : Forest} (h : forest.toList.Perm other.toList) :
    forest.heads.Perm other.heads := by
  rw [← ofList_toList forest, ← ofList_toList other, heads_ofList, heads_ofList]
  exact h.flatMap_right _

theorem Forest.heads_reverse_perm (forest : Forest) : forest.reverse.heads.Perm forest.heads :=
  heads_perm (by simp)

theorem heads_close_perm (frame : Open) (children : Forest) :
    (frame.close children).heads.Perm (children.heads ++ (frame.head :: frame.elder.heads)) := by
  refine List.Perm.trans (List.Perm.cons frame.head ?_) List.perm_middle.symm
  exact children.heads_reverse_perm.append_right frame.elder.heads

theorem heads_close_append_perm (frame : Open) (children : Forest) (frames : List Open) :
    ((frame.close children).heads ++ openHeads frames).Perm
      (children.heads ++ openHeads (frame :: frames)) := by
  refine ((heads_close_perm frame children).append_right (openHeads frames)).trans ?_
  simp [openHeads]

theorem heads_closeAll_perm (current : Forest) (frames : List Open) :
    (closeAll current frames).heads.Perm (current.heads ++ openHeads frames) := by
  induction frames generalizing current with
  | nil =>
    rw [openHeads, List.flatMap_nil, List.append_nil]
    exact current.heads_reverse_perm
  | cons frame frames ih =>
    exact (ih (frame.close current)).trans (heads_close_append_perm frame current frames)

theorem heads_closeThrough_perm (tag : String) (current : Forest) (frames : List Open) :
    ((closeThrough tag current frames).1.heads ++
      openHeads (closeThrough tag current frames).2).Perm (current.heads ++ openHeads frames) := by
  induction frames generalizing current with
  | nil => exact List.Perm.refl _
  | cons frame frames ih =>
    unfold closeThrough
    split
    · exact heads_close_append_perm frame current frames
    · exact (ih (frame.close current)).trans (heads_close_append_perm frame current frames)

/-- Each start tag adds its element to those that are there, and nothing else does. -/
theorem heads_grow_perm {next : Nat} {current : Forest} {frames : List Open} (tokens : List Token) :
    (grow next current frames tokens).1.heads.Perm
      (tokens.filterMap Token.head? ++ (current.heads ++ openHeads frames)) := by
  induction tokens generalizing next current frames with
  | nil => exact heads_closeAll_perm current frames
  | cons token tokens ih =>
    cases token with
    | text content => exact ih
    | opening tag attributes leaf =>
      have hmade : (Token.opening tag attributes leaf :: tokens).filterMap Token.head? =
          Element.ofTag tag attributes :: tokens.filterMap Token.head? := rfl
      rw [hmade]
      unfold grow
      split
      · exact ih.trans List.perm_middle
      · exact ih.trans List.perm_middle
    | closing tag =>
      unfold grow
      split
      · exact ih.trans ((heads_closeThrough_perm _ current frames).append_left _)
      · exact ih

/-! ## Completing -/

theorem heads_withBody_perm (next : Nat) (children : Forest) :
    (withBody next children).heads.Perm (⟨"body", []⟩ :: children.heads) := by
  obtain ⟨heads, others, hparts, heq⟩ := exists_withBody_eq next children
  have hheads : (Forest.ofList (heads ++ others)).heads.Perm children.heads :=
    Forest.heads_perm (by rwa [Forest.toList_ofList])
  rw [heq]
  refine List.Perm.trans ?_ (hheads.cons _)
  simp [Forest.heads_ofList, Node.tree, Forest.cons, Forest.heads]

/-- A `body` that is added has no attributes. -/
theorem heads_completed_perm {next added : Nat} {forest whole : Forest}
    (h : completed next forest = some (whole, added)) :
    whole.heads.Perm (List.replicate added ⟨"body", []⟩ ++ forest.heads) := by
  induction forest generalizing whole with
  | nil => cases h
  | text id content rest ih =>
    obtain ⟨⟨inner, count⟩, hinner, heq⟩ := Option.map_eq_some_iff.1 h
    cases heq
    have hperm : inner.heads.Perm (List.replicate added ⟨"body", []⟩ ++ rest.heads) := ih hinner
    exact hperm
  | element id head children rest _ ih =>
    unfold completed at h
    split at h
    · split at h
      · cases h
        exact List.Perm.refl _
      · cases h
        refine (((heads_withBody_perm next children).append_right rest.heads).cons head).trans ?_
        exact List.Perm.swap _ head _
    · obtain ⟨⟨inner, count⟩, hinner, heq⟩ := Option.map_eq_some_iff.1 h
      cases heq
      refine (((ih hinner).append_left children.heads).cons head).trans ?_
      refine List.Perm.trans ?_ List.perm_middle.symm
      exact (List.perm_append_comm_assoc children.heads _ rest.heads).cons head

/-- Every element of a document is made by one of its start tags, if it is not an added one. -/
theorem heads_parse_subset (markup : String) :
    (Document.parse markup).top.heads ⊆
      ⟨"html", []⟩ :: ⟨"body", []⟩ :: (tokens markup.toList).filterMap Token.head? := by
  have hgrow : (grow 1 .nil [] (tokens markup.toList)).1.heads.Perm
      ((tokens markup.toList).filterMap Token.head? ++ []) := heads_grow_perm (tokens markup.toList)
  rw [List.append_nil] at hgrow
  unfold Document.parse Document.ofMarkup
  generalize grow 1 .nil [] (tokens markup.toList) = grown at hgrow ⊢
  obtain ⟨top, next⟩ := grown
  dsimp only at hgrow ⊢
  cases hcompleted : completed next top with
  | none =>
    have hheads : (Forest.element next ⟨"html", []⟩
        (.element (next + 1) ⟨"body", []⟩ top .nil) .nil).heads =
        ⟨"html", []⟩ :: ⟨"body", []⟩ :: top.heads := by
      simp [Forest.heads]
    dsimp only
    rw [hheads]
    exact ((hgrow.cons _).cons _).subset
  | some completion =>
    refine List.Subset.trans (heads_completed_perm hcompleted).subset ?_
    refine List.append_subset.2 ⟨fun head hhead => ?_, fun head hhead => ?_⟩
    · obtain rfl := List.eq_of_mem_replicate hhead
      exact List.mem_cons_of_mem _ List.mem_cons_self
    · exact List.mem_cons_of_mem _ (List.mem_cons_of_mem _ (hgrow.subset hhead))

/-! ## Tags -/

theorem slash_notMem_takeWhile (s : List Char) : '/' ∉ s.takeWhile inName :=
  fun hslash => absurd (List.all_eq_true.1 List.all_takeWhile _ hslash) (by decide)

theorem inName_of_isAlpha {c : Char} (h : c.isAlpha = true) : inName c = true := by
  have hcode := Text.isAlpha_iff_toNat.1 h
  have hblank : Text.isBlank c = false := by
    rw [Bool.eq_false_iff]
    intro hblank
    have hother := Text.code_of_isBlank hblank
    omega
  have hne (d : Char) (hd : d.toNat = 62 ∨ d.toNat = 47 ∨ d.toNat = 61) : c ≠ d := by
    rintro rfl
    omega
  simp [inName, hblank, hne '>' (by decide), hne '/' (by decide), hne '=' (by decide)]

/-- Whether a start tag has a name, in small letters and without a slash. -/
def Token.IsNamed : Token → Prop
  | .opening tag _ _ => tag ≠ [] ∧ Text.asciiLower tag = tag ∧ '/' ∉ tag
  | _ => True

theorem isNamed_of_mem_tokens (s : List Char) : ∀ token ∈ tokens s, token.IsNamed := by
  have hnamed {c : Char} {rest : List Char} {attributes : List (List Char × List Char)} {leaf : Bool}
      (h : (c = '<' && rest.head?.any Char.isAlpha) = true) :
      (Token.opening (Text.asciiLower (rest.takeWhile inName)) attributes leaf).IsNamed := by
    have hsome : Text.asciiLower (rest.takeWhile inName) ≠ [] := by
      cases rest with
      | nil => simp at h
      | cons first rest =>
        have hfirst : inName first = true := inName_of_isAlpha (Bool.and_eq_true_iff.1 h).2
        simp [Text.asciiLower, hfirst]
    have hslash : '/' ∉ Text.asciiLower (rest.takeWhile inName) := fun hmem =>
      slash_notMem_takeWhile rest (Text.mem_of_mem_asciiLower (by decide) hmem)
    exact ⟨hsome, Text.asciiLower_asciiLower _, hslash⟩
  fun_induction tokens s with
  | case1 => exact fun token htoken => absurd htoken List.not_mem_nil
  | case2 c rest hcomment hle ih => exact ih
  | case3 c rest hcomment hdeclaration hle ih => exact ih
  | case4 c rest hcomment hdeclaration hclosing name hle ih =>
    exact List.forall_mem_cons.2 ⟨trivial, ih⟩
  | case5 c rest _ _ _ hletter tag _ _ read hraw _ ih =>
    exact List.forall_mem_cons.2 ⟨hnamed hletter, ih⟩
  | case6 c rest _ _ _ hletter tag _ _ read hraw ih =>
    exact List.forall_mem_cons.2 ⟨hnamed hletter, ih⟩
  | case7 c rest _ _ _ _ raw hle hblank ih => exact ih
  | case8 c rest _ _ _ _ raw hle hblank ih => exact List.forall_mem_cons.2 ⟨trivial, ih⟩

/-- The tags of a document are not empty and have neither capitals nor slashes. -/
theorem tag_of_mem_heads {markup : String} {head : Element}
    (h : head ∈ (Document.parse markup).top.heads) :
    head.tag ≠ "" ∧ Text.asciiLower head.tag.toList = head.tag.toList ∧ '/' ∉ head.tag.toList := by
  rcases List.mem_cons.1 (heads_parse_subset markup h) with rfl | h
  · decide
  rcases List.mem_cons.1 h with rfl | h
  · decide
  obtain ⟨token, htoken, hhead⟩ := List.mem_filterMap.1 h
  have hnamed := isNamed_of_mem_tokens markup.toList token htoken
  cases token with
  | text => cases hhead
  | closing => cases hhead
  | opening tag attributes leaf =>
    cases hhead
    refine ⟨fun hempty => hnamed.1 ?_, ?_⟩
    · simpa [Element.ofTag] using hempty
    · simpa [Element.ofTag] using hnamed.2

/-! ## Size -/

theorem length_tokens_le (s : List Char) : (tokens s).length ≤ s.length := by
  fun_induction tokens s with
  | case1 => exact Nat.le_refl 0
  | case2 c rest hcomment hle ih => exact Nat.le_trans ih (Nat.le_succ_of_le hle)
  | case3 c rest hcomment hdeclaration hle ih => exact Nat.le_trans ih (Nat.le_succ_of_le hle)
  | case4 c rest hcomment hdeclaration hclosing name hle ih =>
    rw [List.length_drop] at hle
    simp only [List.length_cons]
    omega
  | case5 c rest _ _ _ _ tag hattributes hname read hraw hcontent ih =>
    have hread : read.2.2.length ≤ (rest.dropWhile inName).length := hattributes
    simp only [List.length_cons]
    omega
  | case6 c rest _ _ _ _ tag hattributes hname read hraw ih =>
    have hread : read.2.2.length ≤ (rest.dropWhile inName).length := hattributes
    simp only [List.length_cons]
    omega
  | case7 c rest _ _ _ _ raw hle hblank ih => exact Nat.le_trans ih (Nat.le_succ_of_le hle)
  | case8 c rest _ _ _ _ raw hle hblank ih =>
    exact Nat.succ_le_succ (Nat.le_trans ih hle)

/-- A token makes at most one node. -/
theorem grow_snd_le {next : Nat} {current : Forest} {frames : List Open} (tokens : List Token) :
    (grow next current frames tokens).2 ≤ next + tokens.length := by
  induction tokens generalizing next current frames with
  | nil => exact Nat.le_refl next
  | cons token tokens ih =>
    have hmade : next + 1 + tokens.length = next + (token :: tokens).length := by
      rw [List.length_cons]
      omega
    cases token with
    | text content => exact hmade ▸ ih
    | opening tag attributes leaf =>
      unfold grow
      split
      · exact hmade ▸ ih
      · exact hmade ▸ ih
    | closing tag =>
      unfold grow
      split
      · exact Nat.le_trans ih (Nat.add_le_add_left (Nat.le_succ _) next)
      · exact Nat.le_trans ih (Nat.add_le_add_left (Nat.le_succ _) next)

theorem completed_snd_le {next added : Nat} {forest whole : Forest}
    (h : completed next forest = some (whole, added)) : added ≤ 1 := by
  induction forest generalizing whole with
  | nil => cases h
  | text id content rest ih =>
    obtain ⟨⟨inner, count⟩, hinner, heq⟩ := Option.map_eq_some_iff.1 h
    cases heq
    exact ih hinner
  | element id head children rest _ ih =>
    unfold completed at h
    split at h
    · split at h
      · cases h
        exact Nat.zero_le 1
      · cases h
        exact Nat.le_refl 1
    · obtain ⟨⟨inner, count⟩, hinner, heq⟩ := Option.map_eq_some_iff.1 h
      cases heq
      exact ih hinner

/-- A document has at most one node for each character of its text, itself and two added elements
apart. -/
theorem size_parse_le (markup : String) : (Document.parse markup).size ≤ markup.length + 3 := by
  have hgrow : (grow 1 .nil [] (tokens markup.toList)).2 ≤ 1 + (tokens markup.toList).length :=
    grow_snd_le (tokens markup.toList)
  have htokens := length_tokens_le markup.toList
  rw [String.length_toList] at htokens
  unfold Document.parse Document.ofMarkup
  generalize grow 1 .nil [] (tokens markup.toList) = grown at hgrow ⊢
  obtain ⟨top, next⟩ := grown
  dsimp only at hgrow ⊢
  cases hcompleted : completed next top with
  | none =>
    dsimp only
    omega
  | some completion =>
    have hadded : completion.2 ≤ 1 := completed_snd_le hcompleted
    dsimp only
    omega

end KeepAlive.Markup
