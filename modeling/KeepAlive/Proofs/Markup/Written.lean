import KeepAlive.Markup.Document
import KeepAlive.Proofs.Markup.Spelling
import KeepAlive.Proofs.Text.Letters
import KeepAlive.Proofs.Text.Runs

/-!
# Written documents

A tree is written as a start tag with quoted attributes, what is written for the children, and an end
tag; an element that never has children has no end tag.  Reading what is written for a tree gives the
tree again, with its nodes numbered in document order.
-/

namespace KeepAlive.Markup

/-! ## Simple trees -/

/-- Whether a name is a small letter with small letters, digits, `-`, `_` and `:` after it. -/
def IsSimpleName (name : String) : Prop :=
  name.toList.head?.any Char.isLower = true ∧
    ∀ c ∈ name.toList, c.isLower = true ∨ c.isDigit = true ∨ c = '-' ∨ c = '_' ∨ c = ':'

instance (name : String) : Decidable (IsSimpleName name) :=
  decidable_of_iff (name.toList.head?.any Char.isLower = true ∧
    name.toList.all (fun c => c.isLower || c.isDigit || c = '-' || c = '_' || c = ':') = true)
    (by simp [IsSimpleName, or_assoc])

/-- Whether an element has a simple name that is not the name of an element without markup in it, and
attributes with simple and distinct names. -/
def Element.IsSimple (head : Element) : Prop :=
  IsSimpleName head.tag ∧ head.tag ∉ rawTags ∧
    (∀ name ∈ head.attributes.map Prod.fst, IsSimpleName name) ∧
      (head.attributes.map Prod.fst).Nodup

instance (head : Element) : Decidable head.IsSimple :=
  inferInstanceAs (Decidable (_ ∧ _ ∧ _ ∧ _))

/-- Whether every element of a forest is simple and has no children if it never has any, and every
text is more than blanks and is not followed by another text. -/
def Forest.IsSimple : Forest → Prop
  | .nil => True
  | .text _ content next =>
    (∃ c ∈ content.toList, Text.isBlank c = false) ∧
      next.toList.head?.bind Node.content? = none ∧ next.IsSimple
  | .element _ head children next =>
    head.IsSimple ∧ (head.tag ∈ voidTags → children = .nil) ∧ children.IsSimple ∧ next.IsSimple

/-- The forest with its nodes numbered from `first` in document order. -/
def Forest.numbered (first : Nat) : Forest → Forest
  | .nil => .nil
  | .text _ content next => .text first content (next.numbered (first + 1))
  | .element _ head children next =>
    .element first head (children.numbered (first + 1))
      (next.numbered (first + 1 + children.size))

/-! ## Written forms -/

/-- Whether the characters write the attributes, each value between two equal quotes, with blanks
between the parts as one likes. -/
inductive WrittenAttributes : List (String × String) → List Char → Prop
  | nil {blanks : List Char} : Text.AreBlank blanks → WrittenAttributes [] blanks
  | cons {name value : String} {others : List (String × String)} {quote : Char}
      {lead before after body rest : List Char} : Text.AreBlank lead → Text.AreBlank before →
      Text.AreBlank after → quote = '"' ∨ quote = '\'' → WrittenText quote value.toList body →
      WrittenAttributes others rest →
      WrittenAttributes ((name, value) :: others)
        (lead ++ name.toList ++ before ++ '=' :: (after ++ quote :: (body ++ quote :: rest)))

/-- Whether the characters are a start tag of the element, which leaves a blank after its name or
ends there. -/
def WrittenStart (head : Element) (s : List Char) : Prop :=
  ∃ inside, WrittenAttributes head.attributes inside ∧
    (∀ c, inside.head? = some c → Text.isBlank c = true) ∧
      s = '<' :: (head.tag.toList ++ inside ++ ['>'])

/-- Whether the characters write the nodes of the forest, whatever their numbers are. -/
inductive WrittenForest : Forest → List Char → Prop
  | nil : WrittenForest .nil []
  | text {id : Nat} {content : String} {next : Forest} {body rest : List Char} :
      WrittenText '<' content.toList body → WrittenForest next rest →
      WrittenForest (.text id content next) (body ++ rest)
  | void {id : Nat} {head : Element} {next : Forest} {start rest : List Char} :
      head.tag ∈ voidTags → WrittenStart head start → WrittenForest next rest →
      WrittenForest (.element id head .nil next) (start ++ rest)
  | element {id : Nat} {head : Element} {children next : Forest}
      {start inside blanks rest : List Char} : head.tag ∉ voidTags → WrittenStart head start →
      WrittenForest children inside → Text.AreBlank blanks → WrittenForest next rest →
      WrittenForest (.element id head children next)
        (start ++ inside ++ '<' :: '/' :: (head.tag.toList ++ blanks ++ '>' :: rest))

/-! ## Names -/

section Name

variable {c : Char}

/-- Whether a simple name may hold the character. -/
def InSimpleName (c : Char) : Prop :=
  c.isLower = true ∨ c.isDigit = true ∨ c = '-' ∨ c = '_' ∨ c = ':'

theorem code_of_inSimpleName (h : InSimpleName c) :
    (97 ≤ c.toNat ∧ c.toNat ≤ 122) ∨ (48 ≤ c.toNat ∧ c.toNat ≤ 58) ∨ c.toNat = 45 ∨
      c.toNat = 95 := by
  rcases h with h | h | rfl | rfl | rfl
  · exact .inl (Text.isLower_iff_toNat.1 h)
  · obtain ⟨hlow, hhigh⟩ := Char.isDigit_iff_toNat.1 h
    exact .inr (.inl ⟨hlow, Nat.le_trans hhigh (by decide)⟩)
  · decide
  · decide
  · decide

theorem isBlank_of_inSimpleName (h : InSimpleName c) : Text.isBlank c = false := by
  have hcode := code_of_inSimpleName h
  rw [Bool.eq_false_iff]
  intro hblank
  have hother := Text.code_of_isBlank hblank
  omega

theorem inName_of_inSimpleName (h : InSimpleName c) : inName c = true := by
  have hcode := code_of_inSimpleName h
  have hne (d : Char) (hd : d.toNat = 62 ∨ d.toNat = 47 ∨ d.toNat = 61) : c ≠ d := by
    rintro rfl
    omega
  simp [inName, isBlank_of_inSimpleName h, hne '>' (by decide), hne '/' (by decide),
    hne '=' (by decide)]

theorem toLower_of_inSimpleName (h : InSimpleName c) : c.toLower = c := by
  have hcode := code_of_inSimpleName h
  refine Char.toLower_eq_of_not_isUpper fun hupper => ?_
  have hother := Text.isUpper_iff_toNat.1 hupper
  omega

theorem IsSimpleName.inSimpleName {name : String} (h : IsSimpleName name) :
    ∀ c ∈ name.toList, InSimpleName c :=
  h.2

theorem IsSimpleName.asciiLower {name : String} (h : IsSimpleName name) :
    Text.asciiLower name.toList = name.toList :=
  (List.map_congr_left fun c hc => toLower_of_inSimpleName (h.2 c hc)).trans (List.map_id' _)

theorem IsSimpleName.exists_cons {name : String} (h : IsSimpleName name) :
    ∃ first more, name.toList = first :: more ∧ first.isLower = true := by
  cases hname : name.toList with
  | nil => simp [IsSimpleName, hname] at h
  | cons first more => exact ⟨first, more, rfl, by simpa [hname] using h.1⟩

end Name

/-! ## Reading attributes -/

theorem attributes_close {s rest : List Char} (h : Text.dropBlanks s = '>' :: rest) :
    attributes s = ([], false, rest) := by
  rw [attributes]
  split
  · rename_i hnil
    rw [hnil] at h
    cases h
  · rename_i c more hcons
    rw [hcons] at h
    cases h
    rfl

theorem attributes_name {s rest : List Char} {c : Char} (h : Text.dropBlanks s = c :: rest)
    (hc : InSimpleName c) :
    attributes s =
      ((Text.asciiLower (c :: rest.takeWhile inName),
          (valueAfterName (rest.dropWhile inName)).1) ::
        (attributes (valueAfterName (rest.dropWhile inName)).2).1,
        (attributes (valueAfterName (rest.dropWhile inName)).2).2) := by
  have hname := inName_of_inSimpleName hc
  have hplain : c ≠ '>' ∧ c ≠ '/' ∧ c ≠ '=' := by
    simp only [inName, Bool.not_eq_true', Bool.or_eq_false_iff, decide_eq_false_iff_not] at hname
    exact ⟨hname.1.1.2, hname.1.2, hname.2⟩
  rw [attributes]
  split
  · rename_i hnil
    rw [hnil] at h
    cases h
  · rename_i d more hcons
    rw [hcons] at h
    cases h
    simp only [if_neg hplain.1, if_neg hplain.2.1, if_neg hplain.2.2]

/-- A quoted value is read to its closing quote. -/
theorem valueAfterName_quoted {before after content body rest : List Char} {quote : Char}
    (hbefore : Text.AreBlank before) (hafter : Text.AreBlank after)
    (hquote : quote = '"' ∨ quote = '\'') (hbody : WrittenText quote content body) :
    valueAfterName (before ++ '=' :: (after ++ quote :: (body ++ quote :: rest))) =
      (content, rest) := by
  have hopen : Text.dropBlanks (after ++ quote :: (body ++ quote :: rest)) =
      quote :: (body ++ quote :: rest) := by
    refine Text.dropBlanks_append hafter (Text.stopsAt_cons_iff.2 ?_)
    rcases hquote with rfl | rfl <;> decide
  have hclosed : ∀ c ∈ body, decide (c ≠ quote) = true := by
    intro c hc
    refine decide_eq_true ?_
    rintro rfl
    exact hbody.bar_notMem (.inr hquote) hc
  have hstops : Text.StopsAt (fun c => decide (c ≠ quote)) (quote :: rest) :=
    Text.stopsAt_cons_iff.2 (by simp)
  rw [valueAfterName, Text.dropBlanks_append hbefore (Text.stopsAt_cons_iff.2 (by decide))]
  simp only
  rw [hopen, attributeValue, if_pos (by simpa using hquote), Text.takeWhile_run hclosed hstops,
    Text.dropWhile_run hclosed hstops, hbody.resolve_eq]
  rfl

theorem stopsAt_inName {blanks s : List Char} {c : Char} (hblanks : Text.AreBlank blanks)
    (hc : inName c = false) : Text.StopsAt inName (blanks ++ c :: s) :=
  Text.stopsAt_blanks_append (fun d hd => by simp [inName, hd]) hblanks
    (Text.stopsAt_cons_iff.2 hc)

/-- Written attributes are read one by one, to the end of the tag. -/
theorem attributes_of_written {given : List (String × String)} {inside : List Char}
    (hwritten : WrittenAttributes given inside)
    (hnames : ∀ name ∈ given.map Prod.fst, IsSimpleName name) (rest : List Char) :
    attributes (inside ++ '>' :: rest) =
      (given.map fun (name, value) => (name.toList, value.toList), false, rest) := by
  induction hwritten with
  | nil hblanks =>
    exact attributes_close (Text.dropBlanks_append hblanks (Text.stopsAt_cons_iff.2 (by decide)))
  | @cons name value others quote lead before after body inside hlead hbefore hafter hquote hbody _
      ih =>
    rw [List.map_cons, List.forall_mem_cons] at hnames
    obtain ⟨first, more, hname, -⟩ := hnames.1.exists_cons
    have hinside := hnames.1.inSimpleName
    have hlower := hnames.1.asciiLower
    rw [hname] at hinside hlower
    obtain ⟨hfirst, hmore⟩ := List.forall_mem_cons.1 hinside
    have hrun : ∀ c ∈ more, inName c = true := fun c hc => inName_of_inSimpleName (hmore c hc)
    have hstops (s : List Char) : Text.StopsAt inName (before ++ '=' :: s) :=
      stopsAt_inName hbefore (by decide)
    have hstart (s : List Char) : Text.dropBlanks (lead ++ first :: s) = first :: s :=
      Text.dropBlanks_append hlead (Text.stopsAt_cons_iff.2 (isBlank_of_inSimpleName hfirst))
    simp only [hname, List.append_assoc, List.cons_append, List.map_cons]
    rw [attributes_name (hstart _) hfirst, Text.takeWhile_run hrun (hstops _),
      Text.dropWhile_run hrun (hstops _), valueAfterName_quoted hbefore hafter hquote hbody, hlower,
      ih hnames.2]

/-! ## Reading tokens -/

theorem foldl_kept_of_nodup (given kept : List (List Char × List Char))
    (h : ((kept ++ given).map Prod.fst).Nodup) :
    given.foldl (fun kept pair => if kept.any (·.1 = pair.1) then kept else kept ++ [pair]) kept =
      kept ++ given := by
  induction given generalizing kept with
  | nil => simp
  | cons pair given ih =>
    have hnew : kept.any (·.1 = pair.1) = false := by
      rw [List.map_append, List.map_cons, List.nodup_append] at h
      rw [List.any_eq_false]
      intro other hother
      simpa using h.2.2 other.1 (List.mem_map_of_mem hother) pair.1 List.mem_cons_self
    rw [List.foldl_cons, hnew, if_neg Bool.false_ne_true, ih, List.append_assoc,
      List.singleton_append]
    rwa [List.append_assoc, List.singleton_append]

/-- Attributes with distinct names are all kept. -/
theorem firstOfEachName_of_nodup {given : List (List Char × List Char)}
    (h : (given.map Prod.fst).Nodup) : firstOfEachName given = given :=
  foldl_kept_of_nodup given [] h

theorem tokens_of_ne {c : Char} (hc : c ≠ '<') (rest : List Char) :
    tokens (c :: rest) =
      if (c :: rest.takeWhile (· ≠ '<')).all Text.isBlank then tokens (rest.dropWhile (· ≠ '<'))
      else .text (resolve (c :: rest.takeWhile (· ≠ '<'))) :: tokens (rest.dropWhile (· ≠ '<')) := by
  rw [tokens]
  simp only [decide_eq_false hc, Bool.false_and, Bool.false_eq_true, if_false]

/-- A text is one token up to the next `<`. -/
theorem tokens_text {content body rest : List Char} (hbody : WrittenText '<' content body)
    (hcontent : ∃ c ∈ content, Text.isBlank c = false)
    (hrest : Text.StopsAt (fun c => decide (c ≠ '<')) rest) :
    tokens (body ++ rest) = .text content :: tokens rest := by
  have hplain := hbody.bar_notMem (.inl rfl)
  obtain ⟨d, hd, hblank⟩ := hbody.exists_not_isBlank hcontent
  have hall : body.all Text.isBlank = false := by
    rw [List.all_eq_false]
    exact ⟨d, hd, by simp [hblank]⟩
  have hresolved := hbody.resolve_eq
  cases body with
  | nil => cases hd
  | cons c more =>
    obtain ⟨hc, hmore⟩ := List.ne_and_not_mem_of_not_mem_cons hplain
    have hrun : ∀ e ∈ more, decide (e ≠ '<') = true := by
      intro e he
      refine decide_eq_true ?_
      rintro rfl
      exact hmore he
    rw [List.cons_append, tokens_of_ne hc.symm, Text.takeWhile_run hrun hrest,
      Text.dropWhile_run hrun hrest, hall, hresolved, if_neg Bool.false_ne_true]

theorem tokens_open {first : Char} (hfirst : first.isAlpha = true) (rest : List Char) :
    tokens ('<' :: first :: rest) =
      let tag := Text.asciiLower ((first :: rest).takeWhile inName)
      let read := attributes ((first :: rest).dropWhile inName)
      if rawTags.contains (String.ofList tag) then
        .opening tag (firstOfEachName read.1) true :: tokens (afterRaw tag read.2.2)
      else
        .opening tag (firstOfEachName read.1)
          (read.2.1 || voidTags.contains (String.ofList tag)) :: tokens read.2.2 := by
  have hplain : first ≠ '!' ∧ first ≠ '?' ∧ first ≠ '/' := by
    refine ⟨?_, ?_, ?_⟩ <;> rintro rfl <;> exact absurd hfirst (by decide)
  rw [tokens]
  simp [hplain, hfirst, Ne.symm hplain.1]

/-- A written start tag is one token. -/
theorem tokens_start {head : Element} {start : List Char} (hhead : head.IsSimple)
    (hstart : WrittenStart head start) (rest : List Char) :
    tokens (start ++ rest) =
      .opening head.tag.toList
        (head.attributes.map fun (name, value) => (name.toList, value.toList))
        (voidTags.contains head.tag) :: tokens rest := by
  obtain ⟨htag, hraw, hnames, hnodup⟩ := hhead
  obtain ⟨inside, hinside, hblank, rfl⟩ := hstart
  obtain ⟨first, more, hname, hfirst⟩ := htag.exists_cons
  have hread := attributes_of_written hinside hnames rest
  have hrun : ∀ c ∈ head.tag.toList, inName c = true :=
    fun c hc => inName_of_inSimpleName (htag.inSimpleName c hc)
  have hstops : Text.StopsAt inName (inside ++ '>' :: rest) := by
    cases inside with
    | nil => exact Text.stopsAt_cons_iff.2 (by decide)
    | cons c inside => exact Text.stopsAt_cons_iff.2 (by simp [inName, hblank c rfl])
  have hkept : firstOfEachName (head.attributes.map fun (name, value) => (name.toList, value.toList)) =
      head.attributes.map fun (name, value) => (name.toList, value.toList) := by
    refine firstOfEachName_of_nodup ?_
    have hkeys : (head.attributes.map fun (name, value) => (name.toList, value.toList)).map Prod.fst =
        (head.attributes.map Prod.fst).map String.toList := by
      simp [Function.comp_def]
    rw [hkeys]
    exact hnodup.map fun _ _ => String.toList_inj.1
  have htaken := Text.takeWhile_run hrun hstops
  have hdropped := Text.dropWhile_run hrun hstops
  have hraw : rawTags.contains head.tag = false := by simpa using hraw
  have hsplit : '<' :: (head.tag.toList ++ inside ++ ['>']) ++ rest =
      '<' :: first :: (more ++ (inside ++ '>' :: rest)) := by
    simp [hname]
  have hletter : first.isAlpha = true := by rw [Char.isAlpha, hfirst, Bool.or_true]
  rw [hsplit, tokens_open hletter, ← List.cons_append, ← hname]
  simp only [htaken, hdropped, htag.asciiLower, hread, hkept, String.ofList_toList, hraw,
    Bool.false_eq_true, if_false, Bool.false_or]

theorem splitAtFirst_append {mark : Char} {before : List Char} (h : mark ∉ before)
    (after : List Char) :
    Text.splitAtFirst [mark] (before ++ mark :: after) = some (before, after) := by
  induction before with
  | nil => simp [Text.splitAtFirst]
  | cons c before ih =>
    obtain ⟨hc, hbefore⟩ := List.ne_and_not_mem_of_not_mem_cons h
    simp [Text.splitAtFirst, hc, ih hbefore]

theorem tokens_close (rest : List Char) :
    tokens ('<' :: '/' :: rest) =
      .closing (Text.asciiLower (rest.takeWhile inName)) :: tokens (Text.afterFirst ['>'] rest) := by
  rw [tokens]
  simp

/-- A written end tag is one token. -/
theorem tokens_end {tag : String} {blanks : List Char} (htag : IsSimpleName tag)
    (hblanks : Text.AreBlank blanks) (rest : List Char) :
    tokens ('<' :: '/' :: (tag.toList ++ blanks ++ '>' :: rest)) =
      .closing tag.toList :: tokens rest := by
  have hrun : ∀ c ∈ tag.toList, inName c = true :=
    fun c hc => inName_of_inSimpleName (htag.inSimpleName c hc)
  have htaken : (tag.toList ++ blanks ++ '>' :: rest).takeWhile inName = tag.toList := by
    rw [List.append_assoc]
    exact Text.takeWhile_run hrun (stopsAt_inName hblanks (by decide))
  have hmark : '>' ∉ tag.toList ++ blanks := by
    intro hmem
    rcases List.mem_append.1 hmem with hmem | hmem
    · exact absurd (hrun _ hmem) (by decide)
    · exact absurd (hblanks _ hmem) (by decide)
  have hafter : Text.afterFirst ['>'] (tag.toList ++ blanks ++ '>' :: rest) = rest := by
    rw [Text.afterFirst, splitAtFirst_append hmark]
    rfl
  rw [tokens_close, htaken, hafter, htag.asciiLower]

/-! ## Growing -/

theorem ofTag_eq (head : Element) :
    Element.ofTag head.tag.toList
      (head.attributes.map fun (name, value) => (name.toList, value.toList)) = head := by
  simp [Element.ofTag, Function.comp_def]

theorem Forest.reverse_reverseOnto_nil (forest : Forest) :
    (forest.reverseOnto .nil).reverse = forest := by
  rw [← Forest.ofList_toList (forest.reverseOnto .nil).reverse, Forest.toList_reverse,
    Forest.toList_reverseOnto]
  simp [Forest.toList]

theorem Forest.ids_numbered (first : Nat) (forest : Forest) :
    (forest.numbered first).ids = List.range' first forest.size := by
  induction forest generalizing first with
  | nil => rfl
  | text id content next ih => simp [numbered, ids, size, ih, List.range'_succ]
  | element id head children next ihc ihn =>
    simp [numbered, ids, size, ihc, ihn, List.range'_succ]

theorem Forest.hasTop_numbered (tag : String) (first : Nat) (forest : Forest) :
    (forest.numbered first).hasTop tag = forest.hasTop tag := by
  induction forest generalizing first with
  | nil => rfl
  | text id content next ih => simpa [numbered, hasTop, toList, Node.tag?] using ih (first + 1)
  | element id head children next _ ih =>
    exact congrArg (decide (some head.tag = some tag) || ·) (ih (first + 1 + children.size))

/-- An end tag closes the innermost open element if it is its own. -/
theorem grow_closing (next : Nat) (current : Forest) (frame : Open) (frames : List Open)
    (tokens : List Token) :
    grow next current (frame :: frames) (.closing frame.head.tag.toList :: tokens) =
      grow next (frame.close current) frames tokens := by
  simp [grow, closeThrough]

theorem WrittenForest.stopsAt {forest : Forest} {s rest : List Char} (h : WrittenForest forest s)
    (htext : forest.toList.head?.bind Node.content? = none)
    (hrest : Text.StopsAt (fun c => decide (c ≠ '<')) rest) :
    Text.StopsAt (fun c => decide (c ≠ '<')) (s ++ rest) := by
  have htag (inside : List Char) :
      Text.StopsAt (fun c => decide (c ≠ '<')) ('<' :: inside) :=
    Text.stopsAt_cons_iff.2 (by decide)
  cases h with
  | nil => exact hrest
  | text => cases htext
  | void _ hstart _ =>
    obtain ⟨inside, -, -, rfl⟩ := hstart
    exact htag _
  | element _ hstart _ _ _ =>
    obtain ⟨inside, -, -, rfl⟩ := hstart
    exact htag _

/-- What is written for a forest becomes its nodes, numbered in document order. -/
theorem grow_of_written {forest : Forest} {s : List Char} (hwritten : WrittenForest forest s)
    (hsimple : forest.IsSimple) {rest : List Char}
    (hrest : Text.StopsAt (fun c => decide (c ≠ '<')) rest) (next : Nat) (current : Forest)
    (frames : List Open) :
    grow next current frames (tokens (s ++ rest)) =
      grow (next + forest.size) ((forest.numbered next).reverseOnto current) frames
        (tokens rest) := by
  -- The open elements around the forest and what follows it stay as they are.
  induction hwritten generalizing rest next current frames with
  | nil => rfl
  | @text id content siblings body others hbody hothers ih =>
    obtain ⟨hcontent, hapart, hsiblings⟩ := hsimple
    rw [List.append_assoc, tokens_text hbody hcontent (hothers.stopsAt hapart hrest), grow,
      ih hsiblings hrest, String.ofList_toList, Nat.add_assoc, Nat.add_comm 1]
    rfl
  | @void id head siblings start others hvoid hstart _ ih =>
    obtain ⟨hhead, -, -, hsiblings⟩ := hsimple
    have hleaf : voidTags.contains head.tag = true := by simpa using hvoid
    rw [List.append_assoc, tokens_start hhead hstart, grow, if_pos hleaf, ofTag_eq,
      ih hsiblings hrest, Nat.add_assoc, Nat.add_comm 1]
    simp [Forest.size, Forest.numbered, Forest.reverseOnto]
  | @element id head children siblings start inside blanks others hopen hstart _ hblanks _ ihc ihn =>
    obtain ⟨hhead, -, hchildren, hsiblings⟩ := hsimple
    have hleaf : ¬voidTags.contains head.tag = true := by simpa using hopen
    have hend : Text.StopsAt (fun c => decide (c ≠ '<'))
        ('<' :: '/' :: (head.tag.toList ++ blanks ++ '>' :: (others ++ rest))) :=
      Text.stopsAt_cons_iff.2 (by decide)
    have hsplit : start ++ inside ++ '<' :: '/' :: (head.tag.toList ++ blanks ++ '>' :: others) ++
          rest =
        start ++ (inside ++ '<' :: '/' :: (head.tag.toList ++ blanks ++ '>' :: (others ++ rest))) := by
      simp
    rw [hsplit, tokens_start hhead hstart, grow, if_neg hleaf, ofTag_eq, ihc hchildren hend,
      tokens_end hhead.1 hblanks, grow_closing, ihn hsiblings hrest, Open.close,
      Forest.reverse_reverseOnto_nil]
    simp [Forest.size, Forest.numbered, Forest.reverseOnto, Nat.add_assoc, Nat.add_comm 1]

/-- Reading what is written for a tree gives the tree, its nodes numbered in document order. -/
theorem parse_of_written {id : Nat} {head : Element} {children : Forest} {markup : String}
    (hsimple : (Forest.element id head children .nil).IsSimple) (hroot : head.tag = "html")
    (hbody : children.hasTop "body" = true)
    (hwritten : WrittenForest (.element id head children .nil) markup.toList) :
    Document.parse markup =
        ⟨(Forest.element id head children .nil).numbered 1, children.size + 2⟩ ∧
      ((Forest.element id head children .nil).numbered 1).ids =
        List.range' 1 (children.size + 1) := by
  refine ⟨?_, Forest.ids_numbered 1 _⟩
  have hgrow : grow 1 .nil [] (tokens (markup.toList ++ [])) = _ :=
    grow_of_written hwritten hsimple Text.stopsAt_nil 1 .nil []
  have htop : (children.numbered 2).hasTop "body" = true := by
    rw [Forest.hasTop_numbered, hbody]
  rw [List.append_nil] at hgrow
  rw [Document.parse, Document.ofMarkup, hgrow, tokens]
  simp [grow, closeAll, Forest.numbered, Forest.reverseOnto, Forest.reverse, completed, hroot, htop,
    Forest.size, Nat.add_comm 1]

/-- A tree with a quote in a value and an ampersand in a text. -/
theorem parse_of_written_quote_and_ampersand :
    (Forest.element 0 ⟨"html", []⟩ (.element 0 ⟨"body", [("class", "a\"b")]⟩
      (.element 0 ⟨"br", []⟩ .nil (.text 0 "R&D" .nil)) .nil) .nil).IsSimple ∧
    WrittenForest (.element 0 ⟨"html", []⟩ (.element 0 ⟨"body", [("class", "a\"b")]⟩
      (.element 0 ⟨"br", []⟩ .nil (.text 0 "R&D" .nil)) .nil) .nil)
      "<html><body class = \"a&quot;b\"><br>R&#x26;D</body ></html>".toList ∧
    Document.parse "<html><body class = \"a&quot;b\"><br>R&#x26;D</body ></html>" =
      ⟨.element 1 ⟨"html", []⟩ (.element 2 ⟨"body", [("class", "a\"b")]⟩
        (.element 3 ⟨"br", []⟩ .nil (.text 4 "R&D" .nil)) .nil) .nil, 5⟩ := by
  have hsimple : (Forest.element 0 ⟨"html", []⟩ (.element 0 ⟨"body", [("class", "a\"b")]⟩
      (.element 0 ⟨"br", []⟩ .nil (.text 0 "R&D" .nil)) .nil) .nil).IsSimple := by
    refine ⟨by decide, by decide, ⟨by decide, by decide, ⟨by decide, fun _ => rfl, trivial, ?_⟩,
      trivial⟩, trivial⟩
    exact ⟨⟨'R', by decide, by decide⟩, rfl, trivial⟩
  have hnone := Text.areBlank_nil
  have hblank := Text.areBlank_space
  have hbare (tag : String) : WrittenStart ⟨tag, []⟩ ('<' :: (tag.toList ++ [] ++ ['>'])) :=
    ⟨[], .nil hnone, fun _ hc => absurd hc (by simp), rfl⟩
  have hquot : Refers '"' ['q', 'u', 'o', 't'] :=
    .named (by decide : ("quot", '"') ∈ namedCharacters)
  have hamp : Refers '&' ['#', 'x', '2', '6'] :=
    .hexadecimal (.inl rfl) (by decide) (List.all_eq_true.1 (by decide)) (by decide)
  have hvalue : WrittenText '"' "a\"b".toList "a&quot;b".toList :=
    .cons (.itself (by decide) (by decide))
      (.cons (.reference hquot (by decide)) (.cons (.itself (by decide) (by decide)) .nil))
  have htext : WrittenText '<' "R&D".toList "R&#x26;D".toList :=
    .cons (.itself (by decide) (by decide))
      (.cons (.reference hamp (by decide)) (.cons (.itself (by decide) (by decide)) .nil))
  have hbody : WrittenStart ⟨"body", [("class", "a\"b")]⟩
      "<body class = \"a&quot;b\">".toList :=
    ⟨_, .cons hblank hblank hblank (.inl rfl) hvalue (.nil hnone), fun c hc => by cases hc; rfl, rfl⟩
  have hwritten : WrittenForest (.element 0 ⟨"html", []⟩
      (.element 0 ⟨"body", [("class", "a\"b")]⟩
        (.element 0 ⟨"br", []⟩ .nil (.text 0 "R&D" .nil)) .nil) .nil)
      "<html><body class = \"a&quot;b\"><br>R&#x26;D</body ></html>".toList :=
    .element (by decide) (hbare "html")
      (.element (by decide) hbody (.void (by decide) (hbare "br") (.text htext .nil)) hblank .nil)
      hnone .nil
  exact ⟨hsimple, hwritten, (parse_of_written hsimple rfl rfl hwritten).1⟩

end KeepAlive.Markup
