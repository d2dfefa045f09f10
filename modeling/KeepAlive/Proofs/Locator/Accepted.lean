import KeepAlive.Proofs.Locator.Printed

/-!
# Accepted locators

What is read of a text as part of a locator are the tokens of that part, with blanks around them.  So
the texts that are accepted are the ones that are printed, up to the case of names and zeros in front
of numbers, each for one expression.
-/

namespace KeepAlive.Locator

open Text (AreBlank dropBlanks)

/-! ## Tokens are written -/

section Writing

variable {more : List Token} {s : List Char}

/-- Whether the text begins with what is written, blanks in front, and goes on with the tokens. -/
def Begins (written : List Char → Prop) (more : List Token) (s : List Char) : Prop :=
  ∃ blanks part rest, AreBlank blanks ∧ written part ∧ Spaced Token.Spells more rest ∧
    s = blanks ++ (part ++ rest)

theorem begins_of_spaced {token : Token} (h : Spaced Token.Spells (token :: more) s) :
    Begins token.Spells more s :=
  spaced_cons_iff.1 h

theorem begins_subject (looked : Subject) (h : Spaced Token.Spells (looked.tokens ++ more) s) :
    Begins (WrittenSubject looked) more s := by
  rcases looked with name | -
  · obtain ⟨blanks, _, _, hblanks, hmark, hname, rfl⟩ := begins_of_spaced h
    obtain ⟨between, part, rest, hbetween, hpart, hrest, rfl⟩ := begins_of_spaced hname
    obtain rfl := spells_mark_iff.1 hmark
    refine ⟨blanks, '@' :: (between ++ part), rest, hblanks, ?_, hrest, by simp⟩
    exact .named hbetween (spells_name_iff.1 hpart)
  · obtain ⟨blanks, _, rest, hblanks, hmark, hrest, rfl⟩ := begins_of_spaced h
    obtain rfl := spells_mark_iff.1 hmark
    exact ⟨blanks, _, rest, hblanks, .text, hrest, rfl⟩

theorem tokens_is (looked : Subject) (value : String) :
    (looked.is value).tokens = looked.tokens ++ [.mark "=", .text value] := by
  cases looked <;> rfl

theorem tokens_contains (looked : Subject) (value : String) : (looked.contains value).tokens =
    .mark "contains(" :: (looked.tokens ++ [.mark ",", .text value, .mark ")"]) := by
  cases looked <;> rfl

theorem begins_is (looked : Subject) {value : String}
    (h : Spaced Token.Spells ((looked.is value).tokens ++ more) s) :
    Begins (WrittenCondition (looked.is value)) more s := by
  rw [tokens_is, List.append_assoc] at h
  obtain ⟨blanks, part, _, hblanks, hpart, hequal, rfl⟩ := begins_subject looked h
  obtain ⟨before, _, _, hbefore, hmark, hvalue, rfl⟩ := begins_of_spaced hequal
  obtain ⟨after, quoted, rest, hafter, hquoted, hrest, rfl⟩ := begins_of_spaced hvalue
  obtain rfl := spells_mark_iff.1 hmark
  exact ⟨blanks, _, rest, hblanks, .is hpart hbefore hafter (spells_text_iff.1 hquoted), hrest,
    by simp⟩

theorem begins_contains (looked : Subject) {value : String}
    (h : Spaced Token.Spells ((looked.contains value).tokens ++ more) s) :
    Begins (WrittenCondition (looked.contains value)) more s := by
  rw [tokens_contains, List.cons_append, List.append_assoc] at h
  obtain ⟨blanks, _, _, hblanks, hopen, hlooked, rfl⟩ := begins_of_spaced h
  obtain ⟨lead, part, _, hlead, hpart, hmark, rfl⟩ := begins_subject looked hlooked
  obtain ⟨before, _, _, hbefore, hcomma, hvalue, rfl⟩ := begins_of_spaced hmark
  obtain ⟨after, quoted, _, hafter, hquoted, hend, rfl⟩ := begins_of_spaced hvalue
  obtain ⟨last, _, rest, hlast, hclose, hrest, rfl⟩ := begins_of_spaced hend
  obtain rfl := spells_mark_iff.1 hopen
  obtain rfl := spells_mark_iff.1 hcomma
  obtain rfl := spells_mark_iff.1 hclose
  exact ⟨blanks, _, rest, hblanks,
    .contains hlead hpart hbefore hafter (spells_text_iff.1 hquoted) hlast, hrest, by simp⟩

theorem begins_condition {condition : Condition}
    (h : Spaced Token.Spells (condition.tokens ++ more) s) :
    Begins (WrittenCondition condition) more s := by
  cases condition with
  | position n =>
    obtain ⟨blanks, part, rest, hblanks, hpart, hrest, rfl⟩ := begins_of_spaced h
    exact ⟨blanks, part, rest, hblanks, .position (spells_number_iff.1 hpart), hrest, rfl⟩
  | hasAttribute name =>
    obtain ⟨blanks, part, rest, hblanks, hpart, hrest, rfl⟩ :=
      begins_subject (.attribute name) h
    exact ⟨blanks, part, rest, hblanks, .hasAttribute hpart, hrest, rfl⟩
  | attributeIs name value => exact begins_is (.attribute name) h
  | attributeContains name value => exact begins_contains (.attribute name) h
  | textIs value => exact begins_is .text h
  | textContains value => exact begins_contains .text h

theorem exists_writtenConditions {conditions : List Condition}
    (h : Spaced Token.Spells (conditions.flatMap Condition.bracketed ++ more) s) :
    ∃ part rest, WrittenConditions conditions part ∧ Spaced Token.Spells more rest ∧
      s = part ++ rest := by
  induction conditions generalizing s with
  | nil => exact ⟨[], s, .nil, h, rfl⟩
  | cons condition conditions ih =>
    simp only [List.flatMap_cons, Condition.bracketed, List.cons_append, List.append_assoc,
      List.nil_append] at h
    obtain ⟨lead, _, _, hlead, hopen, hcondition, rfl⟩ := begins_of_spaced h
    obtain ⟨before, inside, _, hbefore, hinside, hend, rfl⟩ := begins_condition hcondition
    obtain ⟨after, _, _, hafter, hclose, hmore, rfl⟩ := begins_of_spaced hend
    obtain ⟨part, rest, hpart, hrest, rfl⟩ := ih hmore
    obtain rfl := spells_mark_iff.1 hopen
    obtain rfl := spells_mark_iff.1 hclose
    exact ⟨_, rest, .cons hlead hbefore hinside hafter hpart, hrest, by simp⟩

theorem writtenTag_of_spells {tag : Option String} (h : (Token.ofTag tag).Spells s) :
    WrittenTag tag s := by
  cases tag with
  | none =>
    obtain rfl := spells_mark_iff.1 h
    exact .any
  | some name => exact .named (spells_name_iff.1 h)

theorem exists_writtenSteps {steps : List Step}
    (h : Spaced Token.Spells (steps.flatMap Step.tokens ++ more) s) :
    ∃ part rest, WrittenSteps steps part ∧ Spaced Token.Spells more rest ∧ s = part ++ rest := by
  induction steps generalizing s with
  | nil => exact ⟨[], s, .nil, h, rfl⟩
  | cons step steps ih =>
    obtain ⟨deep, tag, conditions⟩ := step
    simp only [List.flatMap_cons, Step.tokens, List.cons_append, List.append_assoc] at h
    obtain ⟨lead, _, _, hlead, hslashes, htag, rfl⟩ := begins_of_spaced h
    obtain ⟨before, name, _, hbefore, hname, hconditions, rfl⟩ := begins_of_spaced htag
    obtain ⟨inside, _, hinside, hmore, rfl⟩ := exists_writtenConditions hconditions
    obtain ⟨part, rest, hpart, hrest, rfl⟩ := ih hmore
    have hmark : (if deep then "//" else "/").toList = slashes deep := by
      cases deep <;> rfl
    obtain rfl := (spells_mark_iff.1 hslashes).trans hmark
    exact ⟨_, rest, .cons hlead hbefore (writtenTag_of_spells hname) hinside hpart, hrest,
      by simp⟩

/-- Texts that give the tokens of an expression are written for it. -/
theorem writtenExpression_of_spaced {found : Expression} (hsome : found.steps ≠ [])
    (h : Spaced Token.Spells found.tokens s) : WrittenExpression found s := by
  obtain ⟨steps, index⟩ := found
  cases index with
  | none =>
    rw [Expression.tokens, ← List.append_nil (List.flatMap _ _)] at h
    obtain ⟨part, after, hpart, hafter, rfl⟩ := exists_writtenSteps h
    exact .path hsome hpart (spaced_nil_iff.1 hafter)
  | some n =>
    obtain ⟨lead, _, _, hlead, hopen, hpath, rfl⟩ := begins_of_spaced h
    obtain ⟨part, _, hpart, hgroup, rfl⟩ := exists_writtenSteps hpath
    obtain ⟨after, _, _, hafter, hclose, hposition, rfl⟩ := begins_of_spaced hgroup
    obtain ⟨between, _, _, hbetween, hbracket, hnumber, rfl⟩ := begins_of_spaced hposition
    obtain ⟨before, digits, _, hbefore, hdigits, hclosing, rfl⟩ := begins_of_spaced hnumber
    obtain ⟨last, _, final, hlast, hend, hfinal, rfl⟩ := begins_of_spaced hclosing
    obtain rfl := spells_mark_iff.1 hopen
    obtain rfl := spells_mark_iff.1 hclose
    obtain rfl := spells_mark_iff.1 hbracket
    obtain rfl := spells_mark_iff.1 hend
    exact .indexed hlead hsome hpart hafter hbetween hbefore (spells_number_iff.1 hdigits) hlast
      (spaced_nil_iff.1 hfinal)

end Writing

/-! ## What is read are tokens -/

section Reading

variable {tokens more : List Token} {s middle rest : List Char}

/-- Whether the tokens stand in the text before the rest of it. -/
def Spans (tokens : List Token) (s rest : List Char) : Prop :=
  ∃ part, s = part ++ rest ∧ Spaced Token.Spells tokens part

theorem Spans.trans (h : Spans tokens s middle) (hmore : Spans more middle rest) :
    Spans (tokens ++ more) s rest := by
  obtain ⟨part, rfl, hpart⟩ := h
  obtain ⟨after, rfl, hafter⟩ := hmore
  exact ⟨part ++ after, (List.append_assoc _ _ _).symm, hpart.append hafter⟩

theorem spans_dropBlanks (s : List Char) : Spans [] s (dropBlanks s) := by
  obtain ⟨blanks, hblanks, hs⟩ := Text.exists_blanks_append s
  exact ⟨blanks, hs, .nil hblanks⟩

theorem Spans.of_dropBlanks (h : Spans tokens (dropBlanks s) rest) : Spans tokens s rest :=
  (spans_dropBlanks s).trans h

theorem spans_token {token : Token} {part : List Char} (hpart : token.Spells part)
    (hs : s = part ++ rest) : Spans [token] s rest := by
  refine ⟨part, hs, ?_⟩
  have h := Spaced.cons Text.areBlank_nil hpart (.nil Text.areBlank_nil)
  rwa [List.append_nil] at h

theorem spans_mark {mark : String} (hs : dropBlanks s = mark.toList ++ rest) :
    Spans [.mark mark] s rest :=
  (spans_token (spells_mark_iff.2 rfl) hs).of_dropBlanks

theorem spans_name {found : String} (h : name.Gives s found rest) : Spans [.name found] s rest := by
  replace h := (h.of_bind (Text.Scan.gives_blanks s)).of_bind (Text.Scan.gives_takeWhile inName _)
  by_cases hempty : ((dropBlanks s).takeWhile inName).isEmpty = true
  · rw [if_pos hempty] at h
    exact absurd h Text.Scan.not_gives_stop
  · rw [if_neg hempty] at h
    obtain ⟨rfl, rfl⟩ := h.eq_of_pure
    refine (spans_token (spells_name_iff.2 ⟨?_, ?_, ?_⟩)
      List.takeWhile_append_dropWhile.symm).of_dropBlanks
    · simpa using hempty
    · exact List.all_eq_true.1 List.all_takeWhile
    · rw [String.toList_ofList]

theorem spans_number {n : Nat} (h : number.Gives s n rest) : Spans [.number n] s rest := by
  replace h := (h.of_bind (Text.Scan.gives_blanks s)).of_bind (Text.Scan.gives_ahead _)
  dsimp only at h
  generalize hdigits : (dropBlanks s).takeWhile Char.isDigit = digits at h
  cases hread : Text.readDecimal digits with
  | none =>
    rw [hread] at h
    exact absurd h Text.Scan.not_gives_stop
  | some value =>
    rw [hread] at h
    by_cases hbound : value < numberBound
    · simp only [if_pos hbound] at h
      obtain ⟨rfl, rfl⟩ := (h.of_bind (Text.Scan.gives_skip _ _)).eq_of_pure
      simp only [Text.readDecimal, Option.ite_none_right_eq_some, Bool.and_eq_true,
        Bool.not_eq_true', List.isEmpty_eq_false_iff, Option.some.injEq] at hread
      obtain ⟨⟨hsome, hall⟩, hvalue⟩ := hread
      have hprefix : digits <+: dropBlanks s := hdigits ▸ List.takeWhile_prefix _
      refine (spans_token (spells_number_iff.2 ⟨hsome, List.all_eq_true.1 hall, hvalue, hbound⟩)
        ?_).of_dropBlanks
      exact (List.prefix_iff_eq_append.1 hprefix).symm
    · simp only [if_neg hbound] at h
      exact absurd h Text.Scan.not_gives_stop

theorem spans_text {value : String} (h : text.Gives s value rest) : Spans [.text value] s rest := by
  replace h := (h.of_bind (Text.Scan.gives_blanks s)).of_bind (Text.Scan.gives_ahead _)
  cases hs : dropBlanks s with
  | nil =>
    rw [hs] at h
    exact absurd h Text.Scan.not_gives_stop
  | cons quote left =>
    rw [hs] at h
    by_cases hguard : ((quote = '"' || quote = '\'') && left.contains quote) = true
    · simp only [if_pos hguard] at h
      obtain ⟨rfl, rfl⟩ := (h.of_bind (Text.Scan.gives_skip _ _)).eq_of_pure
      simp only [Bool.and_eq_true, Bool.or_eq_true, decide_eq_true_eq, List.contains_iff_mem]
        at hguard
      obtain ⟨hquote, hmem⟩ := hguard
      obtain ⟨content, after, rfl, hinside⟩ := List.eq_append_cons_of_mem hmem
      rw [Text.takeWhile_ne hinside]
      have hwritten : WrittenString (String.ofList content) (quote :: (content ++ [quote])) := by
        refine ⟨quote, hquote, ?_, ?_⟩
        · rwa [String.toList_ofList]
        · rw [String.toList_ofList]
      exact (spans_token (spells_text_iff.2 hwritten) (by simp [hs])).of_dropBlanks
    · simp only [if_neg hguard] at h
      exact absurd h Text.Scan.not_gives_stop

theorem spans_subject {looked : Subject} (h : subject.Gives s looked rest) :
    Spans looked.tokens s rest := by
  obtain ⟨named, middle, hat, h⟩ := h.exists_of_bind
  cases named with
  | true =>
    obtain ⟨found, left, hname, h⟩ := h.exists_of_bind
    obtain ⟨rfl, rfl⟩ := h.eq_of_pure
    exact (spans_mark hat.eq_append_of_accept).trans (spans_name hname)
  | false =>
    obtain rfl := hat.eq_of_not_accept
    obtain ⟨isText, left, htext, h⟩ := h.exists_of_bind
    cases isText with
    | true =>
      obtain ⟨rfl, rfl⟩ := h.eq_of_pure
      exact (spans_mark htext.eq_append_of_accept).of_dropBlanks
    | false => exact absurd h Text.Scan.not_gives_stop

theorem spans_condition {found : Condition} (h : condition.Gives s found rest) :
    Spans found.tokens s rest := by
  replace h := (h.of_bind (Text.Scan.gives_blanks s)).of_bind (Text.Scan.gives_ahead _)
  refine Spans.of_dropBlanks ?_
  by_cases hdigit : (dropBlanks s).head?.any Char.isDigit = true
  · rw [if_pos hdigit] at h
    obtain ⟨n, left, hnumber, h⟩ := h.exists_of_bind
    obtain ⟨rfl, rfl⟩ := h.eq_of_pure
    exact spans_number hnumber
  rw [if_neg hdigit] at h
  obtain ⟨contains, middle, hopen, h⟩ := h.exists_of_bind
  cases contains with
  | true =>
    obtain ⟨looked, _, hlooked, h⟩ := h.exists_of_bind
    obtain ⟨_, _, hcomma, h⟩ := h.exists_of_bind
    obtain ⟨value, _, hvalue, h⟩ := h.exists_of_bind
    obtain ⟨_, last, hclose, h⟩ := h.exists_of_bind
    have hfound : found = looked.contains value ∧ rest = last := by
      cases looked <;> exact h.eq_of_pure
    obtain ⟨rfl, rfl⟩ := hfound
    rw [tokens_contains]
    exact (spans_mark hopen.eq_append_of_accept).trans ((spans_subject hlooked).trans
      ((spans_mark hcomma.eq_append_of_expect).trans ((spans_text hvalue).trans
        (spans_mark hclose.eq_append_of_expect))))
  | false =>
    obtain rfl := hopen.eq_of_not_accept
    obtain ⟨looked, _, hlooked, h⟩ := h.exists_of_bind
    obtain ⟨compared, _, hmark, h⟩ := h.exists_of_bind
    refine Spans.of_dropBlanks ?_
    cases compared with
    | true =>
      obtain ⟨value, last, hvalue, h⟩ := h.exists_of_bind
      have hfound : found = looked.is value ∧ rest = last := by
        cases looked <;> exact h.eq_of_pure
      obtain ⟨rfl, rfl⟩ := hfound
      rw [tokens_is]
      exact (spans_subject hlooked).trans
        ((spans_mark hmark.eq_append_of_accept).trans (spans_text hvalue))
    | false =>
      obtain rfl := hmark.eq_of_not_accept
      rcases looked with name | -
      · obtain ⟨rfl, rfl⟩ := h.eq_of_pure
        have hafter := (spans_subject hlooked).trans (spans_dropBlanks _)
        rwa [List.append_nil] at hafter
      · exact absurd h Text.Scan.not_gives_stop

theorem spans_conditions {found : List Condition}
    (h : (Text.Scan.many (Text.Scan.accept "[") bracketed).Gives s found rest) :
    Spans (found.flatMap Condition.bracketed) s rest := by
  induction found generalizing s with
  | nil =>
    obtain ⟨-, hend⟩ | ⟨_, _, _, _, hfound, -⟩ := h.exists_of_many takes_bracketed
    · obtain rfl := hend.eq_of_not_accept
      exact spans_dropBlanks s
    · cases hfound
  | cons first more ih =>
    obtain ⟨hfound, -⟩ | ⟨_, _, middle, after, hfound, hopen, hfirst, hmore⟩ :=
      h.exists_of_many takes_bracketed
    · cases hfound
    · cases hfound
      obtain ⟨_, left, hcondition, hfirst⟩ := hfirst.exists_of_bind
      obtain ⟨_, _, hclose, hfirst⟩ := hfirst.exists_of_bind
      obtain ⟨rfl, rfl⟩ := hfirst.eq_of_pure
      have hbracketed := (spans_mark hopen.eq_append_of_accept).trans
        ((spans_condition hcondition).trans (spans_mark hclose.eq_append_of_expect))
      exact hbracketed.trans (ih hmore)

/-- A step is read where a slash stands. -/
theorem spans_step {found : Step} (hslash : s.head? = some '/') (h : step.Gives s found rest) :
    Spans found.tokens s rest := by
  replace h := h.of_bind (Text.Scan.gives_ahead s)
  dsimp only at h
  generalize hdeep : ['/', '/'].isPrefixOf s = deep at h
  replace h := h.of_bind (Text.Scan.gives_skip _ _)
  have hslashes : Spans [.mark (if deep then "//" else "/")] s (s.drop (if deep then 2 else 1)) := by
    obtain ⟨after, rfl⟩ := List.head?_eq_some_iff.1 hslash
    refine spans_token (spells_mark_iff.2 rfl) ?_
    cases deep with
    | true =>
      obtain ⟨left, hleft⟩ := List.isPrefixOf_iff_prefix.1 hdeep
      rw [← hleft]
      rfl
    | false => rfl
  generalize s.drop (if deep then 2 else 1) = after at h hslashes
  obtain ⟨every, middle, hstar, h⟩ := h.exists_of_bind
  have htag : ∃ tag left, Spans [.ofTag tag] after left ∧ Text.Scan.Gives (do
      let conditions ← Text.Scan.many (Text.Scan.accept "[") bracketed
      return (⟨deep, tag, conditions⟩ : Step)) left found rest := by
    cases every with
    | true =>
      obtain ⟨tag, left, htag, hmore⟩ := h.exists_of_bind
      obtain ⟨rfl, rfl⟩ := htag.eq_of_pure
      exact ⟨none, left, spans_mark hstar.eq_append_of_accept, hmore⟩
    | false =>
      obtain rfl := hstar.eq_of_not_accept
      obtain ⟨tag, left, htag, hmore⟩ := h.exists_of_bind
      obtain ⟨asked, hname, rfl⟩ := Text.Scan.Gives.exists_of_map htag
      exact ⟨some asked, left, (spans_name hname).of_dropBlanks, hmore⟩
  obtain ⟨tag, left, htag, h⟩ := htag
  obtain ⟨conditions, _, hconditions, h⟩ := h.exists_of_bind
  obtain ⟨rfl, rfl⟩ := h.eq_of_pure
  exact hslashes.trans (htag.trans (spans_conditions hconditions))

theorem spans_steps {found : List Step} (h : (Text.Scan.many atStep step).Gives s found rest) :
    Spans (found.flatMap Step.tokens) s rest := by
  induction found generalizing s with
  | nil =>
    obtain ⟨-, hend⟩ | ⟨_, _, _, _, hfound, -⟩ := h.exists_of_many takes_step
    · obtain ⟨-, rfl⟩ := hend.unique (gives_atStep s)
      exact spans_dropBlanks s
    · cases hfound
  | cons first more ih =>
    obtain ⟨hfound, -⟩ | ⟨_, _, middle, after, hfound, hstart, hfirst, hmore⟩ :=
      h.exists_of_many takes_step
    · cases hfound
    · cases hfound
      obtain ⟨hslash, rfl⟩ := hstart.unique (gives_atStep s)
      exact (spans_step (of_decide_eq_true hslash.symm) hfirst).of_dropBlanks.trans (ih hmore)

theorem spans_path {found : List Step} (h : steps.Gives s found rest) :
    found ≠ [] ∧ Spans (found.flatMap Step.tokens) s rest := by
  obtain ⟨path, middle, hsteps, h⟩ := h.exists_of_bind
  by_cases hempty : path.isEmpty = true
  · rw [if_pos hempty] at h
    exact absurd h Text.Scan.not_gives_stop
  · rw [if_neg hempty] at h
    obtain ⟨rfl, rfl⟩ := h.eq_of_pure
    exact ⟨by simpa using hempty, spans_steps hsteps⟩

theorem spans_expression {found : Expression} (h : expression.Gives s found rest) :
    found.steps ≠ [] ∧ Spans found.tokens s rest := by
  obtain ⟨grouped, middle, hopen, h⟩ := h.exists_of_bind
  cases grouped with
  | true =>
    obtain ⟨path, _, hpath, h⟩ := h.exists_of_bind
    obtain ⟨_, _, hclose, h⟩ := h.exists_of_bind
    obtain ⟨_, _, hbracket, h⟩ := h.exists_of_bind
    obtain ⟨n, _, hnumber, h⟩ := h.exists_of_bind
    obtain ⟨_, _, hend, h⟩ := h.exists_of_bind
    obtain ⟨rfl, rfl⟩ := h.eq_of_pure
    obtain ⟨hsome, hpath⟩ := spans_path hpath
    refine ⟨hsome, (spans_mark hopen.eq_append_of_accept).trans (hpath.trans ?_)⟩
    exact (spans_mark hclose.eq_append_of_expect).trans
      ((spans_mark hbracket.eq_append_of_expect).trans
        ((spans_number hnumber).trans (spans_mark hend.eq_append_of_expect)))
  | false =>
    obtain rfl := hopen.eq_of_not_accept
    obtain ⟨path, _, hpath, h⟩ := h.exists_of_bind
    obtain ⟨rfl, rfl⟩ := h.eq_of_pure
    obtain ⟨hsome, hpath⟩ := spans_path hpath
    exact ⟨hsome, hpath.of_dropBlanks⟩

/-- An expression that is read from a text has a step, and the text gives its tokens. -/
theorem spaced_of_parse {locator : String} {found : Expression} (h : parse locator = .ok found) :
    found.steps ≠ [] ∧ Spaced Token.Spells found.tokens locator.toList := by
  unfold parse at h
  split at h
  · rename_i left hrun
    cases h
    obtain ⟨_, middle, hexpression, hend⟩ := (Text.Scan.gives_of_run hrun).exists_of_bind
    replace hend := (hend.of_bind (Text.Scan.gives_blanks _)).of_bind (Text.Scan.gives_ahead _)
    by_cases hempty : (dropBlanks middle).isEmpty = true
    · rw [if_pos hempty] at hend
      obtain ⟨rfl, -⟩ := hend.eq_of_pure
      obtain ⟨hsome, hspans⟩ := spans_expression hexpression
      obtain ⟨part, hpart, hspaced⟩ := hspans.trans (spans_dropBlanks middle)
      rw [List.isEmpty_iff.1 hempty, List.append_nil] at hpart
      rw [List.append_nil] at hspaced
      exact ⟨hsome, hpart ▸ hspaced⟩
    · rw [if_neg hempty] at hend
      exact absurd hend Text.Scan.not_gives_stop
  · cases h

end Reading

/-- Every expression that can be printed is printed by some text and read back from each such text,
whichever quotes and blanks are in it.  And a text is read as an expression if and only if that can be
printed and the text prints it, up to the case of names and zeros in front of numbers. -/
theorem printed_is_read_back :
    (∀ expression : Expression, expression.IsPrintable →
      (∃ locator, expression.Prints locator) ∧
        ∀ locator, expression.Prints locator → parse locator = .ok expression) ∧
    ∀ (locator : String) (expression : Expression),
      parse locator = .ok expression ↔ expression.IsPrintable ∧ expression.Writes locator := by
  have hread (locator : String) (expression : Expression) :
      parse locator = .ok expression ↔ expression.IsPrintable ∧ expression.Writes locator := by
    constructor
    · intro h
      obtain ⟨hsome, hspaced⟩ := spaced_of_parse h
      obtain ⟨hprintable, hwrites⟩ := spaced_spells_iff.1 hspaced
      exact ⟨⟨hsome, hprintable⟩, hwrites⟩
    · rintro ⟨⟨hsome, hprintable⟩, hwrites⟩
      exact parse_of_writtenExpression
        (writtenExpression_of_spaced hsome (spaced_spells_iff.2 ⟨hprintable, hwrites⟩))
  refine ⟨fun expression hprintable => ⟨?_, fun locator hprints => ?_⟩, hread⟩
  · obtain ⟨s, hs⟩ := exists_spaced fun token htoken => (hprintable.2 token htoken).exists_prints
    exact ⟨String.ofList s, by rwa [Expression.Prints, String.toList_ofList]⟩
  · exact (hread locator expression).2 ⟨hprintable, hprints.imp fun _ _ _ hpart => hpart.writes⟩

end KeepAlive.Locator
