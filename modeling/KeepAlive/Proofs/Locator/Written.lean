import KeepAlive.Locator.Reader
import KeepAlive.Proofs.Text.Letters
import KeepAlive.Proofs.Text.Scanning

/-!
# Written locators

A locator is written step by step, with blanks between its parts as one likes, capitals in its names
and either quote around a text that does not hold it.  What is written for a locator is read as that
locator.
-/

namespace KeepAlive.Locator

open Text (AreBlank StopsAt dropBlanks)

/-! ## Written forms -/

/-- Whether the characters are the name, in capitals or not. -/
def WrittenName (name : String) (s : List Char) : Prop :=
  s ≠ [] ∧ (∀ c ∈ s, inName c = true) ∧ Text.asciiLower s = name.toList

/-- Whether the characters are digits of the number. -/
def WrittenNumber (n : Nat) (s : List Char) : Prop :=
  s ≠ [] ∧ (∀ c ∈ s, c.isDigit = true) ∧ Text.decimalValue s = n ∧ n < numberBound

/-- Whether the characters are the text between two equal quotes that are not in it. -/
def WrittenString (value : String) (s : List Char) : Prop :=
  ∃ quote, (quote = '"' ∨ quote = '\'') ∧ quote ∉ value.toList ∧
    s = quote :: (value.toList ++ [quote])

inductive WrittenSubject : Subject → List Char → Prop
  | named {name : String} {blanks s : List Char} : AreBlank blanks → WrittenName name s →
      WrittenSubject (.attribute name) ('@' :: (blanks ++ s))
  | text : WrittenSubject .text "text()".toList

/-- The condition that what is looked at is the text. -/
def Subject.is : Subject → String → Condition
  | .attribute name, value => .attributeIs name value
  | .text, value => .textIs value

/-- The condition that what is looked at contains the text. -/
def Subject.contains : Subject → String → Condition
  | .attribute name, value => .attributeContains name value
  | .text, value => .textContains value

/-- Whether the characters write the condition, between its brackets. -/
inductive WrittenCondition : Condition → List Char → Prop
  | position {n : Nat} {s : List Char} : WrittenNumber n s → WrittenCondition (.position n) s
  | hasAttribute {name : String} {s : List Char} : WrittenSubject (.attribute name) s →
      WrittenCondition (.hasAttribute name) s
  | is {looked : Subject} {value : String} {s before after quoted : List Char} :
      WrittenSubject looked s → AreBlank before → AreBlank after → WrittenString value quoted →
      WrittenCondition (looked.is value) (s ++ (before ++ '=' :: (after ++ quoted)))
  | contains {looked : Subject} {value : String} {lead s before after quoted last : List Char} :
      AreBlank lead → WrittenSubject looked s → AreBlank before → AreBlank after →
      WrittenString value quoted → AreBlank last →
      WrittenCondition (looked.contains value)
        ("contains(".toList ++ (lead ++ (s ++ (before ++ ',' :: (after ++ (quoted ++
          (last ++ [')'])))))))

inductive WrittenConditions : List Condition → List Char → Prop
  | nil : WrittenConditions [] []
  | cons {condition : Condition} {more : List Condition} {lead before s after rest : List Char} :
      AreBlank lead → AreBlank before → WrittenCondition condition s → AreBlank after →
      WrittenConditions more rest →
      WrittenConditions (condition :: more)
        (lead ++ '[' :: (before ++ (s ++ (after ++ ']' :: rest))))

/-- Whether the characters write the name test of a step. -/
inductive WrittenTag : Option String → List Char → Prop
  | any : WrittenTag none ['*']
  | named {name : String} {s : List Char} : WrittenName name s → WrittenTag (some name) s

/-- The slashes in front of a step. -/
def slashes (deep : Bool) : List Char :=
  if deep then ['/', '/'] else ['/']

inductive WrittenSteps : List Step → List Char → Prop
  | nil : WrittenSteps [] []
  | cons {deep : Bool} {tag : Option String} {conditions : List Condition} {more : List Step}
      {lead before s inside rest : List Char} : AreBlank lead → AreBlank before →
      WrittenTag tag s → WrittenConditions conditions inside → WrittenSteps more rest →
      WrittenSteps (⟨deep, tag, conditions⟩ :: more)
        (lead ++ (slashes deep ++ (before ++ (s ++ (inside ++ rest)))))

/-- Whether the characters write the expression: its path or, if one position is meant, its path
between brackets with the position after it. -/
inductive WrittenExpression : Expression → List Char → Prop
  | path {steps : List Step} {s after : List Char} : steps ≠ [] → WrittenSteps steps s →
      AreBlank after → WrittenExpression ⟨steps, none⟩ (s ++ after)
  | indexed {steps : List Step} {n : Nat} {lead s after between before digits last final : List Char} :
      AreBlank lead → steps ≠ [] → WrittenSteps steps s → AreBlank after → AreBlank between →
      AreBlank before → WrittenNumber n digits → AreBlank last → AreBlank final →
      WrittenExpression ⟨steps, some n⟩
        (lead ++ '(' :: (s ++ (after ++ ')' :: (between ++ '[' ::
          (before ++ (digits ++ (last ++ ']' :: final)))))))

/-! ## Reading them -/

section Reading

variable {s t after rest : List Char}

theorem code_of_inName {c : Char} (h : inName c = true) :
    (48 ≤ c.toNat ∧ c.toNat ≤ 58) ∨ (65 ≤ c.toNat ∧ c.toNat ≤ 90) ∨
      (97 ≤ c.toNat ∧ c.toNat ≤ 122) ∨ c.toNat = 45 ∨ c.toNat = 95 := by
  simp only [inName, Text.isAlphanum_iff_toNat, Bool.or_eq_true, decide_eq_true_eq] at h
  rcases h with ((hcode | rfl) | rfl) | rfl
  · omega
  · decide
  · decide
  · decide

/-- No blank is in a name. -/
theorem inName_of_isBlank (c : Char) (h : Text.isBlank c = true) : inName c = false := by
  rw [Bool.eq_false_iff]
  intro hname
  have hcode := code_of_inName hname
  have hother := Text.code_of_isBlank h
  omega

theorem isDigit_of_isBlank (c : Char) (h : Text.isBlank c = true) : c.isDigit = false := by
  have hname := inName_of_isBlank c h
  simp only [inName, Char.isAlphanum, Bool.or_eq_false_iff] at hname
  exact hname.1.1.1.2

/-- A written name ends a run of a class that has no characters of names in it. -/
theorem WrittenName.stopsAt {name : String} (h : WrittenName name s) {isWanted : Char → Bool}
    (hclass : ∀ c, isWanted c = true → inName c = false) (rest : List Char) :
    StopsAt isWanted (s ++ rest) := by
  obtain ⟨hsome, hinside, -⟩ := h
  cases s with
  | nil => exact absurd rfl hsome
  | cons c s =>
    refine Text.stopsAt_cons_iff.2 (Bool.eq_false_iff.2 fun hwanted => ?_)
    have hname := hinside c List.mem_cons_self
    rw [hclass c hwanted] at hname
    cases hname

theorem WrittenNumber.head {n : Nat} (h : WrittenNumber n s) (rest : List Char) :
    (s ++ rest).head?.any Char.isDigit = true ∧ StopsAt Text.isBlank (s ++ rest) := by
  obtain ⟨hsome, hdigits, -⟩ := h
  cases s with
  | nil => exact absurd rfl hsome
  | cons c s =>
    have hdigit := hdigits c List.mem_cons_self
    refine ⟨hdigit, Text.stopsAt_cons_iff.2 (Bool.eq_false_iff.2 fun hblank => ?_)⟩
    rw [isDigit_of_isBlank c hblank] at hdigit
    cases hdigit

/-- A number in decimal digits is written. -/
theorem writtenNumber_toString {n : Nat} (h : n < numberBound) :
    WrittenNumber n (toString n).toList := by
  rw [Nat.toString_eq_repr, Nat.toList_repr]
  refine ⟨Nat.toDigits_ne_nil, fun c hc => ?_, ?_, h⟩
  · exact Nat.isDigit_of_mem_toDigits (by decide) (by decide) hc
  · exact Nat.ofDigitChars_ten_toDigits

theorem gives_name {name : String} (h : WrittenName name s) (ht : dropBlanks t = s ++ rest)
    (hrest : StopsAt inName rest) : Locator.name.Gives t name rest := by
  obtain ⟨hsome, hinside, hlower⟩ := h
  have hfound := Text.Scan.gives_takeWhile inName (s ++ rest)
  rw [Text.takeWhile_run hinside hrest, Text.dropWhile_run hinside hrest] at hfound
  refine (Text.Scan.gives_blanks t).bind (ht ▸ hfound.bind ?_)
  rw [if_neg (by simpa using hsome), hlower, String.ofList_toList]
  exact Text.Scan.gives_pure name rest

theorem gives_number {n : Nat} (h : WrittenNumber n s) (ht : dropBlanks t = s ++ rest)
    (hrest : StopsAt Char.isDigit rest) : number.Gives t n rest := by
  obtain ⟨hsome, hdigits, hvalue, hbound⟩ := h
  have hread : Text.readDecimal s = some n := by
    simpa [Text.readDecimal, hsome, hvalue] using hdigits
  refine (Text.Scan.gives_blanks t).bind ?_
  rw [ht]
  refine (Text.Scan.gives_ahead _).bind ?_
  simp only [Text.takeWhile_run hdigits hrest, hread, if_pos hbound]
  have hskip := Text.Scan.gives_skip s.length (s ++ rest)
  rw [List.drop_left] at hskip
  exact hskip.bind (Text.Scan.gives_pure n rest)

theorem gives_text {value : String} (h : WrittenString value s) (ht : dropBlanks t = s ++ rest) :
    text.Gives t value rest := by
  obtain ⟨quote, hquote, hvalue, rfl⟩ := h
  have hrun : ∀ c ∈ value.toList, decide (c ≠ quote) = true := fun c hc =>
    decide_eq_true fun heq => hvalue (heq ▸ hc)
  have hstops : StopsAt (fun c => decide (c ≠ quote)) (quote :: rest) :=
    Text.stopsAt_cons_iff.2 (by simp)
  have hcontent : (value.toList ++ quote :: rest).takeWhile (· ≠ quote) = value.toList :=
    Text.takeWhile_run hrun hstops
  have hguard : ((quote = '"' || quote = '\'') &&
      (value.toList ++ quote :: rest).contains quote) = true := by
    simpa using hquote
  have hskip := Text.Scan.gives_skip (value.toList.length + 2)
    (quote :: (value.toList ++ quote :: rest))
  have hdrop : (quote :: (value.toList ++ quote :: rest)).drop (value.toList.length + 2) = rest := by
    simp
  rw [hdrop] at hskip
  refine (Text.Scan.gives_blanks t).bind ?_
  rw [ht, List.cons_append, List.append_assoc, List.singleton_append]
  refine (Text.Scan.gives_ahead _).bind ?_
  simp only [hguard, if_true, hcontent, String.ofList_toList]
  exact hskip.bind (Text.Scan.gives_pure value rest)

theorem gives_subject {looked : Subject} (h : WrittenSubject looked s)
    (ht : dropBlanks t = s ++ rest) (hrest : StopsAt inName rest) :
    subject.Gives t looked rest := by
  cases h with
  | @named name blanks s hblanks hname =>
    have hmark : dropBlanks t = "@".toList ++ (blanks ++ (s ++ rest)) := by
      rw [ht, ← List.append_assoc blanks]
      rfl
    refine (Text.Scan.gives_accept_true hmark).bind ?_
    rw [if_pos rfl]
    have hafter := Text.dropBlanks_append hblanks (hname.stopsAt inName_of_isBlank rest)
    exact (gives_name hname hafter hrest).bind (Text.Scan.gives_pure _ rest)
  | text =>
    have hdropped : dropBlanks (dropBlanks t) = "text()".toList ++ rest := by
      rw [ht]
      exact Text.dropBlanks_of_stopsAt (Text.stopsAt_cons_iff.2 (by decide))
    refine (Text.Scan.gives_accept_false (by simp [ht])).bind ?_
    rw [if_neg Bool.false_ne_true]
    refine (Text.Scan.gives_accept_true hdropped).bind ?_
    rw [if_pos rfl]
    exact Text.Scan.gives_pure _ rest

/-- What follows a part that may be extended by further characters of a name: blanks, and then a
character that no name holds. -/
theorem stopsAt_mark {mark : Char} (hafter : AreBlank after) (hmark : inName mark = false)
    (rest : List Char) : StopsAt inName (after ++ mark :: rest) :=
  Text.stopsAt_blanks_append inName_of_isBlank hafter (Text.stopsAt_cons_iff.2 hmark)

theorem dropBlanks_mark {mark : Char} (hafter : AreBlank after) (hmark : Text.isBlank mark = false)
    (rest : List Char) : dropBlanks (after ++ mark :: rest) = mark :: rest :=
  Text.dropBlanks_append hafter (Text.stopsAt_cons_iff.2 hmark)

theorem WrittenString.stopsAt {value : String} (h : WrittenString value s) (rest : List Char) :
    StopsAt Text.isBlank (s ++ rest) := by
  obtain ⟨quote, hquote, -, rfl⟩ := h
  refine Text.stopsAt_cons_iff.2 ?_
  rcases hquote with rfl | rfl <;> decide

theorem WrittenSubject.stopsAt {looked : Subject} (h : WrittenSubject looked s) (rest : List Char) :
    StopsAt Text.isBlank (s ++ rest) := by
  cases h <;> exact Text.stopsAt_cons_iff.2 (by decide)

theorem WrittenSubject.head {looked : Subject} (h : WrittenSubject looked s) (rest : List Char) :
    (s ++ rest).head?.any Char.isDigit = false ∧ ¬"contains(".toList <+: s ++ rest := by
  cases h with
  | named => exact ⟨rfl, by simp⟩
  | text => exact ⟨rfl, by simp⟩

theorem gives_condition_of_subject {looked : Subject} {found : Condition} {left : List Char}
    (h : WrittenSubject looked s) (ht : dropBlanks t = s ++ rest) (hrest : StopsAt inName rest)
    (hmore : Text.Scan.Gives (do
      if ← Text.Scan.accept "=" then
        let value ← text
        match looked with
        | .attribute name => return .attributeIs name value
        | .text => return .textIs value
      else
        match looked with
        | .attribute name => return .hasAttribute name
        | .text => Text.Scan.stop) rest found left) :
    condition.Gives t found left := by
  obtain ⟨hdigit, hcontains⟩ := h.head rest
  have hstart : dropBlanks (s ++ rest) = s ++ rest := Text.dropBlanks_of_stopsAt (h.stopsAt rest)
  refine (Text.Scan.gives_blanks t).bind ?_
  rw [ht]
  refine (Text.Scan.gives_ahead _).bind ?_
  rw [if_neg (Bool.eq_false_iff.1 hdigit)]
  refine (Text.Scan.gives_accept_false (by rwa [hstart])).bind ?_
  rw [if_neg Bool.false_ne_true, hstart]
  exact (gives_subject h hstart hrest).bind hmore

theorem gives_contains {looked : Subject} {value : String} {lead before quoted last : List Char}
    (hlead : AreBlank lead) (hlooked : WrittenSubject looked s) (hbefore : AreBlank before)
    (hafter : AreBlank after) (hvalue : WrittenString value quoted) (hlast : AreBlank last)
    (ht : dropBlanks t = "contains(".toList ++
      (lead ++ (s ++ (before ++ ',' :: (after ++ (quoted ++ (last ++ ')' :: rest))))))) :
    condition.Gives t (looked.contains value) rest := by
  have hopen : dropBlanks (dropBlanks t) = dropBlanks t := Text.dropBlanks_dropBlanks t
  have hlook := Text.dropBlanks_append hlead
    (hlooked.stopsAt (before ++ ',' :: (after ++ (quoted ++ (last ++ ')' :: rest)))))
  have hcomma : dropBlanks (before ++ ',' :: (after ++ (quoted ++ (last ++ ')' :: rest)))) =
      ",".toList ++ (after ++ (quoted ++ (last ++ ')' :: rest))) :=
    dropBlanks_mark hbefore (by decide) _
  have hquoted := Text.dropBlanks_append hafter (hvalue.stopsAt (last ++ ')' :: rest))
  have hclose : dropBlanks (last ++ ')' :: rest) = ")".toList ++ rest :=
    dropBlanks_mark hlast (by decide) rest
  refine (Text.Scan.gives_blanks t).bind ((Text.Scan.gives_ahead _).bind ?_)
  rw [if_neg (by simp [ht])]
  refine (Text.Scan.gives_accept_true (hopen.trans ht)).bind ?_
  rw [if_pos rfl]
  refine (gives_subject hlooked hlook (stopsAt_mark hbefore (by decide) _)).bind ?_
  refine (Text.Scan.gives_expect hcomma).bind ?_
  refine (gives_text hvalue hquoted).bind ?_
  refine (Text.Scan.gives_expect hclose).bind ?_
  cases looked <;> exact Text.Scan.gives_pure _ _

/-- A condition is read up to its closing bracket. -/
theorem gives_condition {found : Condition} (h : WrittenCondition found s)
    (hafter : AreBlank after) (ht : dropBlanks t = s ++ (after ++ ']' :: rest)) :
    ∃ left, condition.Gives t found left ∧ dropBlanks left = "]".toList ++ rest := by
  have hend : dropBlanks (after ++ ']' :: rest) = "]".toList ++ rest :=
    dropBlanks_mark hafter (by decide) rest
  cases h with
  | @position n s hnumber =>
    have hstops : StopsAt Char.isDigit (after ++ ']' :: rest) :=
      Text.stopsAt_blanks_append isDigit_of_isBlank hafter (Text.stopsAt_cons_iff.2 (by decide))
    obtain ⟨hdigit, hstart⟩ := hnumber.head (after ++ ']' :: rest)
    refine ⟨_, (Text.Scan.gives_blanks t).bind ?_, hend⟩
    rw [ht]
    refine (Text.Scan.gives_ahead _).bind ?_
    rw [if_pos hdigit]
    exact (gives_number hnumber (Text.dropBlanks_of_stopsAt hstart) hstops).bind
      (Text.Scan.gives_pure _ _)
  | hasAttribute hlooked =>
    have hno : ¬"=".toList <+: dropBlanks (after ++ ']' :: rest) := by simp [hend]
    refine ⟨dropBlanks (after ++ ']' :: rest), ?_, ?_⟩
    · refine gives_condition_of_subject hlooked ht (stopsAt_mark hafter (by decide) rest) ?_
      exact (Text.Scan.gives_accept_false hno).bind (Text.Scan.gives_pure _ _)
    · rw [hend]
      exact Text.dropBlanks_of_stopsAt (Text.stopsAt_cons_iff.2 (by decide))
  | @is looked value s before after' quoted hlooked hbefore hafter' hvalue =>
    refine ⟨after ++ ']' :: rest, ?_, hend⟩
    have hmark : dropBlanks (before ++ '=' :: (after' ++ (quoted ++ (after ++ ']' :: rest)))) =
        "=".toList ++ (after' ++ (quoted ++ (after ++ ']' :: rest))) :=
      dropBlanks_mark hbefore (by decide) _
    have hquoted := Text.dropBlanks_append hafter' (hvalue.stopsAt (after ++ ']' :: rest))
    simp only [List.append_assoc, List.cons_append] at ht
    refine gives_condition_of_subject hlooked ht (stopsAt_mark hbefore (by decide) _) ?_
    refine (Text.Scan.gives_accept_true hmark).bind ?_
    rw [if_pos rfl]
    refine (gives_text hvalue hquoted).bind ?_
    cases looked <;> exact Text.Scan.gives_pure _ _
  | contains hlead hlooked hbefore hafter' hvalue hlast =>
    refine ⟨after ++ ']' :: rest, ?_, hend⟩
    exact gives_contains hlead hlooked hbefore hafter' hvalue hlast
      (by simpa only [List.append_assoc, List.cons_append, List.nil_append] using ht)

theorem WrittenCondition.stopsAt {found : Condition} (h : WrittenCondition found s)
    (rest : List Char) : StopsAt Text.isBlank (s ++ rest) := by
  cases h with
  | position hnumber => exact (hnumber.head rest).2
  | hasAttribute hlooked => exact hlooked.stopsAt rest
  | is hlooked =>
    rw [List.append_assoc]
    exact hlooked.stopsAt _
  | contains => exact Text.stopsAt_cons_iff.2 (by decide)

theorem takes_bracketed : Text.Scan.Takes (Text.Scan.accept "[") bracketed :=
  Text.Scan.takes_of_length_lt fun _ _ _ _ hopen hinside =>
    Nat.lt_of_le_of_lt hinside.1 (Text.Scan.length_lt_of_accept (by decide) hopen)

/-- Conditions are read up to something that opens no further one. -/
theorem gives_conditions {conditions : List Condition} (h : WrittenConditions conditions s)
    (hend : ¬"[".toList <+: dropBlanks rest) :
    (Text.Scan.many (Text.Scan.accept "[") bracketed).Gives (s ++ rest) conditions
      (dropBlanks rest) := by
  induction h with
  | nil => exact Text.Scan.Gives.many_nil _ (Text.Scan.gives_accept_false hend)
  | @cons found more lead before s after last hlead hbefore hfound hafter hmore ih =>
    have hopen : dropBlanks (lead ++ '[' :: (before ++ (s ++ (after ++ ']' :: (last ++ rest))))) =
        "[".toList ++ (before ++ (s ++ (after ++ ']' :: (last ++ rest)))) :=
      dropBlanks_mark hlead (by decide) _
    have hinside := Text.dropBlanks_append hbefore (hfound.stopsAt (after ++ ']' :: (last ++ rest)))
    obtain ⟨left, hcondition, hclose⟩ := gives_condition hfound hafter hinside
    simp only [List.append_assoc, List.cons_append]
    refine Text.Scan.Gives.many_cons takes_bracketed (Text.Scan.gives_accept_true hopen) ?_ ih
    refine hcondition.bind ((Text.Scan.gives_expect hclose).bind ?_)
    exact Text.Scan.gives_pure found _

theorem WrittenConditions.stopsAt {conditions : List Condition} (h : WrittenConditions conditions s)
    (hrest : StopsAt inName rest) : StopsAt inName (s ++ rest) := by
  cases h with
  | nil => exact hrest
  | cons hlead =>
    simp only [List.append_assoc, List.cons_append]
    exact stopsAt_mark hlead (by decide) _

/-- A written name test ends a run of a class that has neither characters of names nor the mark for
every element in it. -/
theorem WrittenTag.stopsAt {tag : Option String} (h : WrittenTag tag s) {isWanted : Char → Bool}
    (hclass : ∀ c, isWanted c = true → inName c = false ∧ c ≠ '*') (rest : List Char) :
    StopsAt isWanted (s ++ rest) := by
  cases h with
  | any => exact Text.stopsAt_cons_iff.2 (Bool.eq_false_iff.2 fun hstar => (hclass _ hstar).2 rfl)
  | named hname => exact hname.stopsAt (fun c hc => (hclass c hc).1) rest

theorem WrittenTag.stopsAt_blank {tag : Option String} (h : WrittenTag tag s) (rest : List Char) :
    StopsAt Text.isBlank (s ++ rest) :=
  h.stopsAt (fun c hc => ⟨inName_of_isBlank c hc, by
    rintro rfl
    exact absurd hc (by decide)⟩) rest

/-- Two slashes are read exactly where two are written. -/
theorem isPrefixOf_slashes {tag : Option String} {before : List Char} (hbefore : AreBlank before)
    (htag : WrittenTag tag s) (deep : Bool) (rest : List Char) :
    ['/', '/'].isPrefixOf (slashes deep ++ (before ++ (s ++ rest))) = deep := by
  cases deep with
  | true => rfl
  | false =>
    have hslash : StopsAt (· = '/') (before ++ (s ++ rest)) := by
      refine Text.stopsAt_blanks_append (fun c hc => ?_) hbefore (htag.stopsAt (fun c hc => ?_) _)
      · refine decide_eq_false ?_
        rintro rfl
        exact absurd hc (by decide)
      · obtain rfl : c = '/' := of_decide_eq_true hc
        decide
    rw [Bool.eq_false_iff, ne_eq, List.isPrefixOf_iff_prefix]
    exact fun hprefix => Text.not_prefix_of_stopsAt hslash (List.cons_prefix_cons.1 hprefix).2

/-- A step is read up to something that continues neither its name nor its conditions. -/
theorem gives_step {deep : Bool} {tag : Option String} {conditions : List Condition}
    {before inside : List Char} (hbefore : AreBlank before) (htag : WrittenTag tag s)
    (hconditions : WrittenConditions conditions inside) (hrest : StopsAt inName rest)
    (hend : ¬"[".toList <+: dropBlanks rest) :
    step.Gives (slashes deep ++ (before ++ (s ++ (inside ++ rest)))) ⟨deep, tag, conditions⟩
      (dropBlanks rest) := by
  have hafter : dropBlanks (before ++ (s ++ (inside ++ rest))) = s ++ (inside ++ rest) :=
    Text.dropBlanks_append hbefore (htag.stopsAt_blank _)
  have hlast : Text.Scan.Gives (do
      let conditions ← Text.Scan.many (Text.Scan.accept "[") bracketed
      return (⟨deep, tag, conditions⟩ : Step)) (inside ++ rest) ⟨deep, tag, conditions⟩
      (dropBlanks rest) :=
    (gives_conditions hconditions hend).bind (Text.Scan.gives_pure _ _)
  have hskip := Text.Scan.gives_skip (if deep then 2 else 1)
    (slashes deep ++ (before ++ (s ++ (inside ++ rest))))
  have hdrop : (slashes deep ++ (before ++ (s ++ (inside ++ rest)))).drop (if deep then 2 else 1) =
      before ++ (s ++ (inside ++ rest)) := by
    cases deep <;> rfl
  rw [hdrop] at hskip
  refine (Text.Scan.gives_ahead _).bind ?_
  rw [isPrefixOf_slashes hbefore htag]
  refine hskip.bind ?_
  cases htag with
  | any =>
    refine (Text.Scan.gives_accept_true hafter).bind ?_
    rw [if_pos rfl]
    exact (Text.Scan.gives_pure _ _).bind hlast
  | @named name s hname =>
    have hstar : StopsAt (· = '*') (s ++ (inside ++ rest)) :=
      hname.stopsAt (fun c hc => by
        obtain rfl : c = '*' := of_decide_eq_true hc
        decide) _
    have hstart := Text.dropBlanks_of_stopsAt (hname.stopsAt inName_of_isBlank (inside ++ rest))
    have hno : ¬"*".toList <+: dropBlanks (before ++ (s ++ (inside ++ rest))) := by
      rw [hafter]
      exact Text.not_prefix_of_stopsAt hstar
    refine (Text.Scan.gives_accept_false hno).bind ?_
    rw [if_neg Bool.false_ne_true, hafter]
    exact ((gives_name hname hstart (hconditions.stopsAt hrest)).map some).bind hlast

/-! ### Paths -/

/-- Steps begin with a slash, blanks in front of it. -/
theorem WrittenSteps.exists_slash {found : List Step} (h : WrittenSteps found s) (hsome : found ≠ []) :
    ∃ lead last, AreBlank lead ∧ s = lead ++ '/' :: last := by
  cases h with
  | nil => exact absurd rfl hsome
  | @cons deep tag conditions more lead before s inside last hlead =>
    cases deep <;> exact ⟨lead, _, hlead, rfl⟩

theorem WrittenSteps.eq_nil (h : WrittenSteps [] s) : s = [] := by
  cases h
  rfl

theorem WrittenSteps.stopsAt {found : List Step} (h : WrittenSteps found s)
    (hrest : StopsAt inName rest) : StopsAt inName (s ++ rest) := by
  by_cases hsome : found = []
  · subst hsome
    rwa [h.eq_nil]
  · obtain ⟨lead, last, hlead, rfl⟩ := h.exists_slash hsome
    rw [List.append_assoc]
    exact stopsAt_mark hlead (by decide) _

theorem WrittenSteps.dropBlanks_append {found : List Step} (h : WrittenSteps found s)
    (hsome : found ≠ []) (rest : List Char) : ∃ last, dropBlanks (s ++ rest) = '/' :: last := by
  obtain ⟨lead, last, hlead, rfl⟩ := h.exists_slash hsome
  rw [List.append_assoc]
  exact ⟨_, dropBlanks_mark hlead (by decide) _⟩

theorem WrittenSteps.not_open {found : List Step} (h : WrittenSteps found s)
    (hrest : ¬"[".toList <+: dropBlanks rest) : ¬"[".toList <+: dropBlanks (s ++ rest) := by
  by_cases hsome : found = []
  · subst hsome
    rwa [h.eq_nil]
  · obtain ⟨last, hlast⟩ := h.dropBlanks_append hsome rest
    simp [hlast]

theorem gives_atStep (t : List Char) :
    atStep.Gives t (decide ((dropBlanks t).head? = some '/')) (dropBlanks t) :=
  (Text.Scan.gives_blanks t).bind ((Text.Scan.gives_ahead _).bind (Text.Scan.gives_pure _ _))

theorem takes_step : Text.Scan.Takes atStep step := by
  refine Text.Scan.takes_of_length_lt fun t middle rest found hstart hstep => ?_
  obtain ⟨hslash, rfl⟩ := hstart.unique (gives_atStep t)
  obtain ⟨_, _, hahead, hstep⟩ := hstep.exists_of_bind
  obtain ⟨-, rfl⟩ := hahead.unique (Text.Scan.gives_ahead _)
  obtain ⟨_, _, hskip, hstep⟩ := hstep.exists_of_bind
  obtain ⟨-, rfl⟩ := hskip.unique (Text.Scan.gives_skip _ _)
  have hleft := hstep.1
  have hle := Text.length_dropBlanks_le t
  have hpos : 0 < (dropBlanks t).length := by
    cases hdropped : dropBlanks t with
    | nil => simp [hdropped] at hslash
    | cons => simp
  rw [List.length_drop] at hleft
  split at hleft <;> omega

/-- Steps are read up to something that continues none of them. -/
theorem gives_steps {found : List Step} (h : WrittenSteps found s) (hrest : StopsAt inName rest)
    (hopen : ¬"[".toList <+: dropBlanks rest) (hslash : ¬"/".toList <+: dropBlanks rest)
    (ht : dropBlanks t = dropBlanks (s ++ rest)) :
    (Text.Scan.many atStep step).Gives t found (dropBlanks rest) := by
  -- A step drops the blanks behind it, so the text is what is written only up to leading blanks.
  induction h generalizing t with
  | nil =>
    have hno : (dropBlanks t).head? ≠ some '/' := by
      intro hhead
      obtain ⟨last, hlast⟩ := List.head?_eq_some_iff.1 hhead
      rw [List.nil_append] at ht
      exact hslash ⟨last, by simp [← ht, hlast]⟩
    have hstart := gives_atStep t
    rw [decide_eq_false hno, ht, List.nil_append] at hstart
    exact Text.Scan.Gives.many_nil step hstart
  | @cons deep tag conditions more lead before s inside last hlead hbefore htag hconditions hmore ih =>
    have hslashes : StopsAt Text.isBlank
        (slashes deep ++ (before ++ (s ++ (inside ++ (last ++ rest))))) := by
      cases deep <;> exact Text.stopsAt_cons_iff.2 (by decide)
    have hdropped : dropBlanks t = slashes deep ++ (before ++ (s ++ (inside ++ (last ++ rest)))) := by
      rw [ht]
      simp only [List.append_assoc]
      exact Text.dropBlanks_append hlead hslashes
    have hstart := gives_atStep t
    have hhead : (dropBlanks t).head? = some '/' := by
      rw [hdropped]
      cases deep <;> rfl
    rw [decide_eq_true hhead] at hstart
    refine Text.Scan.Gives.many_cons takes_step hstart ?_ (ih (Text.dropBlanks_dropBlanks _))
    rw [hdropped]
    exact gives_step hbefore htag hconditions (hmore.stopsAt hrest) (hmore.not_open hopen)

/-- A path of at least one step is read as the list of its steps. -/
theorem gives_path {found : List Step} (h : WrittenSteps found s) (hsome : found ≠ [])
    (hrest : StopsAt inName rest) (hopen : ¬"[".toList <+: dropBlanks rest)
    (hslash : ¬"/".toList <+: dropBlanks rest) (ht : dropBlanks t = dropBlanks (s ++ rest)) :
    steps.Gives t found (dropBlanks rest) := by
  refine (gives_steps h hrest hopen hslash ht).bind ?_
  rw [if_neg (by simpa using hsome)]
  exact Text.Scan.gives_pure found _

/-- What is written for an expression is read as that expression, and nothing is left of it. -/
theorem gives_expression {found : Expression} (h : WrittenExpression found s) :
    ∃ left, expression.Gives s found left ∧ dropBlanks left = [] := by
  cases h with
  | @path found s after hsome hsteps hafter =>
    have hend : dropBlanks after = [] := Text.dropBlanks_eq_nil hafter
    have hrest : StopsAt inName after := Text.stopsAt_of_areBlank inName_of_isBlank hafter
    obtain ⟨last, hlast⟩ := hsteps.dropBlanks_append hsome after
    have hno : ¬"(".toList <+: dropBlanks (s ++ after) := by simp [hlast]
    refine ⟨dropBlanks after, (Text.Scan.gives_accept_false hno).bind ?_, ?_⟩
    · rw [if_neg Bool.false_ne_true]
      refine (gives_path hsteps hsome hrest (by simp [hend]) (by simp [hend])
        (Text.dropBlanks_dropBlanks _)).bind ?_
      exact Text.Scan.gives_pure _ _
    · rw [Text.dropBlanks_dropBlanks, hend]
  | @indexed found n lead s after between before digits last final hlead hsome hsteps hafter hbetween
      hbefore hnumber hlast hfinal =>
    have hclose : dropBlanks (last ++ ']' :: final) = "]".toList ++ final :=
      dropBlanks_mark hlast (by decide) final
    have hdigits := Text.dropBlanks_append hbefore (hnumber.head (last ++ ']' :: final)).2
    have hstops : StopsAt Char.isDigit (last ++ ']' :: final) :=
      Text.stopsAt_blanks_append isDigit_of_isBlank hlast (Text.stopsAt_cons_iff.2 (by decide))
    refine ⟨final, ?_, Text.dropBlanks_eq_nil hfinal⟩
    generalize hindex : before ++ (digits ++ (last ++ ']' :: final)) = index at hdigits ⊢
    have hbracket : dropBlanks (between ++ '[' :: index) = "[".toList ++ index :=
      dropBlanks_mark hbetween (by decide) index
    generalize between ++ '[' :: index = bracket at hbracket ⊢
    have hparenthesis : dropBlanks (after ++ ')' :: bracket) = ")".toList ++ bracket :=
      dropBlanks_mark hafter (by decide) bracket
    have hleft : dropBlanks (dropBlanks (after ++ ')' :: bracket)) = ")".toList ++ bracket := by
      rw [Text.dropBlanks_dropBlanks, hparenthesis]
    have hopen : dropBlanks (lead ++ '(' :: (s ++ (after ++ ')' :: bracket))) =
        "(".toList ++ (s ++ (after ++ ')' :: bracket)) :=
      dropBlanks_mark hlead (by decide) _
    refine (Text.Scan.gives_accept_true hopen).bind ?_
    rw [if_pos rfl]
    refine (gives_path hsteps hsome (stopsAt_mark hafter (by decide) bracket)
      (by simp [hparenthesis]) (by simp [hparenthesis]) rfl).bind ?_
    refine (Text.Scan.gives_expect hleft).bind ?_
    refine (Text.Scan.gives_expect hbracket).bind ?_
    refine (gives_number hnumber hdigits hstops).bind ?_
    exact (Text.Scan.gives_expect hclose).bind (Text.Scan.gives_pure _ final)

end Reading

/-- What is written for an expression is read as that expression. -/
theorem parse_of_writtenExpression {found : Expression} {locator : String}
    (h : WrittenExpression found locator.toList) : parse locator = .ok found := by
  obtain ⟨left, hfound, hleft⟩ := gives_expression h
  have hwhole : whole.Gives locator.toList found (dropBlanks left) := by
    refine hfound.bind ((Text.Scan.gives_blanks left).bind ((Text.Scan.gives_ahead _).bind ?_))
    rw [if_pos (by simp [hleft])]
    exact Text.Scan.gives_pure found _
  obtain ⟨_, hrun⟩ := hwhole
  unfold parse
  rw [hrun]

end KeepAlive.Locator
