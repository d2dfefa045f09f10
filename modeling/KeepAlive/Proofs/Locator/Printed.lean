import KeepAlive.Proofs.Locator.Written
import KeepAlive.Proofs.Time.TextOrder

/-!
# Printed locators

A locator is printed token by token, with blanks around its tokens as one likes.  Its marks stand for
themselves, its texts stand between quotes, and its names and numbers may be given other letters and
further digits without a change of what is meant.
-/

namespace KeepAlive.Locator

open Text (AreBlank)

/-! ## Tokens -/

/-- A part of a locator that no blanks can stand in. -/
inductive Token
  | mark (sign : String)
  | name (letters : String)
  | number (n : Nat)
  | text (value : String)
  deriving DecidableEq, Repr

def Subject.tokens : Subject → List Token
  | .attribute name => [.mark "@", .name name]
  | .text => [.mark "text()"]

def Condition.tokens : Condition → List Token
  | .position n => [.number n]
  | .hasAttribute name => (Subject.attribute name).tokens
  | .attributeIs name value => (Subject.attribute name).tokens ++ [.mark "=", .text value]
  | .attributeContains name value =>
    .mark "contains(" :: ((Subject.attribute name).tokens ++ [.mark ",", .text value, .mark ")"])
  | .textIs value => Subject.text.tokens ++ [.mark "=", .text value]
  | .textContains value =>
    .mark "contains(" :: (Subject.text.tokens ++ [.mark ",", .text value, .mark ")"])

/-- The tokens of a condition with its brackets. -/
def Condition.bracketed (condition : Condition) : List Token :=
  .mark "[" :: (condition.tokens ++ [.mark "]"])

/-- The token of a name test. -/
def Token.ofTag : Option String → Token
  | none => .mark "*"
  | some tag => .name tag

def Step.tokens (step : Step) : List Token :=
  .mark (if step.deep then "//" else "/") :: .ofTag step.name ::
    step.conditions.flatMap Condition.bracketed

def Expression.tokens (expression : Expression) : List Token :=
  let path := expression.steps.flatMap Step.tokens
  match expression.index with
  | none => path
  | some n => .mark "(" :: (path ++ [.mark ")", .mark "[", .number n, .mark "]"])

/-- Whether there is a way to print the token: names are nonempty and in small letters, numbers are
below the bound, texts lack one of the quotes. -/
def Token.IsPrintable : Token → Prop
  | .mark _ => True
  | .name letters => letters ≠ "" ∧ ∀ c ∈ letters.toList, inName c = true ∧ c.isUpper = false
  | .number n => n < numberBound
  | .text value => '"' ∉ value.toList ∨ '\'' ∉ value.toList

/-- Whether the characters print the token, a text with either quote that is not in it. -/
inductive Token.Prints : Token → List Char → Prop
  | mark (sign : String) : Prints (.mark sign) sign.toList
  | name (letters : String) : Prints (.name letters) letters.toList
  | number (n : Nat) : Prints (.number n) (toString n).toList
  | text {value : String} {s : List Char} : WrittenString value s → Prints (.text value) s

/-- Whether the characters are what is printed for the token, up to the case of letters in names and
zeros in front of numbers. -/
def Token.Varies : Token → List Char → List Char → Prop
  | .name _, printed, s => Text.asciiLower s = Text.asciiLower printed
  | .number _, printed, s => ∃ zeros, s = List.replicate zeros '0' ++ printed
  | _, printed, s => s = printed

/-- Whether the characters write the token, in capitals or with zeros in front as well. -/
def Token.Writes (token : Token) (s : List Char) : Prop :=
  ∃ printed, token.Prints printed ∧ token.Varies printed s

/-- Whether the characters give the tokens one after the other, with blanks around them. -/
inductive Spaced (gives : Token → List Char → Prop) : List Token → List Char → Prop
  | nil {blanks : List Char} : AreBlank blanks → Spaced gives [] blanks
  | cons {token : Token} {more : List Token} {blanks s rest : List Char} : AreBlank blanks →
      gives token s → Spaced gives more rest → Spaced gives (token :: more) (blanks ++ (s ++ rest))

/-- Whether the expression has a step and all its tokens can be printed. -/
def Expression.IsPrintable (expression : Expression) : Prop :=
  expression.steps ≠ [] ∧ ∀ token ∈ expression.tokens, token.IsPrintable

/-- Whether the text prints the expression. -/
def Expression.Prints (expression : Expression) (locator : String) : Prop :=
  Spaced Token.Prints expression.tokens locator.toList

/-- Whether the text prints the expression up to the case of names and zeros in front. -/
def Expression.Writes (expression : Expression) (locator : String) : Prop :=
  Spaced Token.Writes expression.tokens locator.toList

/-! ## Tokens with blanks around them -/

section Spaced

variable {gives : Token → List Char → Prop} {token : Token} {tokens more : List Token}
  {s t : List Char}

theorem spaced_nil_iff : Spaced gives [] s ↔ AreBlank s :=
  ⟨fun h => by cases h; assumption, .nil⟩

theorem spaced_cons_iff : Spaced gives (token :: more) s ↔
    ∃ blanks part rest, AreBlank blanks ∧ gives token part ∧ Spaced gives more rest ∧
      s = blanks ++ (part ++ rest) := by
  constructor
  · intro h
    cases h with
    | cons hblanks hpart hrest => exact ⟨_, _, _, hblanks, hpart, hrest, rfl⟩
  · rintro ⟨_, _, _, hblanks, hpart, hrest, rfl⟩
    exact .cons hblanks hpart hrest

theorem Spaced.blanks_append {blanks : List Char} (hblanks : AreBlank blanks)
    (h : Spaced gives tokens s) : Spaced gives tokens (blanks ++ s) := by
  have happend {other : List Char} (hother : AreBlank other) : AreBlank (blanks ++ other) :=
    fun c hc => (List.mem_append.1 hc).elim (hblanks c) (hother c)
  cases h with
  | nil hs => exact .nil (happend hs)
  | cons hs hpart hrest =>
    rw [← List.append_assoc]
    exact .cons (happend hs) hpart hrest

theorem Spaced.append (h : Spaced gives tokens s) (hmore : Spaced gives more t) :
    Spaced gives (tokens ++ more) (s ++ t) := by
  induction h with
  | nil hblanks => exact hmore.blanks_append hblanks
  | cons hblanks hpart _ ih =>
    rw [List.append_assoc, List.append_assoc]
    exact .cons hblanks hpart ih

theorem Spaced.imp {writes : Token → List Char → Prop} (h : Spaced gives tokens s)
    (himp : ∀ token ∈ tokens, ∀ part, gives token part → writes token part) :
    Spaced writes tokens s := by
  induction h with
  | nil hblanks => exact .nil hblanks
  | cons hblanks hpart _ ih =>
    obtain ⟨htoken, hmore⟩ := List.forall_mem_cons.1 himp
    exact .cons hblanks (htoken _ hpart) (ih hmore)

theorem Spaced.forall_mem (h : Spaced gives tokens s) : ∀ token ∈ tokens, ∃ part, gives token part := by
  induction h with
  | nil => simp
  | cons _ hpart _ ih => exact List.forall_mem_cons.2 ⟨⟨_, hpart⟩, ih⟩

theorem exists_spaced (h : ∀ token ∈ tokens, ∃ part, gives token part) :
    ∃ s, Spaced gives tokens s := by
  induction tokens with
  | nil => exact ⟨[], .nil Text.areBlank_nil⟩
  | cons token more ih =>
    obtain ⟨⟨part, hpart⟩, hmore⟩ := List.forall_mem_cons.1 h
    obtain ⟨rest, hrest⟩ := ih hmore
    exact ⟨[] ++ (part ++ rest), .cons Text.areBlank_nil hpart hrest⟩

end Spaced

/-! ## What spells a token -/

/-- Whether the token can be printed and the characters write it. -/
def Token.Spells (token : Token) (s : List Char) : Prop :=
  token.IsPrintable ∧ token.Writes s

section Spelling

variable {s : List Char}

theorem Token.Prints.writes {token : Token} (h : token.Prints s) : token.Writes s := by
  refine ⟨s, h, ?_⟩
  cases h with
  | number => exact ⟨0, rfl⟩
  | mark | name | text => rfl

theorem Token.IsPrintable.exists_prints {token : Token} (h : token.IsPrintable) :
    ∃ s, token.Prints s := by
  cases token with
  | mark mark => exact ⟨_, .mark mark⟩
  | name name => exact ⟨_, .name name⟩
  | number n => exact ⟨_, .number n⟩
  | text value =>
    rcases h with hquote | hquote
    · exact ⟨_, .text ⟨_, .inl rfl, hquote, rfl⟩⟩
    · exact ⟨_, .text ⟨_, .inr rfl, hquote, rfl⟩⟩

theorem inName_toLower (c : Char) : inName c.toLower = inName c := by
  by_cases hupper : c.isUpper = true
  · have hcode := Text.isUpper_iff_toNat.1 hupper
    have hlower : c.toLower.isAlphanum = true := by
      rw [Char.isAlphanum, Char.isAlpha_toLower_eq_isAlpha, Char.isAlpha, hupper]
      rfl
    have hname : c.isAlphanum = true := by
      rw [Char.isAlphanum, Char.isAlpha, hupper]
      rfl
    simp [inName, hlower, hname]
  · rw [Char.toLower_eq_of_not_isUpper hupper]

theorem spells_mark_iff {mark : String} : (Token.mark mark).Spells s ↔ s = mark.toList := by
  constructor
  · rintro ⟨-, _, ⟨⟩, hvaries⟩
    exact hvaries
  · rintro rfl
    exact ⟨trivial, (Token.Prints.mark mark).writes⟩

theorem spells_name_iff {name : String} : (Token.name name).Spells s ↔ WrittenName name s := by
  have hsmall (hname : ∀ c ∈ name.toList, inName c = true ∧ c.isUpper = false) :
      Text.asciiLower name.toList = name.toList := by
    refine (List.map_congr_left fun c hc => ?_).trans (List.map_id' _)
    exact Char.toLower_eq_of_not_isUpper (Bool.eq_false_iff.1 (hname c hc).2)
  constructor
  · rintro ⟨⟨hsome, hname⟩, _, ⟨⟩, hvaries⟩
    have hlower : Text.asciiLower s = name.toList := Eq.trans hvaries (hsmall hname)
    refine ⟨?_, fun c hc => ?_, hlower⟩
    · rintro rfl
      exact hsome (by simpa [Text.asciiLower] using hlower.symm)
    · have hmem : c.toLower ∈ name.toList := hlower ▸ List.mem_map_of_mem hc
      rw [← inName_toLower]
      exact (hname _ hmem).1
  · rintro ⟨hsome, hinside, hlower⟩
    have hname : ∀ c ∈ name.toList, inName c = true ∧ c.isUpper = false := by
      rw [← hlower]
      intro c hc
      obtain ⟨d, hd, rfl⟩ := List.mem_map.1 hc
      exact ⟨(inName_toLower d).trans (hinside d hd), by simp⟩
    refine ⟨⟨?_, hname⟩, _, .name name, hlower.trans (hsmall hname).symm⟩
    rintro rfl
    exact hsome (by simpa [Text.asciiLower] using hlower)

/-- Digits are those of their number with zeros in front. -/
theorem eq_replicate_zero_append (hsome : s ≠ []) (hdigits : ∀ c ∈ s, c.isDigit = true) :
    ∃ zeros, s = List.replicate zeros '0' ++ (toString (Text.decimalValue s)).toList := by
  have hpadded := Text.length_padZeros (List.length_pos_iff.2 hsome) (Text.decimalValue_lt hdigits)
  rw [Nat.toString_eq_repr, Nat.toList_repr]
  refine ⟨s.length - (Nat.toDigits 10 (Text.decimalValue s)).length, ?_⟩
  have hsame : s = (Text.padZeros s.length (Text.decimalValue s)).toList := by
    have hvalue := Text.decimalValue_padZeros s.length (Text.decimalValue s)
    have hother : ∀ c ∈ (Text.padZeros s.length (Text.decimalValue s)).toList, c.isDigit = true :=
      fun _ => Text.isDigit_of_mem_padZeros
    rcases lt_trichotomy s (Text.padZeros s.length (Text.decimalValue s)).toList with
      hless | heq | hless
    · have hiff := Text.digits_append_lt_iff hpadded.symm hdigits hother [] []
      simp [hless, hvalue] at hiff
    · exact heq
    · have hiff := Text.digits_append_lt_iff hpadded hother hdigits [] []
      simp [hless, hvalue] at hiff
  rwa [Text.padZeros, String.toList_ofList] at hsame

theorem spells_number_iff {n : Nat} : (Token.number n).Spells s ↔ WrittenNumber n s := by
  constructor
  · rintro ⟨hbound, _, ⟨⟩, zeros, rfl⟩
    obtain ⟨-, hdigits, hvalue, -⟩ := writtenNumber_toString hbound
    refine ⟨by simp, fun c hc => ?_, ?_, hbound⟩
    · rcases List.mem_append.1 hc with hc | hc
      · rw [List.eq_of_mem_replicate hc]
        rfl
      · exact hdigits c hc
    · have hfold (digits : List Char) : Text.decimalValue digits = Nat.ofDigitChars 10 digits 0 := rfl
      rw [hfold, Nat.ofDigitChars_append, Nat.ofDigitChars_replicate_zero, Nat.mul_zero, ← hfold,
        hvalue]
  · rintro ⟨hsome, hdigits, rfl, hbound⟩
    exact ⟨hbound, _, .number _, eq_replicate_zero_append hsome hdigits⟩

theorem spells_text_iff {value : String} : (Token.text value).Spells s ↔ WrittenString value s := by
  constructor
  · rintro ⟨-, printed, hprints, rfl⟩
    cases hprints with
    | text h => exact h
  · intro h
    refine ⟨?_, (Token.Prints.text h).writes⟩
    obtain ⟨_, rfl | rfl, hvalue, -⟩ := h
    · exact .inl hvalue
    · exact .inr hvalue

theorem spaced_spells_iff {tokens : List Token} :
    Spaced Token.Spells tokens s ↔
      (∀ token ∈ tokens, token.IsPrintable) ∧ Spaced Token.Writes tokens s := by
  constructor
  · intro h
    refine ⟨fun token htoken => ?_, h.imp fun _ _ _ hpart => hpart.2⟩
    obtain ⟨_, hpart⟩ := h.forall_mem token htoken
    exact hpart.1
  · rintro ⟨hprintable, h⟩
    exact h.imp fun token htoken _ hpart => ⟨hprintable token htoken, hpart⟩

end Spelling

end KeepAlive.Locator
