import KeepAlive.Markup.Reference
import KeepAlive.Proofs.Text.Codes
import KeepAlive.Proofs.Text.Letters

/-!
# How the characters of markup are written

A character of a text or of an attribute value stands for itself or is written as a reference.  An
ampersand is always a reference, and so is the character that ends the text or the value.  What is
written like this never holds that character, and it is resolved to what it was written for.
-/

namespace KeepAlive.Markup

/-- Whether the characters between `&` and `;` name the character, or give its number. -/
inductive Refers (c : Char) : List Char → Prop
  | named {name : String} : (name, c) ∈ namedCharacters → Refers c name.toList
  | decimal {digits : List Char} : digits ≠ [] → (∀ d ∈ digits, d.isDigit = true) →
      Text.decimalValue digits = c.toNat → Refers c ('#' :: digits)
  | hexadecimal {letter : Char} {digits : List Char} : letter = 'x' ∨ letter = 'X' → digits ≠ [] →
      (∀ d ∈ digits, Text.isHexDigit d = true) → Text.valueInBase 16 digits = c.toNat →
      Refers c ('#' :: letter :: digits)

/-- Whether the characters write one character in a place that `bar` ends. -/
inductive WrittenChar (bar c : Char) : List Char → Prop
  | itself : c ≠ '&' → c ≠ bar → WrittenChar bar c [c]
  | reference {body : List Char} : Refers c body → Text.byteLength body ≤ longestBody →
      WrittenChar bar c ('&' :: (body ++ [';']))

/-- The first list is written as the second in a place that `bar` ends. -/
inductive WrittenText (bar : Char) : List Char → List Char → Prop
  | nil : WrittenText bar [] []
  | cons {c : Char} {piece content body : List Char} : WrittenChar bar c piece →
      WrittenText bar content body → WrittenText bar (c :: content) (piece ++ body)

/-! ### References -/

/-- Whether a reference may hold the character between `&` and `;`. -/
def InReference (c : Char) : Prop :=
  c.isAlphanum = true ∨ c = '#'

theorem isAlphanum_of_isDigit {c : Char} (h : c.isDigit = true) : c.isAlphanum = true := by
  rw [Char.isAlphanum, h, Bool.or_true]

theorem isAlphanum_of_isHexDigit {c : Char} (h : Text.isHexDigit c = true) :
    c.isAlphanum = true := by
  have hclass : c.isDigit = true ∨ ('a' ≤ c ∧ c ≤ 'f') ∨ ('A' ≤ c ∧ c ≤ 'F') := by
    by_contra hnone
    simp only [not_or] at hnone
    simp [Text.isHexDigit, Text.hexValue, hnone] at h
  simp only [Char.le_def, UInt32.le_iff_toNat_le] at hclass
  rw [Text.isAlphanum_iff_toNat]
  rcases hclass with hdigit | ⟨hlow, hhigh⟩ | ⟨hlow, hhigh⟩
  · exact .inr (Char.isDigit_iff_toNat.1 hdigit)
  · exact .inl (.inr ⟨hlow, Nat.le_trans hhigh (by decide)⟩)
  · exact .inl (.inl ⟨hlow, Nat.le_trans hhigh (by decide)⟩)

theorem inReference_of_refers {c : Char} {body : List Char} (h : Refers c body) :
    ∀ d ∈ body, InReference d := by
  cases h with
  | named hname =>
    simp only [namedCharacters, List.mem_cons, List.not_mem_nil, or_false, Prod.mk.injEq] at hname
    rcases hname with ⟨rfl, -⟩ | ⟨rfl, -⟩ | ⟨rfl, -⟩ | ⟨rfl, -⟩ | ⟨rfl, -⟩ | ⟨rfl, -⟩ <;>
      simp [InReference]
  | decimal _ hdigits _ =>
    exact List.forall_mem_cons.2 ⟨.inr rfl, fun d hd => .inl (isAlphanum_of_isDigit (hdigits d hd))⟩
  | hexadecimal hletter _ hdigits _ =>
    refine List.forall_mem_cons.2 ⟨.inr rfl, List.forall_mem_cons.2 ⟨.inl ?_, fun d hd => .inl ?_⟩⟩
    · rcases hletter with rfl | rfl <;> rfl
    · exact isAlphanum_of_isHexDigit (hdigits d hd)

theorem dropPlus_of_isAlphanum {digits : List Char} (h : ∀ d ∈ digits, d.isAlphanum = true) :
    dropPlus digits = digits := by
  have hplus : digits.head? ≠ some '+' := by
    intro hhead
    exact absurd (h '+' (List.mem_of_head? hhead)) (by decide)
  rw [dropPlus, if_neg hplus]

theorem numbered?_of_toNat (c : Char) : numbered? (some c.toNat) = some c := by
  have hbound : c.toNat < referenceBound := by
    rcases c.valid with h | ⟨-, h⟩
    · exact Nat.lt_trans h (by decide)
    · exact Nat.lt_trans h (by decide)
  rw [numbered?, if_pos hbound]
  exact Text.scalar?_eq_some_iff.2 rfl

theorem lookup_number (digits : List Char) :
    namedCharacters.lookup (String.ofList ('#' :: digits)) = none := by
  have hnames : ∀ pair ∈ namedCharacters, pair.1.toList.head? ≠ some '#' := by decide
  rw [List.lookup_eq_none_iff]
  intro pair hpair
  rw [bne_iff_ne]
  intro heq
  have hhead := hnames pair hpair
  rw [← heq, String.toList_ofList] at hhead
  exact hhead rfl

/-- A reference denotes the character that it is written for. -/
theorem denoted?_of_refers {c : Char} {body : List Char} (h : Refers c body) :
    denoted? body = some c := by
  cases h with
  | named hname =>
    simp only [namedCharacters, List.mem_cons, List.not_mem_nil, or_false, Prod.mk.injEq] at hname
    rcases hname with ⟨rfl, rfl⟩ | ⟨rfl, rfl⟩ | ⟨rfl, rfl⟩ | ⟨rfl, rfl⟩ | ⟨rfl, rfl⟩ | ⟨rfl, rfl⟩ <;> rfl
  | @decimal digits hsome hdigits hvalue =>
    have hplain := dropPlus_of_isAlphanum fun d hd => isAlphanum_of_isDigit (hdigits d hd)
    have hread : Text.readDecimal digits = some c.toNat := by
      simpa [Text.readDecimal, hsome, hvalue] using hdigits
    unfold denoted?
    rw [lookup_number]
    dsimp only
    split
    · rename_i heq
      cases heq
      exact absurd (hdigits 'x' List.mem_cons_self) (by decide)
    · rename_i heq
      cases heq
      exact absurd (hdigits 'X' List.mem_cons_self) (by decide)
    · rename_i heq
      cases heq
      rw [hplain, hread, numbered?_of_toNat]
    · rename_i hother
      exact absurd rfl (hother digits)
  | @hexadecimal letter digits hletter hsome hdigits hvalue =>
    have hplain := dropPlus_of_isAlphanum fun d hd => isAlphanum_of_isHexDigit (hdigits d hd)
    have hread : Text.readHex digits = some c.toNat := by
      simpa [Text.readHex, hsome, hvalue] using hdigits
    have hnumber : numbered? (Text.readHex (dropPlus digits)) = some c := by
      rw [hplain, hread, numbered?_of_toNat]
    unfold denoted?
    rw [lookup_number]
    rcases hletter with rfl | rfl
    · exact hnumber
    · exact hnumber

theorem length_le_byteLength (s : List Char) : s.length ≤ Text.byteLength s := by
  induction s with
  | nil => exact Nat.le_refl 0
  | cons c rest ih =>
    have hpos := c.utf8Size_pos
    rw [Text.byteLength_cons, List.length_cons]
    omega

/-- What stands before the first semicolon is looked up if it is short enough. -/
theorem reference?_of_fits {body : List Char} (hbody : ';' ∉ body)
    (hlength : Text.byteLength body ≤ longestBody) (rest : List Char) :
    reference? (body ++ ';' :: rest) = (denoted? body).map (·, body.length + 1) := by
  have hsemicolon : ∀ d ∈ body, decide (d ≠ ';') = true := fun d hd =>
    decide_eq_true fun heq => hbody (heq ▸ hd)
  have hfits : body.length ≤ longestBody := Nat.le_trans (length_le_byteLength body) hlength
  obtain ⟨more, hmore⟩ : ∃ more, longestBody + 1 - body.length = more + 1 :=
    ⟨longestBody - body.length, by omega⟩
  have htaken : ((body ++ ';' :: rest).take (longestBody + 1)).takeWhile (· ≠ ';') = body := by
    rw [List.take_append, List.take_of_length_le (Nat.le_succ_of_le hfits), hmore,
      List.take_succ_cons, List.takeWhile_append_of_pos hsemicolon]
    simp
  have hnext : (body ++ ';' :: rest)[body.length]? = some ';' := by simp
  unfold reference?
  simp only [htaken, hnext, hlength, decide_true, Bool.and_true, if_true]

/-- A reference is read to its semicolon, and no further. -/
theorem reference?_append {c : Char} {body : List Char} (h : Refers c body)
    (hlength : Text.byteLength body ≤ longestBody) (rest : List Char) :
    reference? (body ++ ';' :: rest) = some (c, body.length + 1) := by
  have hbody : ';' ∉ body := fun hmem =>
    absurd (inReference_of_refers h _ hmem) (by simp [InReference])
  rw [reference?_of_fits hbody hlength, denoted?_of_refers h, Option.map_some]

/-! ### Texts -/

/-- Whether the character ends a text or an attribute value. -/
def IsBar (c : Char) : Prop :=
  c = '<' ∨ c = '"' ∨ c = '\''

section Written

variable {bar : Char} {content body : List Char}

theorem WrittenChar.bar_notMem {c : Char} {piece : List Char} (h : WrittenChar bar c piece)
    (hbar : IsBar bar) : bar ∉ piece := by
  cases h with
  | itself _ hne => simpa using Ne.symm hne
  | reference hrefers _ =>
    have hplain : ¬InReference bar ∧ bar ≠ '&' ∧ bar ≠ ';' := by
      rcases hbar with rfl | rfl | rfl <;> simp [InReference]
    simp only [List.mem_cons, List.mem_append, List.not_mem_nil, or_false, not_or]
    exact ⟨hplain.2.1, fun hmem => hplain.1 (inReference_of_refers hrefers bar hmem), hplain.2.2⟩

/-- What is written never holds the character that ends it. -/
theorem WrittenText.bar_notMem (h : WrittenText bar content body) (hbar : IsBar bar) :
    bar ∉ body := by
  induction h with
  | nil => exact List.not_mem_nil
  | cons hpiece _ ih => exact List.not_mem_append (hpiece.bar_notMem hbar) ih

/-- What is written is blank only if all it is written for is. -/
theorem WrittenText.exists_not_isBlank (h : WrittenText bar content body)
    (hcontent : ∃ c ∈ content, Text.isBlank c = false) : ∃ c ∈ body, Text.isBlank c = false := by
  induction h with
  | nil => exact hcontent
  | @cons c piece content body hpiece _ ih =>
    obtain ⟨d, hd, hblank⟩ := hcontent
    rcases List.mem_cons.1 hd with rfl | hd
    · cases hpiece with
      | itself => exact ⟨d, List.mem_append_left _ List.mem_cons_self, hblank⟩
      | reference => exact ⟨'&', List.mem_append_left _ List.mem_cons_self, by decide⟩
    · obtain ⟨e, he, hblank⟩ := ih ⟨d, hd, hblank⟩
      exact ⟨e, List.mem_append_right _ he, hblank⟩

theorem WrittenChar.resolve_append {c : Char} {piece : List Char} (h : WrittenChar bar c piece)
    (rest : List Char) : resolve (piece ++ rest) = c :: resolve rest := by
  cases h with
  | itself hne _ => rw [List.singleton_append, resolve, if_neg hne]
  | @reference body hrefers hlength =>
    rw [List.cons_append, List.append_assoc, List.singleton_append, resolve, if_pos rfl,
      reference?_append hrefers hlength]
    simp

/-- What is written is resolved to what it is written for. -/
theorem WrittenText.resolve_eq (h : WrittenText bar content body) : resolve body = content := by
  induction h with
  | nil => rw [resolve]
  | cons hpiece _ ih => rw [hpiece.resolve_append, ih]

end Written

end KeepAlive.Markup
