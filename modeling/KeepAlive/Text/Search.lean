import KeepAlive.Text.Character

/-!
# Searching in text

Occurrence of one text in another, the parts of a text before and after a mark, and the lower-case
form in which words are looked for.
-/

namespace KeepAlive.Text

/-- Whether `word` occurs somewhere in the text. -/
def occurs (word : List Char) : List Char → Bool
  | [] => word.isPrefixOf []
  | c :: rest => word.isPrefixOf (c :: rest) || occurs word rest

theorem occurs_iff {word s : List Char} : occurs word s = true ↔ word <:+: s := by
  induction s with
  | nil => simp [occurs]
  | cons c rest ih => rw [occurs, Bool.or_eq_true, ih, List.infix_cons_iff, List.isPrefixOf_iff_prefix]

/-- The parts before and after the first occurrence of `mark`, if there is one. -/
def splitAtFirst (mark : List Char) : List Char → Option (List Char × List Char)
  | [] => if mark.isEmpty then some ([], []) else none
  | c :: rest =>
    if mark.isPrefixOf (c :: rest) then some ([], (c :: rest).drop mark.length)
    else (splitAtFirst mark rest).map fun (before, after) => (c :: before, after)

/-- What is left after the first `mark`: nothing if it does not occur. -/
def afterFirst (mark : List Char) (s : List Char) : List Char :=
  ((splitAtFirst mark s).map (·.2)).getD []

theorem splitAtFirst_eq {mark s before after : List Char}
    (h : splitAtFirst mark s = some (before, after)) : s = before ++ mark ++ after := by
  induction s generalizing before with
  | nil =>
    simp only [splitAtFirst] at h
    split at h <;> simp_all
  | cons c rest ih =>
    rw [splitAtFirst] at h
    split at h
    · next hp =>
      obtain ⟨t, ht⟩ := List.isPrefixOf_iff_prefix.1 hp
      simp only [Option.some.injEq, Prod.mk.injEq] at h
      obtain ⟨rfl, rfl⟩ := h
      simp [← ht]
    · obtain ⟨⟨b, a⟩, hb, he⟩ := Option.map_eq_some_iff.1 h
      simp only [Prod.mk.injEq] at he
      obtain ⟨rfl, rfl⟩ := he
      simp [ih hb]

theorem length_afterFirst_le (mark s : List Char) : (afterFirst mark s).length ≤ s.length := by
  unfold afterFirst
  cases h : splitAtFirst mark s with
  | none => simp
  | some p =>
    have := congrArg List.length (splitAtFirst_eq h)
    simp at this ⊢
    omega

/-- What follows `lead` in a text that begins with it. -/
def dropLead? (lead s : List Char) : Option (List Char) :=
  if lead.isPrefixOf s then some (s.drop lead.length) else none

theorem dropLead?_append (lead s : List Char) : dropLead? lead (lead ++ s) = some s := by
  simp [dropLead?]

/-- The parts of a text between its marks. -/
def parts (isMark : Char → Bool) : List Char → List (List Char)
  | [] => [[]]
  | c :: rest =>
    if isMark c then [] :: parts isMark rest
    else
      match parts isMark rest with
      | [] => [[c]]
      | first :: more => (c :: first) :: more

theorem parts_ne_nil (isMark : Char → Bool) (s : List Char) : parts isMark s ≠ [] := by
  cases s with
  | nil => simp [parts]
  | cons c rest =>
    unfold parts
    split
    · simp
    · split <;> simp

/-- The lower-case form of a character where that form has an ASCII letter in it; any other
character stays as it is, which no search for an ASCII word can tell. -/
def lowerChar (c : Char) : List Char :=
  if c = '\u0130' then ['i', '\u0307']
  else if c = '\u212A' then ['k']
  else [c.toLower]

/-- The lower-case form of a text, for searches of ASCII words. -/
def lowered (s : List Char) : List Char :=
  s.flatMap lowerChar

/-- Whether the text mentions the ASCII word, whatever the case. -/
def mentions (s word : String) : Bool :=
  occurs word.toList (lowered s.toList)

/-- The text with its ASCII capitals made small. -/
def asciiLower (s : List Char) : List Char :=
  s.map Char.toLower

/-- The number of bytes of a text in UTF-8. -/
def byteLength : List Char → Nat
  | [] => 0
  | c :: rest => c.utf8Size + byteLength rest

@[simp] theorem byteLength_nil : byteLength [] = 0 := rfl

@[simp] theorem byteLength_cons (c : Char) (s : List Char) :
    byteLength (c :: s) = c.utf8Size + byteLength s := rfl

@[simp] theorem byteLength_append (s t : List Char) :
    byteLength (s ++ t) = byteLength s + byteLength t := by
  induction s with
  | nil => simp
  | cons c rest ih => simp [ih, Nat.add_assoc]

end KeepAlive.Text
