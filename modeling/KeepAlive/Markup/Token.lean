import KeepAlive.Markup.Reference

/-!
# Tokens of markup

Markup is cut into texts, start tags and end tags.  Comments, declarations and the contents of
scripts and style sheets are passed over, and nothing is an error: a `<` that starts no tag is text.
-/

namespace KeepAlive.Markup

/-- A piece of markup. -/
inductive Token
  /-- Characters between tags, references resolved. -/
  | text (content : List Char)
  /-- A start tag; nothing can stand inside a leaf. -/
  | opening (tag : List Char) (attributes : List (List Char × List Char)) (leaf : Bool)
  | closing (tag : List Char)
  deriving DecidableEq, Repr

/-- Elements that never have children. -/
def voidTags : List String := [
  "area", "base", "br", "col", "embed", "hr", "img", "input", "link", "meta", "param", "source",
  "track", "wbr"]

/-- Elements whose content is not markup. -/
def rawTags : List String := ["script", "style"]

/-- Whether a tag or attribute name may go on with the character. -/
def inName (c : Char) : Bool :=
  !(Text.isBlank c || c = '>' || c = '/' || c = '=')

/-- Whether an attribute value without quotes may go on with the character. -/
def inBareValue (c : Char) : Bool :=
  !(Text.isBlank c || c = '>')

/-- An attribute value and what follows it. -/
def attributeValue (s : List Char) : List Char × List Char :=
  match s with
  | [] => ([], [])
  | c :: rest =>
    if c = '"' || c = '\'' then
      (resolve (rest.takeWhile (· ≠ c)), (rest.dropWhile (· ≠ c)).drop 1)
    else (resolve (s.takeWhile inBareValue), s.dropWhile inBareValue)

theorem length_attributeValue_le (s : List Char) : (attributeValue s).2.length ≤ s.length := by
  unfold attributeValue
  split
  · simp
  · next c rest =>
    split
    · simp only [List.length_drop, List.length_cons]
      have := Text.length_dropWhile_le (· ≠ c) rest
      omega
    · exact Text.length_dropWhile_le _ _

/-- The value after an attribute's name, empty if there is none, and what follows it. -/
def valueAfterName (s : List Char) : List Char × List Char :=
  match Text.dropBlanks s with
  | '=' :: rest => attributeValue (Text.dropBlanks rest)
  | rest => ([], rest)

theorem length_valueAfterName_le (s : List Char) :
    (valueAfterName s).2.length ≤ s.length := by
  have h := Text.length_dropBlanks_le s
  unfold valueAfterName
  split
  · next rest he =>
    have h1 := length_attributeValue_le (Text.dropBlanks rest)
    have h2 := Text.length_dropBlanks_le rest
    rw [he] at h
    simp at h
    omega
  · exact h

/-- What follows the first character that is not blank is shorter than the text. -/
theorem length_lt_of_dropBlanks {s rest : List Char} {c : Char}
    (h : Text.dropBlanks s = c :: rest) : rest.length < s.length := by
  have shorter := Text.length_dropBlanks_le s
  rw [h, List.length_cons] at shorter
  exact shorter

/-- What is left after a value is not longer than what follows the first character of its name. -/
theorem length_left_le (rest : List Char) :
    (valueAfterName (rest.dropWhile inName)).2.length ≤ rest.length :=
  Nat.le_trans (length_valueAfterName_le _) (Text.length_dropWhile_le inName rest)

/-- The attributes of a start tag after its name, whether it closes itself, and what follows it.
A name may be repeated here. -/
def attributes (s : List Char) : List (List Char × List Char) × Bool × List Char :=
  match h : Text.dropBlanks s with
  | [] => ([], false, [])
  | c :: rest =>
    have _shorter := length_lt_of_dropBlanks h
    if c = '>' then ([], false, rest)
    else if c = '/' then
      if rest.head? = some '>' then ([], true, rest.drop 1) else attributes rest
    else if c = '=' then attributes rest
    else
      have _left := length_left_le rest
      let read := valueAfterName (rest.dropWhile inName)
      let more := attributes read.2
      ((Text.asciiLower (c :: rest.takeWhile inName), read.1) :: more.1, more.2)
termination_by s.length
decreasing_by all_goals omega

theorem length_attributes_le (s : List Char) : (attributes s).2.2.length ≤ s.length := by
  fun_induction attributes s <;> simp_all +zetaDelta <;> omega

/-- The attributes whose name did not occur before. -/
def firstOfEachName (attributes : List (List Char × List Char)) : List (List Char × List Char) :=
  attributes.foldl
    (fun kept pair => if kept.any (·.1 = pair.1) then kept else kept ++ [pair]) []

/-- What is left after the content of an element that is not markup, its end tag included. -/
def afterRaw (tag : List Char) (s : List Char) : List Char :=
  match Text.splitAtFirst ('<' :: '/' :: tag) (Text.asciiLower s) with
  | some (before, _) => Text.afterFirst ['>'] (s.drop before.length)
  | none => []

theorem length_afterRaw_le (tag s : List Char) : (afterRaw tag s).length ≤ s.length := by
  unfold afterRaw
  split
  · refine Nat.le_trans (Text.length_afterFirst_le _ _) ?_
    simp
  · simp

/-- The tokens of a markup text. -/
def tokens (s : List Char) : List Token :=
  match s with
  | [] => []
  | c :: rest =>
    if c = '<' && ['!', '-', '-'].isPrefixOf rest then
      have := Text.length_afterFirst_le ['-', '-', '>'] rest
      tokens (Text.afterFirst ['-', '-', '>'] rest)
    else if c = '<' && (rest.head? = some '!' || rest.head? = some '?') then
      have := Text.length_afterFirst_le ['>'] rest
      tokens (Text.afterFirst ['>'] rest)
    else if c = '<' && rest.head? = some '/' then
      let name := (rest.drop 1).takeWhile inName
      have := Text.length_afterFirst_le ['>'] (rest.drop 1)
      .closing (Text.asciiLower name) :: tokens (Text.afterFirst ['>'] (rest.drop 1))
    else if c = '<' && rest.head?.any Char.isAlpha then
      let tag := Text.asciiLower (rest.takeWhile inName)
      have _afterAttributes := length_attributes_le (rest.dropWhile inName)
      have _afterName := Text.length_dropWhile_le inName rest
      let read := attributes (rest.dropWhile inName)
      if rawTags.contains (String.ofList tag) then
        have _afterContent := length_afterRaw_le tag read.2.2
        .opening tag (firstOfEachName read.1) true :: tokens (afterRaw tag read.2.2)
      else
        .opening tag (firstOfEachName read.1)
          (read.2.1 || voidTags.contains (String.ofList tag)) :: tokens read.2.2
    else
      let raw := c :: rest.takeWhile (· ≠ '<')
      have := Text.length_dropWhile_le (· ≠ '<') rest
      if raw.all Text.isBlank then tokens (rest.dropWhile (· ≠ '<'))
      else .text (resolve raw) :: tokens (rest.dropWhile (· ≠ '<'))
termination_by s.length
decreasing_by
  all_goals simp +zetaDelta only [List.length_cons, List.length_drop] at *
  all_goals omega

end KeepAlive.Markup
