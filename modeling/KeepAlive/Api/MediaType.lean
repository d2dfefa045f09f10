import KeepAlive.Text.Search

/-!
# Media types

A media type is written as a type, a slash and a subtype, which may end in a plus sign and a suffix.
Parameters may follow, each after a semicolon and blanks, as a name and a value with or without
quotes.
-/

namespace KeepAlive.Api.MediaType

/-- Whether a name or a bare value may hold the character. -/
def inToken (c : Char) : Bool :=
  c.isAlphanum || "!#$%&'*+-.^_\x60|~".contains c

/-- Whether a value in quotes may hold the character. -/
def inQuotes (c : Char) : Bool :=
  32 ≤ c.toNat && c.toNat < 127

/-- What follows a value in quotes, from behind its opening quote; the value is not empty. -/
def afterQuoted? (s : List Char) : Option (List Char) :=
  let content := s.take 1 ++ (s.drop 1).takeWhile (· ≠ '"')
  match s.drop content.length with
  | '"' :: rest => if content.all inQuotes then some (rest.dropWhile (· = ' ')) else none
  | _ => none

/-- What follows the value of a parameter. -/
def afterValue? (s : List Char) : Option (List Char) :=
  match s with
  | '"' :: rest => afterQuoted? rest
  | _ =>
    match s.dropWhile inToken with
    | [] => some []
    | rest => if (s.head?).any inToken then some rest else none

theorem length_afterValue?_le {s rest : List Char} (h : afterValue? s = some rest) :
    rest.length ≤ s.length := by
  unfold afterValue? at h
  split at h
  · next after =>
    unfold afterQuoted? at h
    simp only at h
    split at h
    · next more he =>
      split at h
      · have shorter := congrArg List.length he
        have left := Text.length_dropWhile_le (· = ' ') more
        simp only [Option.some.injEq] at h
        simp only [List.length_drop, List.length_cons] at shorter
        rw [← h, List.length_cons]
        omega
      · simp at h
    · simp at h
  · split at h
    · simp only [Option.some.injEq] at h
      simp [← h]
    · split at h
      · simp only [Option.some.injEq] at h
        rw [← h]
        exact Text.length_dropWhile_le inToken s
      · simp at h

/-- Whether a text is a list of parameters, from behind the semicolon in front of them. -/
def areParameters (s : List Char) : Bool :=
  match _start : s.dropWhile (· = ' ') with
  | [] => true
  | c :: rest =>
    if inToken c then
      match _name : rest.dropWhile inToken with
      | '=' :: value =>
        match _value : afterValue? value with
        | some [] => true
        | some (';' :: more) => areParameters more
        | _ => false
      | _ => false
    else false
termination_by s.length
decreasing_by
  have first := Text.length_dropWhile_le (· = ' ') s
  have second := Text.length_dropWhile_le inToken rest
  have third := length_afterValue?_le _value
  rw [_start] at first
  rw [_name] at second
  simp only [List.length_cons] at first second third
  omega

/-- Whether a subtype is JSON or has JSON as its base or its suffix. -/
def isJsonSubtype (subtype : List Char) : Bool :=
  let suffix := (subtype.reverse.takeWhile (· ≠ '+')).reverse
  let base := subtype.take (subtype.length - suffix.length - 1)
  subtype = "json".toList || (!base.isEmpty && (base = "json".toList || suffix = "json".toList))

/-- Whether a text is a media type of JSON. -/
def isJson (text : String) : Bool :=
  let s := Text.asciiLower text.toList
  let essence := s.takeWhile (· ≠ ';')
  let subtype := (essence.dropWhile (· ≠ '/')).drop 1
  essence.takeWhile (· ≠ '/') = "application".toList && subtype.all inToken &&
    isJsonSubtype subtype && areParameters ((s.drop essence.length).drop 1)

end KeepAlive.Api.MediaType
