import KeepAlive.Login.Field

/-!
# What speaks for a field

For each field of a login form: the tags that it may have, the words that name it, and how much each
kind of evidence counts.
-/

namespace KeepAlive.Form

/-- Where a word that names a field is looked for. -/
inductive Property
  | attribute (name : String)
  | text
  deriving DecidableEq, Repr

/-- How the elements of a page are scored for one field. -/
structure Rules where
  /-- The tags that the field may have, with what each counts. -/
  tags : List (String × Nat)
  /-- The words that name the field, in small letters. -/
  aliases : List String
  /-- The values of the attribute `type` that count. -/
  types : List (String × Nat)
  properties : List (Property × Nat)

/-- What counts in an input field. -/
def inputProperties : List (Property × Nat) := [
  (.attribute "name", 10), (.attribute "id", 10), (.attribute "class", 2),
  (.attribute "autocomplete", 10), (.attribute "placeholder", 3)]

/-- The rules for each field. -/
def rules : Field → Rules
  | .username => {
    tags := [("input", 8)]
    aliases := ["email", "e-mail", "username", "user", "uid"]
    types := [("email", 10), ("text", 1)]
    properties := inputProperties }
  | .password => {
    tags := [("input", 8)]
    aliases := ["password", "pwd"]
    types := [("password", 10), ("text", 1)]
    properties := inputProperties }
  | .submitButton => {
    tags := [("button", 8), ("input", 8), ("div", 1)]
    aliases := ["login", "log in", "log-in", "signin", "sign in", "sign-in", "submit"]
    types := [("submit", 30), ("button", 10)]
    properties := [
      (.attribute "name", 10), (.attribute "id", 10), (.attribute "class", 2),
      (.attribute "value", 3), (.text, 10)] }

/-- What being inside a form counts. -/
def formBonus : Nat := 100

/-- What a label nearby counts. -/
def labelBonus : Nat := 2

end KeepAlive.Form
