import KeepAlive.Json.Value
import KeepAlive.Login.Status

/-!
# The fields of a login form

A login form has three fields that matter.  `Locators` says where each of them is, as far as that
is known.
-/

namespace KeepAlive

/-- A part of a login form. -/
inductive Field
  | username
  | password
  | submitButton
  deriving DecidableEq, Repr

namespace Field

/-- The fields in the order in which they are searched and reported. -/
def all : List Field := [.username, .password, .submitButton]

theorem mem_all (field : Field) : field ∈ all := by
  cases field <;> decide

/-- The name of a field. -/
def name : Field → String
  | .username => "username"
  | .password => "password"
  | .submitButton => "submit_button"

/-- The field of a name. -/
def named? (name : String) : Option Field :=
  all.find? fun field => field.name = name

theorem named?_name (field : Field) : named? field.name = some field := by
  cases field <;> decide

/-- The status of a login that could not reach the field. -/
def notFound : Field → LoginStatus
  | .username => .usernameFieldNotFound
  | .password => .passwordFieldNotFound
  | .submitButton => .submitButtonNotFound

end Field

/-- Where the fields of a form are; each may be unknown. -/
structure Locators where
  username : Option String := none
  password : Option String := none
  submitButton : Option String := none
  deriving DecidableEq, Repr, Inhabited

namespace Locators

/-- The locator of one field. -/
def get (locators : Locators) : Field → Option String
  | .username => locators.username
  | .password => locators.password
  | .submitButton => locators.submitButton

/-- `locators` with one field's locator replaced. -/
def set (locators : Locators) (field : Field) (locator : Option String) : Locators :=
  match field with
  | .username => { locators with username := locator }
  | .password => { locators with password := locator }
  | .submitButton => { locators with submitButton := locator }

@[simp] theorem get_set (locators : Locators) (field other : Field) (locator : Option String) :
    (locators.set field locator).get other =
      if other = field then locator else locators.get other := by
  cases field <;> cases other <;> rfl

/-- The locators as they are sent. -/
def toJson (locators : Locators) : Json :=
  .object (Field.all.map fun field => (field.name, .ofText? (locators.get field)))

/-- The first field without a locator. -/
def firstMissing (locators : Locators) : Option Field :=
  Field.all.find? fun field => (locators.get field).isNone

/-- Whether every field has a locator. -/
def isComplete (locators : Locators) : Bool :=
  locators.firstMissing.isNone

/-- Whether no field has a locator. -/
def isEmpty (locators : Locators) : Bool :=
  Field.all.all fun field => (locators.get field).isNone

theorem isComplete_iff {locators : Locators} :
    locators.isComplete = true ↔ ∀ field, (locators.get field).isSome = true := by
  simp only [isComplete, firstMissing, Option.isNone_iff_eq_none, List.find?_eq_none,
    Option.isNone_iff_eq_none]
  constructor
  · intro h field
    simpa [Option.isSome_iff_ne_none] using h field (Field.mem_all field)
  · intro h field _
    simpa [Option.isSome_iff_ne_none] using h field

end Locators

/-- What the owner of an account types to log in. -/
structure Credentials where
  username : String
  password : String
  deriving DecidableEq, Repr, Inhabited

end KeepAlive
