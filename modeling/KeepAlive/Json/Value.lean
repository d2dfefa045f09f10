/-!
# JSON values

Objects keep their members in the order in which they are written, and a name may occur twice; which
member counts is up to the reader of the object.
-/

namespace KeepAlive

/-- A JSON value.  A number with a fraction or an exponent, or one out of the range of 64-bit
integers, is kept as it is written. -/
inductive Json
  | null
  | bool (value : Bool)
  | integer (value : Int)
  | real (literal : String)
  | text (content : String)
  | array (items : List Json)
  | object (members : List (String × Json))
  deriving Inhabited, Repr, BEq

namespace Json

/-- The last member with the given name. -/
def member? (value : Json) (name : String) : Option Json :=
  match value with
  | .object members => (members.reverse.find? (·.1 = name)).map (·.2)
  | _ => none

/-- The member with the given name, `null` if there is none. -/
def member (value : Json) (name : String) : Json :=
  (value.member? name).getD .null

/-- The content of a text. -/
def text? : Json → Option String
  | .text content => some content
  | _ => none

/-- The value of a whole number. -/
def integer? : Json → Option Int
  | .integer value => some value
  | _ => none

/-- The value of a whole number that is not negative and below `bound`. -/
def natural? (bound : Nat) : Json → Option Nat
  | .integer value => if 0 ≤ value ∧ value.toNat < bound then some value.toNat else none
  | _ => none

/-- A truth value. -/
def bool? : Json → Option Bool
  | .bool value => some value
  | _ => none

/-- The items of an array. -/
def array? : Json → Option (List Json)
  | .array items => some items
  | _ => none

/-- `null` for nothing. -/
def ofOption {α : Type} (toJson : α → Json) : Option α → Json
  | none => .null
  | some a => toJson a

/-- A text, or `null` for nothing. -/
def ofText? : Option String → Json :=
  ofOption .text

/-- A natural number. -/
def nat (n : Nat) : Json :=
  .integer n

end Json

end KeepAlive
