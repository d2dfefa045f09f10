import KeepAlive.Json.Value
import KeepAlive.Policy.Basic

/-!
# Policies as values

A policy is written as an object with its four numbers.  It is read from such an object, where all but
the first may be missing, or from the list of the numbers in order.
-/

namespace KeepAlive.Policy.Fields

/-- The numbers of a policy are below this bound. -/
def numberBound : Nat := 4294967296

/-- A number of minutes. -/
def minutes? (value : Json) : Option UInt32 :=
  (value.natural? numberBound).map UInt32.ofNat

/-- A number of minutes, or nothing. -/
def optionalMinutes? : Json → Option (Option UInt32)
  | .null => some none
  | value => (minutes? value).map some

/-- An optional number under a name. -/
def optionalMember? (value : Json) (name : String) : Option (Option UInt32) :=
  match value.member? name with
  | none => some none
  | some found => optionalMinutes? found

/-- The numbers that a value describes. -/
def ofJson? (value : Json) : Option Fields :=
  match value with
  | .object _ => do
    return {
      dateStart := ← (value.member? "date_minutes_start").bind minutes?
      dateEnd := ← optionalMember? value "date_minutes_end"
      timeStart := ← optionalMember? value "allowed_time_minutes_start"
      timeEnd := ← optionalMember? value "allowed_time_minutes_end" }
  | .array (start :: more) =>
    if more.length ≤ 3 then do
      let item (place : Nat) : Option (Option UInt32) :=
        optionalMinutes? (more[place]?.getD .null)
      return {
        dateStart := ← minutes? start
        dateEnd := ← item 0
        timeStart := ← item 1
        timeEnd := ← item 2 }
    else none
  | _ => none

/-- An optional number of minutes as a value. -/
def minutesJson (minutes : Option UInt32) : Json :=
  .ofOption (fun n => .nat n.toNat) minutes

/-- The numbers as an object. -/
def toJson (fields : Fields) : Json :=
  .object [
    ("date_minutes_start", .nat fields.dateStart.toNat),
    ("date_minutes_end", minutesJson fields.dateEnd),
    ("allowed_time_minutes_start", minutesJson fields.timeStart),
    ("allowed_time_minutes_end", minutesJson fields.timeEnd)]

end KeepAlive.Policy.Fields
