import KeepAlive.Api.MediaType
import KeepAlive.Api.Request
import KeepAlive.Json.Passing

/-!
# Bodies

The body of a request for a check holds a script, in an object where other members are passed over,
or in a list of one.  A body that is no JSON is told apart from one of another shape by what comes
first.
-/

namespace KeepAlive.Api

open Text (Scan)

/-- What is wrong with a body. -/
inductive BodyError
  /-- It is not declared to be JSON. -/
  | unsupported
  | malformed
  | misshapen
  deriving DecidableEq, Repr

/-- A text, or nothing where a value of another kind begins. -/
def textOr : Scan (Option String) := do
  Json.space
  match (← Scan.ahead).head? with
  | some '"' =>
    Scan.skip 1
    return some (← Json.textBody)
  | some '[' | some '\x7b' => return none
  | _ =>
    let _ ← Json.plain
    return none

/-- The next member of an object, after so much of it: the script, if it has come, and whether the
object has just been opened.  The result is the script, or nothing for another shape. -/
def member (state : Bool × Option String) : Scan ((Bool × Option String) ⊕ Option String) := do
  let (opened, found) := state
  if ← Json.accept '\x7d' then return .inr found
  else
    if !opened then Json.expect ','
    Json.expect '"'
    let name ← Json.textBody
    if name = "script" then
      if found.isSome then return .inr none
      else
        Json.expect ':'
        match ← textOr with
        | some script => return .inl (false, some script)
        | none => return .inr none
    else
      Json.expect ':'
      Json.passValue
      return .inl (false, found)

/-- A list of one script. -/
def listed : Scan (Option String) := do
  if ← Json.accept ']' then return none
  else
    match ← textOr with
    | none => return none
    | some script =>
      Json.expect ']'
      return some script

/-- The script in a body, or nothing for another shape. -/
def script : Scan (Option String) := do
  if ← Json.accept '\x7b' then Scan.iterate member (true, none)
  else if ← Json.accept '[' then listed
  else
    let _ ← Json.plain
    return none

/-- The script that a body holds. -/
def scriptOf (request : Request) : Except BodyError String :=
  if !request.contentType.any MediaType.isJson then .error .unsupported
  else
    match script.run request.body.toList with
    | .error _ => .error .malformed
    | .ok (none, _) => .error .misshapen
    | .ok (some found, ⟨rest, _⟩) =>
      if rest.all Json.isSpace then .ok found else .error .malformed

end KeepAlive.Api
