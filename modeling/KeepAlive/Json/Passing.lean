import KeepAlive.Json.Reader

/-!
# Passing over JSON

A value that nobody asks for is passed over.  Its brackets, marks and words must be in place, but it
may be nested as deep as it likes, its numbers may be of any size, and an escaped surrogate may stand
alone.
-/

namespace KeepAlive.Json

open Text (Scan)

/-- Passes over an escape, from behind its backslash. -/
def passEscape : Scan Unit := do
  match (← Scan.ahead).head? with
  | some letter =>
    Scan.skip 1
    if letter = 'u' then
      let _ ← fourHex
    else if (letterEscape? letter).isNone then Scan.stop
  | none => Scan.stop

/-- Passes over the next character of a text, or over its closing quote: then there is nothing. -/
def passChar : Scan (Option Unit) := do
  match (← Scan.ahead).head? with
  | none => Scan.stop
  | some c =>
    if c.toNat < 32 then Scan.stop
    else
      Scan.skip 1
      if c = '"' then return none
      if c = '\\' then passEscape
      return some ()

/-- Passes over a text after its opening quote. -/
def passText : Scan Unit := do
  let _ ← Scan.collect passChar

/-- Passes over a value that holds no others. -/
def passPlain : Scan Unit := do
  match (← Scan.ahead).head? with
  | some '"' =>
    Scan.skip 1
    passText
  | some '-' =>
    Scan.skip 1
    let _ ← numeral
  | some 'n' => word "null" ()
  | some 't' => word "true" ()
  | some 'f' => word "false" ()
  | _ =>
    let _ ← numeral

/-- Passes over the name of a member and the colon behind it. -/
def passName : Scan Unit := do
  expect '"'
  passText
  expect ':'

/-- What is left of a value that is being passed over. -/
structure Remainder where
  /-- The marks that close what is open, the innermost first. -/
  closing : List Char
  /-- Whether a value has to come next, and not what follows one. -/
  lacksValue : Bool

/-- Passes over the next piece of a value; the result comes when nothing is left of it. -/
def passPiece (left : Remainder) : Scan (Remainder ⊕ Unit) := do
  if left.lacksValue then
    if ← accept '[' then
      if ← accept ']' then return .inl ⟨left.closing, false⟩
      else return .inl ⟨']' :: left.closing, true⟩
    else if ← accept '\x7b' then
      if ← accept '\x7d' then return .inl ⟨left.closing, false⟩
      else
        passName
        return .inl ⟨'\x7d' :: left.closing, true⟩
    else
      passPlain
      return .inl ⟨left.closing, false⟩
  else
    match left.closing with
    | [] => return .inr ()
    | mark :: outer =>
      if ← accept mark then return .inl ⟨outer, false⟩
      else
        expect ','
        if mark = '\x7d' then passName
        return .inl ⟨left.closing, true⟩

/-- Passes over a value. -/
def passValue : Scan Unit :=
  Scan.iterate passPiece ⟨[], true⟩

end KeepAlive.Json
