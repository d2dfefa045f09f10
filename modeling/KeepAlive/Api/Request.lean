import KeepAlive.Text.Digits
import KeepAlive.Text.Search

/-!
# Requests

A request has a method, a target with a path and perhaps a query, and perhaps a body with its type.
Parts of the target may be spelled with percent signs.
-/

namespace KeepAlive.Api

/-- A request. -/
structure Request where
  method : String
  target : String
  contentType : Option String := none
  body : String := ""
  deriving Repr

/-- The numbers that identify sites go up to this bound. -/
def idBound : Nat := 9223372036854775808

/-- Limits are below this bound. -/
def limitBound : Nat := 18446744073709551616

/-- The bytes that a text with percent signs spells; a sign without two digits stands for itself. -/
def percentBytes : List Char → List UInt8
  | [] => []
  | '%' :: high :: low :: rest =>
    match Text.hexValue high, Text.hexValue low with
    | some h, some l => UInt8.ofNat (16 * h + l) :: percentBytes rest
    | _, _ => '%'.toUInt8 :: percentBytes (high :: low :: rest)
  | c :: rest => (String.singleton c).toUTF8.toList ++ percentBytes rest

/-- The text that a text with percent signs spells, if its bytes make one. -/
def percentDecoded? (s : List Char) : Option String :=
  String.fromUTF8? (ByteArray.mk (percentBytes s).toArray)

/-- The id that a segment of a path spells. -/
def idOf? (segment : List Char) : Option Int := do
  let id ← Text.readInteger (← percentDecoded? segment).toList
  if -(idBound : Int) ≤ id ∧ id < idBound then return id else none

/-- Whether a character may stand in the name of a scheme. -/
def inScheme (c : Char) : Bool :=
  c.isAlphanum || "+-.".contains c

/-- The part of a target from its path on: a target that names a host has a scheme in front. -/
def fromPath (target : List Char) : List Char :=
  if target = ['*'] || target.head? = some '/' then target
  else
    match target.dropWhile inScheme with
    | ':' :: '/' :: '/' :: rest =>
      let tail := rest.dropWhile fun c => c ≠ '/' && c ≠ '?'
      if tail.head? = some '/' then tail else '/' :: tail
    | _ => []

/-- The path of a target and its query; what follows a `#` belongs to neither. -/
def split (target : String) : List Char × List Char :=
  let s := fromPath (target.toList.takeWhile (· ≠ '#'))
  (s.takeWhile (· ≠ '?'), (s.dropWhile (· ≠ '?')).drop 1)

/-- A part of a query: blanks are spelled as plus signs. -/
def queryPart (s : List Char) : Option String :=
  percentDecoded? (s.map fun c => if c = '+' then ' ' else c)

/-- The values that a query gives to a name. -/
def queryValues (query : List Char) (name : String) : List (Option String) :=
  let pairs := ((Text.parts (· = '&') query).filter fun part => !part.isEmpty).map fun part =>
    (part.takeWhile (· ≠ '='), (part.dropWhile (· ≠ '=')).drop 1)
  (pairs.filter fun (key, _) => queryPart key = some name).map fun (_, value) => queryPart value

/-- The limit that a query sets, if it sets one; none at all if it makes no sense. -/
def limitOf? (query : List Char) : Option (Option Nat) :=
  match queryValues query "limit" with
  | [] => some none
  | [some value] => do
    let limit ← Text.readNatural value.toList
    if limit < limitBound then return some limit else none
  | _ => none

end KeepAlive.Api
