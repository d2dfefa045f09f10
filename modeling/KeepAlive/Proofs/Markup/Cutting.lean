import KeepAlive.Markup.Token
import KeepAlive.Proofs.Text.Slices

/-!
# Markup cut at bytes

Markup is read by a cursor that searches for the next mark and cuts the text there.  Nothing comes out
of it if a cut falls outside of the text or into a character, or if a round of one of its loops gets no
further.
-/

namespace KeepAlive.Markup.Cutting

open Text (Cursor byteLength offset? offsetOf? sliceFrom? sliceTo?)

/-! ## References -/

/-- The character that a reference denotes, if it denotes one. -/
def entity (body : List Char) : Option (Option Char) :=
  match namedCharacters.lookup (String.ofList body) with
  | some c => some (some c)
  | none =>
    if ['#', 'x'].isPrefixOf body || ['#', 'X'].isPrefixOf body then
      (sliceFrom? body 2).map fun digits => numbered? (Text.readHex (dropPlus digits))
    else if ['#'].isPrefixOf body then
      (sliceFrom? body 1).map fun digits => numbered? (Text.readDecimal (dropPlus digits))
    else some none

/-- What a round makes of a text up to its first ampersand and what that starts, and what it leaves
unless it is the last one. -/
def resolveRound (s : List Char) : Option (List Char × Option (List Char)) :=
  match offset? (· = '&') s with
  | none => some (s, none)
  | some bytes => do
    let before ← sliceTo? s bytes
    let after ← sliceFrom? s (bytes + 1)
    match (offset? (· = ';') after).filter (· ≤ longestBody) with
    | none => return (before ++ ['&'], some after)
    | some width =>
      match ← entity (← sliceTo? after width) with
      | none => return (before ++ ['&'], some after)
      | some c => return (before ++ [c], some (← sliceFrom? after (width + 1)))

/-- The text with every reference replaced by its character. -/
def resolved (s : List Char) : Option (List Char) :=
  match resolveRound s with
  | none => none
  | some (found, none) => some found
  | some (found, some left) =>
    if left.length < s.length then (resolved left).map (found ++ ·) else none
termination_by s.length

/-! ## Tags and texts -/

section Reading

variable (s : List Char)

/-- Goes behind the next mark. -/
def skipPast (mark : List Char) : Cursor Unit := do
  match offsetOf? mark (← Cursor.rest s) with
  | some bytes => Cursor.advance (bytes + byteLength mark)
  | none => Cursor.finish s

/-- A name in small letters. -/
def name : Cursor (List Char) := do
  let rest ← Cursor.rest s
  let bytes := (offset? (fun c => !inName c) rest).getD (byteLength rest)
  let found ← sliceTo? rest bytes
  Cursor.advance bytes
  return Text.asciiLower found

def skipBlanks : Cursor Unit := do
  let rest ← Cursor.rest s
  Cursor.advance (byteLength rest - byteLength (Text.dropBlanks rest))

/-- The characters up to the next `<`, the first one in any case. -/
def text : Cursor (Option Token) := do
  let rest ← Cursor.rest s
  let first := (rest.head?.map Char.utf8Size).getD 1
  let after ← sliceFrom? rest first
  let bytes := ((offset? (· = '<') after).map (· + first)).getD (byteLength rest)
  let raw ← sliceTo? rest bytes
  Cursor.advance bytes
  if raw.all Text.isBlank then return none
  else return some (.text (← resolved raw))

/-- An end tag. -/
def closing : Cursor Token := do
  Cursor.advance 2
  let tag ← name s
  skipPast s ['>']
  return .closing tag

/-- An attribute's value, in quotes or up to a blank. -/
def value : Cursor (List Char) := do
  let rest ← Cursor.rest s
  match rest.head?.filter fun c => c = '"' || c = '\'' with
  | some quote =>
    let body ← sliceFrom? rest 1
    match offset? (· = quote) body with
    | some bytes =>
      let content ← sliceTo? body bytes
      Cursor.advance (bytes + 2)
      resolved content
    | none =>
      Cursor.finish s
      resolved body
  | none =>
    let bytes := (offset? (fun c => !inBareValue c) rest).getD (byteLength rest)
    let content ← sliceTo? rest bytes
    Cursor.advance bytes
    resolved content

/-- The value after an attribute's name, empty if there is none. -/
def valueAfter : Cursor (List Char) := do
  skipBlanks s
  if ['='].isPrefixOf (← Cursor.rest s) then
    Cursor.advance 1
    skipBlanks s
    value s
  else return []

/-- What a round of the loop over attributes finds. -/
inductive Found
  /-- The end of the tag, that of an element that closes itself or not. -/
  | last (closed : Bool)
  /-- An attribute, or a character that belongs to none. -/
  | one (pair : Option (List Char × List Char))

/-- What stands behind the blanks in a start tag. -/
def find : Cursor Found := do
  let rest ← Cursor.rest s
  if rest.isEmpty then return .last false
  else if ['>'].isPrefixOf rest then
    Cursor.advance 1
    return .last false
  else if ['/', '>'].isPrefixOf rest then
    Cursor.advance 2
    return .last true
  else if ['/'].isPrefixOf rest then
    Cursor.advance 1
    return .one none
  else
    let found ← name s
    if found.isEmpty then
      let left ← Cursor.rest s
      Cursor.advance ((left.head?.map Char.utf8Size).getD 1)
      return .one none
    else return .one (some (found, ← valueAfter s))

/-- A round of the loop over the attributes of a start tag. -/
def attributeRound : Cursor Found := do
  skipBlanks s
  find s

/-- The attributes with one more, unless its name is among them. -/
def kept (attributes : List (List Char × List Char)) :
    Option (List Char × List Char) → List (List Char × List Char)
  | none => attributes
  | some pair => if attributes.any (·.1 = pair.1) then attributes else attributes ++ [pair]

/-- The loop over the attributes of a start tag, to its end. -/
def attributesFrom (found : List (List Char × List Char)) (byte : Nat) :
    Option ((List (List Char × List Char) × Bool) × Nat) :=
  match attributeRound s byte with
  | none => none
  | some (.last closed, next) => some ((found, closed), next)
  | some (.one pair, next) =>
    if byte < next ∧ next ≤ byteLength s then attributesFrom (kept found pair) next else none
termination_by byteLength s - byte

/-- A start tag, with the content of its element where that is no markup. -/
def opening : Cursor Token := do
  Cursor.advance 1
  let tag ← name s
  let (attributes, closed) ← (attributesFrom s [] : Cursor _)
  if rawTags.contains (String.ofList tag) then
    let rest ← Cursor.rest s
    match offsetOf? ('<' :: '/' :: tag) (Text.asciiLower rest) with
    | some bytes =>
      Cursor.advance bytes
      skipPast s ['>']
    | none => Cursor.finish s
    return .opening tag attributes true
  else return .opening tag attributes (closed || voidTags.contains (String.ofList tag))

/-- Whether a tag starts here that has a name. -/
def startsTag (rest : List Char) : Option Bool :=
  if ['<'].isPrefixOf rest then (sliceFrom? rest 1).map fun after => after.head?.any Char.isAlpha
  else some false

/-- A round of the loop over the markup: what it finds, unless that is passed over. -/
def round : Cursor (Option Token) := do
  let rest ← Cursor.rest s
  if ['<', '!', '-', '-'].isPrefixOf rest then
    skipPast s ['-', '-', '>']
    return none
  else if ['<', '!'].isPrefixOf rest || ['<', '?'].isPrefixOf rest then
    skipPast s ['>']
    return none
  else if ['<', '/'].isPrefixOf rest then return some (← closing s)
  else if ← startsTag rest then return some (← opening s)
  else text s

/-- The loop over the markup, to its end. -/
def run (byte : Nat) : Option (List Token) :=
  if byte < byteLength s then
    match round s byte with
    | none => none
    | some (token, next) => if byte < next then (run next).map (token.toList ++ ·) else none
  else some []
termination_by byteLength s - byte

end Reading

end KeepAlive.Markup.Cutting
