import KeepAlive.Text.Digits
import KeepAlive.Text.Search

/-!
# Addresses to listen at

Such an address is a number for a host and a port: four bytes with points between them, or in brackets
eight groups of hexadecimal digits with colons, where one run of zeros may be left out, four bytes may
stand for the last two groups, and the number of an interface may follow.
-/

namespace KeepAlive.CommandLine.BindAddress

/-- Whether a text is a number below the bound in decimal, with or without zeros in front. -/
def isNumber (bound : Nat) (s : List Char) : Bool :=
  (Text.readDecimal s).any (· < bound)

/-- Whether a text is a byte in decimal, without a zero in front. -/
def isByte (s : List Char) : Bool :=
  isNumber 256 s && (s.length = 1 || (s.length ≤ 3 && s.head? ≠ some '0'))

/-- Whether a text is four bytes with points between them. -/
def isFourBytes (s : List Char) : Bool :=
  let bytes := Text.parts (· = '.') s
  bytes.length = 4 && bytes.all isByte

/-- Whether a text is a group of hexadecimal digits. -/
def isGroup (s : List Char) : Bool :=
  !s.isEmpty && s.length ≤ 4 && s.all Text.isHexDigit

/-- How many groups the parts of a text between colons make, if they are all right.  Four bytes count
for two groups; they may stand last where that is allowed. -/
def groupCount? (mayEndInBytes : Bool) : List (List Char) → Option Nat
  | [] => some 0
  | [last] => if isGroup last then some 1 else if mayEndInBytes && isFourBytes last then some 2 else none
  | part :: rest => if isGroup part then (groupCount? mayEndInBytes rest).map (· + 1) else none

/-- The parts of a text between colons; an empty text has none. -/
def colonParts (s : List Char) : List (List Char) :=
  if s.isEmpty then [] else Text.parts (· = ':') s

/-- Whether a text is eight groups, of which a run of zeros may be left out. -/
def isEightGroups (s : List Char) : Bool :=
  match Text.splitAtFirst "::".toList s with
  | none => groupCount? true (colonParts s) = some 8
  | some (before, after) =>
    match groupCount? false (colonParts before), groupCount? true (colonParts after) with
    | some n, some m => n + m < 8
    | _, _ => false

/-- Whether a text is a port. -/
def isPort : List Char → Bool :=
  isNumber 65536

/-- Whether a text is an address to listen at. -/
def isValid (text : String) : Bool :=
  match text.toList with
  | '[' :: s =>
    let host := s.takeWhile (· ≠ ']')
    match s.dropWhile (· ≠ ']') with
    | ']' :: ':' :: port =>
      let interface := host.dropWhile (· ≠ '%')
      isEightGroups (host.takeWhile (· ≠ '%')) && isPort port &&
        (interface.isEmpty || isNumber 4294967296 (interface.drop 1))
    | _ => false
  | s =>
    match Text.parts (· = ':') s with
    | [host, port] => isFourBytes host && isPort port
    | _ => false

end KeepAlive.CommandLine.BindAddress
