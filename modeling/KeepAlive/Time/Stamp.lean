import KeepAlive.Text.Digits
import KeepAlive.Text.Search
import KeepAlive.Time.Civil
import KeepAlive.Time.Instant

/-!
# Time stamps

Instants are written and read as in RFC 3339: date, `T`, time of day, fraction of the second and
offset from UTC.  A year outside 0 to 9999 is written with its sign and at least four digits, and
is not read.
-/

namespace KeepAlive.Time

/-- The seconds of a day. -/
def secondsPerDay : Nat := 86400

/-- A year with four digits, or with its sign. -/
def yearText (year : Int) : String :=
  if 0 ≤ year ∧ year ≤ 9999 then Text.padZeros 4 year.toNat
  else (if year < 0 then "-" else "+") ++ Text.padZeros 4 year.natAbs

/-- Date and time of day of an instant in UTC, to the second; a leap second is the sixtieth. -/
def secondText (instant : Instant) : String :=
  let date := Date.ofDays (instant.second / secondsPerDay)
  let time := (instant.second % secondsPerDay).toNat
  yearText date.year ++ "-" ++ Text.padZeros 2 date.month ++ "-" ++ Text.padZeros 2 date.day ++
    "T" ++ Text.padZeros 2 (time / 3600) ++ ":" ++ Text.padZeros 2 (time / 60 % 60) ++ ":" ++
    Text.padZeros 2 (time % 60 + instant.nano / nanosPerSecond)

/-- An instant to the millisecond, in UTC. -/
def millisText (instant : Instant) : String :=
  secondText instant ++ "." ++
    Text.padZeros 3 (instant.nano % nanosPerSecond / 1000000) ++ "Z"

/-- An instant to the nanosecond, in UTC. -/
def nanosText (instant : Instant) : String :=
  secondText instant ++ "." ++ Text.padZeros 9 (instant.nano % nanosPerSecond) ++ "Z"

/-- The fraction of a second in as many groups of three digits as it takes. -/
def fractionText (nanos : Nat) : String :=
  if nanos = 0 then ""
  else if nanos % 1000000 = 0 then "." ++ Text.padZeros 3 (nanos / 1000000)
  else if nanos % 1000 = 0 then "." ++ Text.padZeros 6 (nanos / 1000)
  else "." ++ Text.padZeros 9 nanos

/-- An instant with the fraction it takes and the given sign for UTC. -/
def fullText (utc : String) (instant : Instant) : String :=
  secondText instant ++ fractionText (instant.nano % nanosPerSecond) ++ utc

/-- Why a text is no time stamp. -/
inductive StampError
  | tooShort
  | invalid
  | outOfRange
  | tooLong
  deriving DecidableEq, Repr

/-- The sentence for a text that is no time stamp. -/
def StampError.message : StampError → String
  | .tooShort => "premature end of input"
  | .invalid => "input contains invalid characters"
  | .outOfRange => "input is out of range"
  | .tooLong => "trailing input"

/-- A time stamp as read: the instant and the offset from UTC, in seconds east. -/
structure Stamp where
  instant : Instant
  offset : Int := 0
  deriving DecidableEq, Repr

namespace Stamp

/-- The length of a date. -/
def dateLength : Nat := 10

/-- The length of a date and a time of day. -/
def headLength : Nat := 19

/-- Two digits of a text, from a place on. -/
def pair (s : List Char) (place : Nat) : Nat :=
  Text.decimalValue ((s.drop place).take 2)

/-- Whether the text has a digit or the right mark at each place of a date and a time of day. -/
def hasForm (s : List Char) : Bool :=
  (s.zipIdx.take headLength).all fun (c, place) =>
    if place = 4 || place = 7 then c = '-'
    else if place = 10 then c = 'T' || c = 't' || c = ' '
    else if place = 13 || place = 16 then c = ':'
    else c.isDigit

/-- The nanoseconds that the first nine digits of a fraction spell. -/
def nanosOf (digits : List Char) : Nat :=
  let counted := digits.take 9
  Text.decimalValue counted * Nat.pow 10 (9 - counted.length)

/-- The fraction of a second, if there is one, and what follows. -/
def fraction (s : List Char) : Except StampError (Nat × List Char) :=
  match s with
  | '.' :: rest =>
    match rest with
    | [] => .error .tooShort
    | c :: _ =>
      if c.isDigit then .ok (nanosOf (rest.takeWhile Char.isDigit), rest.dropWhile Char.isDigit)
      else .error .invalid
  | _ => .ok (0, s)

/-- Two digits and what follows them. -/
def twoDigits (s : List Char) : Except StampError (Nat × List Char) :=
  if Text.byteLength s < 2 then .error .tooShort
  else if s.length < 2 || !(s.take 2).all Char.isDigit then .error .invalid
  else .ok (pair s 0, s.drop 2)

/-- Hours and minutes of an offset, in minutes, and what follows. -/
def offsetMinutes (s : List Char) : Except StampError (Nat × List Char) := do
  let (hours, rest) ← twoDigits s
  match rest with
  | [] => .error .tooShort
  | ':' :: rest =>
    let (minutes, rest) ← twoDigits rest
    if 60 ≤ minutes then .error .outOfRange else return (60 * hours + minutes, rest)
  | _ => .error .invalid

/-- The offset from UTC in minutes east, and what follows. -/
def offsetOf (s : List Char) : Except StampError (Int × List Char) :=
  match s with
  | [] => .error .tooShort
  | c :: rest =>
    if c = 'Z' || c = 'z' then .ok (0, rest)
    else if c = '+' then (offsetMinutes rest).map fun (n, left) => ((n : Int), left)
    else if c = '-' || c = '\u2212' then (offsetMinutes rest).map fun (n, left) => (-(n : Int), left)
    else .error .invalid

/-- The date at the start of a text. -/
def dateOf (s : List Char) : Date :=
  ⟨Text.decimalValue (s.take 4), pair s 5, pair s 8⟩

/-- The second of the day and the nanoseconds after it, with the given fraction of a second, if there
is such a time of day. -/
def timeOf? (s : List Char) (nanos : Nat) : Option (Nat × Nat) :=
  let hour := pair s 11
  let minute := pair s 14
  let second := pair s 17
  if hour < 24 && minute < 60 && second ≤ 60 then
    some (3600 * hour + 60 * minute + min second 59,
      nanos + (if second = 60 then nanosPerSecond else 0))
  else none

/-- Reads a time stamp, from left to right. -/
def read (text : String) : Except StampError Stamp := do
  let s := text.toList
  if text.utf8ByteSize < headLength then throw .tooShort
  if !hasForm (s.take dateLength) then throw .invalid
  if !(dateOf s).isValid then throw .outOfRange
  if s.length < headLength || !hasForm s then throw .invalid
  let (nanos, afterFraction) ← fraction (s.drop headLength)
  let some (second, nano) := timeOf? s nanos | throw .outOfRange
  let (offset, rest) ← offsetOf afterFraction
  if !rest.isEmpty then throw .tooLong
  if 24 * 60 ≤ offset.natAbs then throw .outOfRange
  return ⟨⟨(dateOf s).toDays * secondsPerDay + second - 60 * offset, nano⟩, 60 * offset⟩

end Stamp

end KeepAlive.Time
