import KeepAlive.Policy.Basic
import KeepAlive.Time.Stamp
import KeepAlive.Time.Zone

/-!
# Drawing the next run

The next run of a site is drawn from its policy with random words.  First the number of minutes ahead
is drawn; if the policy counts in whole days, the minute of the day is drawn next and the run falls
on that minute of the local day.
-/

namespace KeepAlive.Policy

open Time

/-- Random words; when they are used up, zeros follow. -/
abbrev Words : Type :=
  List UInt32

/-- The numbers that 32 bits hold. -/
def wordCount : Nat := 4294967296

/-- The largest multiple of `range` by a power of two in 32 bits, less one: products whose low half
is above it are refused. -/
def acceptedLow (range : Nat) : Nat :=
  range <<< (31 - Nat.log2 range) - 1

/-- The first word whose product with `range` is accepted gives a number below `range`, from the high
half of the product; the words after it are left. -/
def belowRange (range : Nat) : Words → Nat × Words
  | [] => (0, [])
  | word :: rest =>
    let product := word.toNat * range
    if product % wordCount ≤ acceptedLow range then (product / wordCount, rest)
    else belowRange range rest

/-- A number from `low` to `high`, both included, and the words that are left. -/
def between (low high : UInt32) (words : Words) : Nat × Words :=
  let range := (high.toNat + 1 - low.toNat) % wordCount
  if range = 0 then
    match words with
    | [] => (0, [])
    | word :: rest => (word.toNat, rest)
  else
    let (n, rest) := belowRange range words
    (low.toNat + n, rest)

/-- The seconds of an hour. -/
def secondsPerHour : Int := 3600

/-- The next run after `now`, in the given zone, drawn with the given words.  A local time that does
not exist is moved on by an hour; if that does not exist either, the minutes ahead stand alone. -/
def nextRunAfter (policy : Policy) (zone : Zone) (now : Instant) (words : Words) : Instant :=
  let (ahead, rest) := between policy.fields.firstMinute policy.fields.lastMinute words
  let drawn := now.plusMinutes ahead
  if policy.fields.isDayAligned then
    let (minute, _) := between policy.fields.windowStart policy.fields.windowEnd rest
    let midnight := zone.localSecond drawn / secondsPerDay * secondsPerDay
    let wanted := midnight + 60 * minute
    ((zone.earliest? wanted) <|> (zone.earliest? (wanted + secondsPerHour))).getD drawn
  else drawn

end KeepAlive.Policy
