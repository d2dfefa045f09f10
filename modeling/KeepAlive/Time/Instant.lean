/-!
# Instants

A point in time is a whole second, counted from the start of 1970 in UTC, and the nanoseconds after
it.  A leap second is the second before it going on: its nanoseconds start at a thousand million.
-/

namespace KeepAlive.Time

/-- The nanoseconds of a second. -/
def nanosPerSecond : Nat := 1000000000

/-- A point in time. -/
structure Instant where
  second : Int
  nano : Nat := 0
  deriving DecidableEq, Repr, Inhabited

namespace Instant

/-- Whether `a` comes before `b`. -/
def isBefore (a b : Instant) : Bool :=
  a.second < b.second || (a.second = b.second && a.nano < b.nano)

/-- Whether `a` does not come after `b`. -/
def isUpTo (a b : Instant) : Bool :=
  !b.isBefore a

/-- Nanoseconds from the start of 1970. -/
def toNanos (instant : Instant) : Int :=
  instant.second * nanosPerSecond + instant.nano

/-- The instant so many nanoseconds from the start of 1970. -/
def ofNanos (nanos : Int) : Instant :=
  ⟨nanos / nanosPerSecond, (nanos % nanosPerSecond).toNat⟩

/-- The instant so many milliseconds from the start of 1970. -/
def ofMillis (millis : Int) : Instant :=
  ⟨millis / 1000, (millis % 1000).toNat * 1000000⟩

/-- The instant so many nanoseconds later. -/
def plusNanos (instant : Instant) (nanos : Int) : Instant :=
  ofNanos (instant.toNanos + nanos)

/-- The instant so many milliseconds later. -/
def plusMillis (instant : Instant) (millis : Int) : Instant :=
  instant.plusNanos (millis * 1000000)

/-- The instant so many minutes later; a leap second is left by any number of them but none. -/
def plusMinutes (instant : Instant) (minutes : Nat) : Instant :=
  ⟨instant.second + 60 * minutes,
    if minutes = 0 then instant.nano else instant.nano % nanosPerSecond⟩

/-- The instant cut to whole milliseconds. -/
def truncated (instant : Instant) : Instant :=
  ⟨instant.second, instant.nano / 1000000 * 1000000⟩

theorem isUpTo_refl (a : Instant) : a.isUpTo a = true := by
  simp [isUpTo, isBefore]

theorem isBefore_iff {a b : Instant} :
    a.isBefore b = true ↔ a.second < b.second ∨ (a.second = b.second ∧ a.nano < b.nano) := by
  simp [isBefore]

theorem isUpTo_iff {a b : Instant} :
    a.isUpTo b = true ↔ a.second < b.second ∨ (a.second = b.second ∧ a.nano ≤ b.nano) := by
  simp only [isUpTo, Bool.not_eq_true', ← Bool.not_eq_true, isBefore_iff]
  omega

end Instant

end KeepAlive.Time
