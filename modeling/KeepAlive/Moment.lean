import KeepAlive.Policy.Draw

/-!
# Moments

What an operation takes from outside the library: the reading of the clock, the local time zone and
the random words from which it may draw.
-/

namespace KeepAlive

open Time

/-- The outside of an operation. -/
structure Moment where
  now : Instant
  zone : Zone := .utc
  words : Policy.Words := []
  deriving Repr, Inhabited

/-- The next run that a policy draws at a moment. -/
def Policy.drawAt (policy : Policy) (moment : Moment) : Instant :=
  policy.nextRunAfter moment.zone moment.now moment.words

end KeepAlive
