import KeepAlive.Time.Instant

/-!
# Time zones

A zone has an offset from UTC that changes at most once.  At a forward change some local times do not
exist, and at a backward change some have two instants.
-/

namespace KeepAlive.Time

/-- A time zone: its offsets, in seconds east of UTC, before and from the second `change` on. -/
structure Zone where
  change : Int := 0
  before : Int
  after : Int
  deriving DecidableEq, Repr

namespace Zone

/-- The zone whose offset never changes. -/
def fixed (offset : Int) : Zone :=
  { before := offset, after := offset }

/-- Universal time. -/
def utc : Zone :=
  fixed 0

/-- The offset at a second of UTC. -/
def offsetAt (zone : Zone) (second : Int) : Int :=
  if second < zone.change then zone.before else zone.after

/-- What a clock in the zone shows at an instant, in seconds from the start of 1970. -/
def localSecond (zone : Zone) (instant : Instant) : Int :=
  instant.second + zone.offsetAt instant.second

/-- The earliest instant at which a clock in the zone shows the second. -/
def earliest? (zone : Zone) (local_ : Int) : Option Instant :=
  if local_ - zone.before < zone.change then some ⟨local_ - zone.before, 0⟩
  else if zone.change ≤ local_ - zone.after then some ⟨local_ - zone.after, 0⟩
  else none

end Zone

end KeepAlive.Time
