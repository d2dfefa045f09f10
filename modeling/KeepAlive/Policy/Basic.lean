/-!
# Schedule policies

A policy says how many minutes ahead the next login of a site may be and, if that is counted in
whole days, between which minutes of the day.  Only sound policies can be made.
-/

namespace KeepAlive

/-- The minutes of a day. -/
def minutesPerDay : Nat := 1440

namespace Policy

/-- The numbers that describe a policy. -/
structure Fields where
  dateStart : UInt32
  dateEnd : Option UInt32 := none
  timeStart : Option UInt32 := none
  timeEnd : Option UInt32 := none
  deriving DecidableEq, Repr

/-- The two bounds of the date range. -/
inductive Bound
  | dateStart
  | dateEnd
  deriving DecidableEq, Repr

/-- What makes a policy unsound. -/
inductive Flaw
  | dateRangeInverted (first last : UInt32)
  | timeRangeInverted (first last : UInt32)
  | timeOutOfDay (last : UInt32)
  | notDayAligned (bound : Bound) (value : UInt32)
  deriving DecidableEq, Repr

/-- The name of a bound in records and messages. -/
def Bound.name : Bound → String
  | .dateStart => "date_minutes_start"
  | .dateEnd => "date_minutes_end"

/-- The sentence for a flaw. -/
def Flaw.message : Flaw → String
  | .dateRangeInverted first last =>
    "date_minutes_end (" ++ toString last.toNat ++
      ") must be greater than or equal to date_minutes_start (" ++ toString first.toNat ++ ")"
  | .timeRangeInverted first last =>
    "allowed_time_minutes_end (" ++ toString last.toNat ++
      ") must be greater than or equal to allowed_time_minutes_start (" ++
      toString first.toNat ++ ")"
  | .timeOutOfDay last =>
    "allowed time window must end within one day (<= 1440 minutes), got " ++ toString last.toNat
  | .notDayAligned bound value =>
    bound.name ++
      " must be a multiple of 1440 minutes when the allowed time window is restricted, got " ++
      toString value.toNat

namespace Fields

/-- The fewest minutes ahead. -/
def firstMinute (fields : Fields) : UInt32 :=
  fields.dateStart

/-- The most minutes ahead; the fewest if nothing else is said. -/
def lastMinute (fields : Fields) : UInt32 :=
  fields.dateEnd.getD fields.dateStart

/-- The first allowed minute of the day. -/
def windowStart (fields : Fields) : UInt32 :=
  fields.timeStart.getD 0

/-- The last allowed minute of the day, which may be the next midnight. -/
def windowEnd (fields : Fields) : UInt32 :=
  fields.timeEnd.getD 1440

/-- Whether every minute of the day is allowed. -/
def isFullDay (fields : Fields) : Bool :=
  fields.windowStart.toNat = 0 && fields.windowEnd.toNat = minutesPerDay

/-- Whether a number of minutes makes whole days. -/
def isWholeDays (minutes : UInt32) : Bool :=
  minutes.toNat % minutesPerDay = 0

/-- Whether the date range is one of whole days. -/
def isDayAligned (fields : Fields) : Bool :=
  isWholeDays fields.firstMinute && isWholeDays fields.lastMinute

/-- What makes the fields unsound, if anything. -/
def flaw? (fields : Fields) : Option Flaw :=
  if fields.lastMinute < fields.firstMinute then
    some (.dateRangeInverted fields.firstMinute fields.lastMinute)
  else if fields.windowEnd < fields.windowStart then
    some (.timeRangeInverted fields.windowStart fields.windowEnd)
  else if minutesPerDay < fields.windowEnd.toNat then some (.timeOutOfDay fields.windowEnd)
  else if fields.isFullDay then none
  else if !isWholeDays fields.firstMinute then
    some (.notDayAligned .dateStart fields.firstMinute)
  else if !isWholeDays fields.lastMinute then some (.notDayAligned .dateEnd fields.lastMinute)
  else none

end Fields

end Policy

/-- A sound schedule policy. -/
structure Policy where
  fields : Policy.Fields
  sound : fields.flaw? = none
  deriving DecidableEq, Repr

namespace Policy

/-- The policy with the given fields, if they are sound. -/
def ofFields (fields : Fields) : Except Flaw Policy :=
  match h : fields.flaw? with
  | none => .ok ⟨fields, h⟩
  | some flaw => .error flaw

theorem ofFields_fields (policy : Policy) : ofFields policy.fields = .ok policy := by
  have h := policy.sound
  unfold ofFields
  split
  · rfl
  · simp_all

/-- A single number of minutes ahead is sound, whatever it is. -/
theorem flaw?_of_dateStart (minutes : UInt32) : Fields.flaw? { dateStart := minutes } = none := by
  simp only [Fields.flaw?, Fields.lastMinute, Fields.firstMinute, Fields.windowEnd,
    Fields.windowStart, Fields.isFullDay, Option.getD_none, minutesPerDay]
  simp

/-- The policy of a login so many minutes ahead. -/
def minutesAhead (minutes : UInt32) : Policy :=
  ⟨{ dateStart := minutes }, flaw?_of_dateStart minutes⟩

/-- The policy of a login every so many days at any time of the day, if they can be counted. -/
def everyDays? (days : Nat) : Option Policy :=
  if days * minutesPerDay < 4294967296 then
    some (minutesAhead (UInt32.ofNat (days * minutesPerDay)))
  else none

end Policy

end KeepAlive
