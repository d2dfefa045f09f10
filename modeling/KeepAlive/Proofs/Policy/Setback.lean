import KeepAlive.Proofs.Policy.Sampling

/-!
# Clocks that are set back

A run of a policy that does not allow zero minutes ahead lies in the future, with one exception.  The
minutes ahead are counted in true time, and the day of the run is the one that the local calendar shows
then.  When the clocks are set back on the way, one day ahead may still be the present day; and when
they have just been set back, the next day may have begun before.  So a policy that allows one day
ahead, and the minutes of the day that are shown again, may draw an instant that has passed.
-/

namespace KeepAlive

open Time

namespace Time.Zone

variable (zone : Zone)

/-- How far the clocks are set back at the change, in seconds; less than zero if they are set
forward. -/
def setback : Int :=
  zone.before - zone.after

/-- Whether the clocks are set back or forward by less than a day. -/
def ChangesByLessThanDay : Prop :=
  -(secondsPerDay : Int) < zone.setback ∧ zone.setback < secondsPerDay

/-- A local time is found as the clocks before the change show it, or else not before the change and
not earlier than the clocks after it show it, or it is given up. -/
theorem second_of_earliest_or_later (second : Int) (instead : Instant) :
    let instant := ((zone.earliest? second) <|>
      (zone.earliest? (second + Policy.secondsPerHour))).getD instead
    (second - zone.before < zone.change ∧ instant.second = second - zone.before) ∨
      zone.change ≤ second - zone.before ∧
        (instant = instead ∨ zone.change ≤ instant.second ∧ second - zone.after ≤ instant.second) := by
  have hhour : (0 : Int) ≤ Policy.secondsPerHour := by decide
  have hfound (moment : Int) : zone.earliest? moment =
      if moment - zone.before < zone.change then some ⟨moment - zone.before, 0⟩
      else if zone.change ≤ moment - zone.after then some ⟨moment - zone.after, 0⟩ else none := rfl
  by_cases hbefore : second - zone.before < zone.change
  · refine Or.inl ⟨hbefore, ?_⟩
    simp only [hfound, if_pos hbefore]
    rfl
  · refine Or.inr ⟨Int.not_lt.1 hbefore, ?_⟩
    have hlater : ¬second + Policy.secondsPerHour - zone.before < zone.change := by omega
    simp only [hfound, if_neg hbefore, if_neg hlater]
    by_cases hafter : zone.change ≤ second - zone.after
    · rw [if_pos hafter]
      exact Or.inr ⟨hafter, Int.le_refl _⟩
    · rw [if_neg hafter]
      by_cases hmoved : zone.change ≤ second + Policy.secondsPerHour - zone.after
      · rw [if_pos hmoved]
        refine Or.inr ⟨hmoved, ?_⟩
        change second - zone.after ≤ second + Policy.secondsPerHour - zone.after
        omega
      · rw [if_neg hmoved]
        exact Or.inl rfl

end Time.Zone

namespace Policy

/-- Whether the policy allows one day ahead and some minute of the day within the time that is shown
again when the clocks are set back at midnight. -/
structure MayFallBack (policy : Policy) (zone : Zone) : Prop where
  aligned : policy.fields.isDayAligned = true
  oneDay : policy.fields.firstMinute.toNat = minutesPerDay
  window : 60 * (policy.fields.windowStart.toNat : Int) < zone.setback

variable {policy : Policy} {zone : Zone}

/-- The day that is shown so many minutes ahead begins less than a day before then. -/
theorem localDay_plusMinutes_gt (zone : Zone) (now : Instant) (minutes : Nat) :
    now.second + 60 * minutes + zone.offsetAt (now.second + 60 * minutes) - secondsPerDay <
      zone.localDay (now.plusMinutes minutes) * secondsPerDay := by
  change _ < (now.second + 60 * minutes + zone.offsetAt (now.second + 60 * minutes)) /
    secondsPerDay * secondsPerDay
  simp only [secondsPerDay]
  omega

/-- A run that is not later than the present second is drawn within little more than a day before the
change, or in the time that is shown again. -/
theorem mayFallBack_of_runOf (hzone : zone.ChangesByLessThanDay)
    (hfirst : 1 ≤ policy.fields.dateStart.toNat) {now : Instant} {ahead minute : Nat}
    (hadmits : policy.Admits ahead minute)
    (hpast : (policy.runOf zone now ahead minute).second ≤ now.second) :
    policy.MayFallBack zone ∧ zone.change - secondsPerDay - zone.setback < now.second ∧
      now.second < zone.change + zone.setback := by
  obtain ⟨⟨hahead, -⟩, ⟨hminute, -⟩⟩ := hadmits
  obtain ⟨-, hback⟩ := hzone
  change 1 ≤ policy.fields.firstMinute.toNat at hfirst
  have hdrawn : (now.plusMinutes ahead).second = now.second + 60 * ahead := rfl
  by_cases haligned : policy.fields.isDayAligned = true
  · have hday := minutesPerDay_le_firstMinute haligned hfirst
    have hwhole := (wholeDays_of_isDayAligned haligned).1
    obtain ⟨wanted, hwanted⟩ : ∃ wanted, wanted =
        zone.localDay (now.plusMinutes ahead) * secondsPerDay + 60 * (minute : Int) := ⟨_, rfl⟩
    have hafter := localDay_plusMinutes_gt zone now ahead
    have hshown := zone.second_of_earliest_or_later wanted (now.plusMinutes ahead)
    simp only [runOf, if_pos haligned, ← hwanted] at hpast
    suffices h : policy.fields.firstMinute.toNat = minutesPerDay ∧
        60 * (policy.fields.windowStart.toNat : Int) < zone.setback ∧
        zone.change - secondsPerDay - zone.setback < now.second ∧
        now.second < zone.change + zone.setback from ⟨⟨haligned, h.1, h.2.1⟩, h.2.2⟩
    rw [Zone.offsetAt] at hafter
    simp only [minutesPerDay, secondsPerDay, Zone.setback] at *
    rcases hshown with ⟨hbefore, heq⟩ | ⟨hchanged, heq | ⟨hlater, hshown⟩⟩
    · -- Shown by the clocks before the change, at a time that they have come to by now: so they
      -- must have been set back by the time of the minutes ahead.
      split at hafter <;> omega
    · rw [heq, hdrawn] at hpast
      omega
    · -- Shown by the clocks after the change, which has come by now: the day ahead is a later one.
      split at hafter <;> omega
  · rw [runOf_of_not_isDayAligned _ _ _ haligned, hdrawn] at hpast
    omega

/-- On the last day before the change, at the minute that the window begins with, the present instant
itself is drawn. -/
theorem MayFallBack.exists_drawn_now (hzone : zone.ChangesByLessThanDay)
    (h : policy.MayFallBack zone) :
    ∃ second : Int, policy.nextRunAfter zone ⟨second, 0⟩ [] = ⟨second, 0⟩ := by
  obtain ⟨hwindow, -⟩ := windowStart_le_windowEnd policy
  obtain ⟨second, hsecond⟩ : ∃ second, second = zone.change - 1 -
      (zone.change - 1 + zone.before - 60 * policy.fields.windowStart.toNat) % secondsPerDay :=
    ⟨_, rfl⟩
  have hnext : policy.nextRunAfter zone ⟨second, 0⟩ [] =
      policy.runOf zone ⟨second, 0⟩ minutesPerDay policy.fields.windowStart.toNat := by
    rw [nextRunAfter_eq_runOf]
    simp only [between_nil (firstMinute_le_lastMinute policy), between_nil hwindow, h.oneDay]
  obtain ⟨haligned, -, hshown⟩ := h
  have hbefore : second < zone.change := by
    simp only [secondsPerDay] at hsecond
    omega
  have hafter : zone.offsetAt (second + 60 * minutesPerDay) = zone.after := by
    refine if_neg (Int.not_lt.2 ?_)
    simp only [secondsPerDay] at hsecond
    simp only [minutesPerDay]
    omega
  have hday : zone.localDay (Instant.plusMinutes ⟨second, 0⟩ minutesPerDay) * secondsPerDay +
      60 * policy.fields.windowStart.toNat = second + zone.before := by
    change (second + 60 * minutesPerDay + zone.offsetAt (second + 60 * minutesPerDay)) /
      secondsPerDay * secondsPerDay + _ = _
    rw [hafter]
    simp only [Zone.ChangesByLessThanDay, Zone.setback, minutesPerDay, secondsPerDay] at *
    omega
  refine ⟨second, ?_⟩
  rw [hnext]
  simp only [runOf, if_pos haligned, hday, Zone.earliest?, Int.add_sub_cancel, if_pos hbefore]
  rfl

/-- A run lies in the future unless the clocks are set back past the start of the window and the policy
allows one day ahead, and then too but for little more than a day around the change; such a policy does
draw instants that have come. -/
theorem later_unless_set_back (hzone : zone.ChangesByLessThanDay)
    (hfirst : 1 ≤ policy.fields.dateStart.toNat) :
    (∀ (now : Instant) (words : Words), now.isBefore (policy.nextRunAfter zone now words) = true ∨
      policy.MayFallBack zone ∧ zone.change - secondsPerDay - zone.setback < now.second ∧
        now.second < zone.change + zone.setback) ∧
    (policy.MayFallBack zone →
      ∃ (now : Instant) (words : Words),
        now.isBefore (policy.nextRunAfter zone now words) = false) := by
  refine ⟨fun now words => ?_, fun hback => ?_⟩
  · obtain ⟨ahead, minute, hadmits, hrun⟩ := policy.exists_runOf zone now words
    rw [hrun]
    by_cases hpast : (policy.runOf zone now ahead minute).second ≤ now.second
    · exact Or.inr (mayFallBack_of_runOf hzone hfirst hadmits hpast)
    · exact Or.inl (Instant.isBefore_iff.2 (Or.inl (Int.not_le.1 hpast)))
  · obtain ⟨second, hsecond⟩ := hback.exists_drawn_now hzone
    refine ⟨⟨second, 0⟩, [], ?_⟩
    simp [hsecond, Instant.isBefore]

/-- In the night before the clocks are set back from three to two, the window after one o'clock is not
shown again. -/
theorem later_than_night_of_change :
    let policy : Policy :=
      ⟨{ dateStart := 1440, timeStart := some 60, timeEnd := some 60 }, by decide⟩
    let zone : Zone := { change := 1792890000, before := 7200, after := 3600 }
    let now : Instant := ⟨1792881000, 0⟩
    zone.ChangesByLessThanDay ∧ 1 ≤ policy.fields.dateStart.toNat ∧
      now.isBefore (policy.nextRunAfter zone now []) = true := by
  intro policy zone now
  have hzone : zone.ChangesByLessThanDay := by
    constructor <;> decide
  have hfirst : 1 ≤ policy.fields.dateStart.toNat := by decide
  have hnever : ¬policy.MayFallBack zone := fun hback => absurd hback.window (by decide)
  exact ⟨hzone, hfirst, ((later_unless_set_back hzone hfirst).1 now []).resolve_right
    fun hback => hnever hback.1⟩

/-- Half an hour into that night a run at midnight one day ahead is drawn half an hour ago. -/
theorem drawn_before_now :
    let policy : Policy :=
      ⟨{ dateStart := 1440, timeStart := some 0, timeEnd := some 0 }, by decide⟩
    let zone : Zone := { change := 1792890000, before := 7200, after := 3600 }
    let now : Instant := ⟨1792881000, 0⟩
    1 ≤ policy.fields.dateStart.toNat ∧ zone.ChangesByLessThanDay ∧
      policy.nextRunAfter zone now [] = ⟨1792879200, 0⟩ ∧
      now.isBefore (policy.nextRunAfter zone now []) = false := by
  refine ⟨by decide, ⟨by decide, by decide⟩, by decide, by decide⟩

end Policy

end KeepAlive
