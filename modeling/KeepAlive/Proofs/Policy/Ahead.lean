import KeepAlive.Policy.Draw

/-!
# How far ahead a run is drawn

In a zone whose offset never changes, the run that a policy draws lies after the present second,
unless the policy allows zero minutes ahead.  A policy that counts in whole days may put the run at an
earlier minute of its day, but then that day is not the present one.  With zero minutes ahead only the
next midnight is sure to be later; any other such policy may draw an instant that has come already.
-/

namespace KeepAlive

open Time

namespace Time.Zone

theorem localSecond_fixed (offset : Int) (instant : Instant) :
    (fixed offset).localSecond instant = instant.second + offset := by
  have hsame : (fixed offset).offsetAt instant.second = offset := ite_self offset
  rw [localSecond, hsame]

theorem earliest?_fixed (offset second : Int) :
    (fixed offset).earliest? second = some ⟨second - offset, 0⟩ := by
  unfold earliest?
  by_cases h : second - (fixed offset).before < (fixed offset).change
  · exact if_pos h
  · rw [if_neg h]
    exact if_pos (Int.not_lt.1 h)

end Time.Zone

namespace Policy

theorem firstMinute_le_lastMinute (policy : Policy) :
    policy.fields.firstMinute.toNat ≤ policy.fields.lastMinute.toNat := by
  have hsound := policy.sound
  unfold Fields.flaw? at hsound
  split at hsound
  · cases hsound
  · rename_i hordered
    exact UInt32.le_iff_toNat_le.1 (UInt32.not_lt.1 hordered)

/-- Only the full range of words has no size, and it begins with zero. -/
theorem eq_zero_of_range {low high : UInt32} (h : low.toNat ≤ high.toNat)
    (hrange : (high.toNat + 1 - low.toNat) % wordCount = 0) : low.toNat = 0 := by
  have hhigh := high.toNat_lt
  simp only [wordCount] at hrange
  omega

/-- What is drawn between two bounds is not less than the lower one. -/
theorem le_between {low high : UInt32} (h : low.toNat ≤ high.toNat) (words : Words) :
    low.toNat ≤ (between low high words).1 := by
  unfold between
  simp only
  split
  · rename_i hrange
    rw [eq_zero_of_range h hrange]
    exact Nat.zero_le _
  · exact Nat.le_add_right _ _

/-- Without words the lower bound is drawn. -/
theorem between_nil {low high : UInt32} (h : low.toNat ≤ high.toNat) :
    between low high [] = (low.toNat, []) := by
  unfold between
  simp only
  split
  · rename_i hrange
    rw [eq_zero_of_range h hrange]
  · rfl

theorem wholeDays_of_isDayAligned {fields : Fields} (h : fields.isDayAligned = true) :
    fields.firstMinute.toNat % minutesPerDay = 0 ∧ fields.lastMinute.toNat % minutesPerDay = 0 := by
  simpa [Fields.isDayAligned, Fields.isWholeDays] using h

/-- A policy of whole days that does not allow zero minutes ahead is at least a day ahead. -/
theorem minutesPerDay_le_firstMinute {fields : Fields} (haligned : fields.isDayAligned = true)
    (hfirst : 1 ≤ fields.firstMinute.toNat) : minutesPerDay ≤ fields.firstMinute.toNat :=
  Nat.le_of_dvd hfirst (Nat.dvd_of_mod_eq_zero (wholeDays_of_isDayAligned haligned).1)

theorem windowStart_le_windowEnd (policy : Policy) :
    policy.fields.windowStart.toNat ≤ policy.fields.windowEnd.toNat ∧
      policy.fields.windowEnd.toNat ≤ minutesPerDay := by
  have hsound := policy.sound
  unfold Fields.flaw? at hsound
  split at hsound
  · cases hsound
  split at hsound
  · cases hsound
  rename_i hordered
  split at hsound
  · cases hsound
  rename_i hday
  exact ⟨UInt32.le_iff_toNat_le.1 (UInt32.not_lt.1 hordered), Nat.not_lt.1 hday⟩

/-- In a zone of one offset every local second has its instant. -/
theorem nextRunAfter_fixed (policy : Policy) (offset : Int) (now : Instant) (words : Words) :
    ∃ minute, policy.fields.windowStart.toNat ≤ minute ∧
      policy.nextRunAfter (.fixed offset) now words =
        let drawn :=
          now.plusMinutes (between policy.fields.firstMinute policy.fields.lastMinute words).1
        if policy.fields.isDayAligned then
          ⟨(drawn.second + offset) / secondsPerDay * secondsPerDay + 60 * (minute : Nat) - offset, 0⟩
        else drawn := by
  unfold nextRunAfter
  simp only [Zone.earliest?_fixed, Zone.localSecond_fixed]
  exact ⟨_, le_between (windowStart_le_windowEnd policy).1 _, rfl⟩

/-- Whether a policy does not allow zero minutes ahead, or is one of whole days whose only minute of
the day is the next midnight. -/
def IsAhead (policy : Policy) : Prop :=
  1 ≤ policy.fields.dateStart.toNat ∨
    (policy.fields.isDayAligned = true ∧ policy.fields.windowStart.toNat = minutesPerDay)

theorem second_lt_nextRunAfter (policy : Policy) (h : policy.IsAhead) (offset : Int)
    (now : Instant) (words : Words) :
    now.second < (policy.nextRunAfter (.fixed offset) now words).second := by
  have hahead := le_between (firstMinute_le_lastMinute policy) words
  have hdrawn (minutes : Nat) : (now.plusMinutes minutes).second = now.second + 60 * minutes := rfl
  obtain ⟨minute, hminute, hnext⟩ := nextRunAfter_fixed policy offset now words
  rw [hnext]
  simp only
  split
  · rename_i haligned
    rw [hdrawn]
    rcases h with hfirst | ⟨-, hmidnight⟩
    · have hday := minutesPerDay_le_firstMinute haligned hfirst
      simp only [minutesPerDay, secondsPerDay] at hday ⊢
      omega
    · rw [hmidnight] at hminute
      simp only [minutesPerDay, secondsPerDay] at hminute ⊢
      omega
  · rename_i haligned
    rw [hdrawn]
    rcases h with hfirst | ⟨hwhole, -⟩
    · change 1 ≤ policy.fields.firstMinute.toNat at hfirst
      omega
    · exact absurd hwhole haligned

theorem nano_nextRunAfter_lt_of_isAhead (policy : Policy) (h : policy.IsAhead) (offset : Int)
    (now : Instant) (words : Words) :
    (policy.nextRunAfter (.fixed offset) now words).nano < nanosPerSecond := by
  have hpos : 0 < nanosPerSecond := by decide
  have hahead := le_between (firstMinute_le_lastMinute policy) words
  obtain ⟨minute, -, hnext⟩ := nextRunAfter_fixed policy offset now words
  rw [hnext]
  simp only
  split
  · exact hpos
  · rename_i haligned
    have hfirst : 1 ≤ policy.fields.firstMinute.toNat := h.resolve_right fun hday => haligned hday.1
    simp only [Instant.plusMinutes]
    rw [if_neg (by omega)]
    exact Nat.mod_lt _ hpos

/-- In the last second of a day, any other policy may draw an instant of that day. -/
theorem exists_nextRunAfter_utc {policy : Policy} (h : ¬policy.IsAhead) :
    ∃ second : Nat, second ≤ 86399 ∧ policy.nextRunAfter .utc ⟨86399, 0⟩ [] = ⟨second, 0⟩ := by
  obtain ⟨hfirst, hmidnight⟩ := not_or.1 h
  have hzero : policy.fields.firstMinute.toNat = 0 := Nat.lt_one_iff.1 (Nat.not_le.1 hfirst)
  obtain ⟨hwindow, hday⟩ := windowStart_le_windowEnd policy
  unfold nextRunAfter
  simp only [between_nil (firstMinute_le_lastMinute policy), between_nil hwindow, hzero, Zone.utc,
    Zone.earliest?_fixed, Zone.localSecond_fixed]
  split
  · rename_i haligned
    have hearlier : policy.fields.windowStart.toNat ≠ minutesPerDay :=
      fun heq => hmidnight ⟨haligned, heq⟩
    refine ⟨60 * policy.fields.windowStart.toNat, ?_, ?_⟩
    · simp only [minutesPerDay] at hearlier hday
      omega
    · simp [Instant.plusMinutes, secondsPerDay]
  · exact ⟨86399, Nat.le_refl _, rfl⟩

/-- A drawn run never falls into a leap second, unless the present one is one. -/
theorem nano_nextRunAfter_lt (policy : Policy) (zone : Zone) {now : Instant}
    (hnow : now.nano < nanosPerSecond) (words : Words) :
    (policy.nextRunAfter zone now words).nano < nanosPerSecond := by
  have hdrawn (minutes : Nat) : (now.plusMinutes minutes).nano < nanosPerSecond := by
    simp only [Instant.plusMinutes]
    split
    · exact hnow
    · exact Nat.mod_lt _ (by decide)
  have hearliest (second : Int) (instant : Instant) (h : zone.earliest? second = some instant) :
      instant.nano < nanosPerSecond := by
    have hzero : 0 < nanosPerSecond := by decide
    unfold Zone.earliest? at h
    split at h
    · cases h
      exact hzero
    · split at h
      · cases h
        exact hzero
      · cases h
  unfold nextRunAfter
  simp only
  split
  · generalize hwanted : (zone.localSecond (now.plusMinutes _) / secondsPerDay * secondsPerDay +
      60 * _ : Int) = wanted
    cases hfirst : zone.earliest? wanted with
    | some instant => exact hearliest wanted instant hfirst
    | none =>
      cases hsecond : zone.earliest? (wanted + secondsPerHour) with
      | some instant => exact hearliest _ instant hsecond
      | none => exact hdrawn _
  · exact hdrawn _

end Policy

end KeepAlive
