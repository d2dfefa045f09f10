import KeepAlive.Proofs.Policy.Setback

/-!
# Clocks that are set forward

A policy of whole days draws a local time.  If the clocks show it, the run is the first instant at
which they do.  When the clocks are set forward they skip some local times, and a run that is drawn
there is moved on by an hour.  That leads past the gap if the gap ends within the hour; from further
back it does not, and the run is left at the minutes ahead, at a time of the day that has nothing to do
with the window.
-/

namespace KeepAlive

open Time

theorem Time.Instant.plusMinutes_zero (instant : Instant) : instant.plusMinutes 0 = instant := by
  simp [Instant.plusMinutes]

namespace Time.Zone

variable {zone : Zone}

/-- Whether the clocks show the local time, to the second, at the instant. -/
def Shows (zone : Zone) (second : Int) (instant : Instant) : Prop :=
  zone.localSecond instant = second ∧ instant.nano = 0

/-- Whether the clocks skip the local time at the change. -/
def Skips (zone : Zone) (second : Int) : Prop :=
  zone.change + zone.before ≤ second ∧ second < zone.change + zone.after

/-- Whether the instant is the first one at which the clocks show the local time. -/
structure IsEarliest (zone : Zone) (second : Int) (instant : Instant) : Prop where
  shows : zone.Shows second instant
  first : ∀ other, zone.Shows second other → instant.isUpTo other = true

theorem localSecond_of_lt {instant : Instant} (h : instant.second < zone.change) :
    zone.localSecond instant = instant.second + zone.before := by
  rw [localSecond, offsetAt, if_pos h]

theorem localSecond_of_le {instant : Instant} (h : zone.change ≤ instant.second) :
    zone.localSecond instant = instant.second + zone.after := by
  rw [localSecond, offsetAt, if_neg (Int.not_lt.2 h)]

/-- An instant that shows a local time lies before the change by the clocks before it, or not before
the change by those after it. -/
theorem Shows.cases {second : Int} {instant : Instant} (h : zone.Shows second instant) :
    (instant.second < zone.change ∧ instant.second = second - zone.before) ∨
      (zone.change ≤ instant.second ∧ instant.second = second - zone.after) := by
  obtain ⟨hsecond, -⟩ := h
  rcases Int.lt_or_le instant.second zone.change with hbefore | hafter
  · rw [localSecond_of_lt hbefore] at hsecond
    exact Or.inl ⟨hbefore, by omega⟩
  · rw [localSecond_of_le hafter] at hsecond
    exact Or.inr ⟨hafter, by omega⟩

theorem Shows.not_skips {second : Int} {instant : Instant} (h : zone.Shows second instant) :
    ¬zone.Skips second := by
  rintro ⟨hfrom, hupTo⟩
  rcases h.cases with ⟨hbefore, hinstant⟩ | ⟨hafter, hinstant⟩ <;> omega

theorem Skips.earliest?_eq_none {second : Int} (h : zone.Skips second) :
    zone.earliest? second = none := by
  obtain ⟨hfrom, hupTo⟩ := h
  rw [earliest?, if_neg (by omega), if_neg (by omega)]

/-- A local time that is not skipped has its first instant. -/
theorem exists_isEarliest {second : Int} (h : ¬zone.Skips second) :
    ∃ instant, zone.earliest? second = some instant ∧ zone.IsEarliest second instant := by
  have hskips : zone.change + zone.before ≤ second → zone.change + zone.after ≤ second := by
    intro hfrom
    exact Int.not_lt.1 fun hupTo => h ⟨hfrom, hupTo⟩
  by_cases hbefore : second - zone.before < zone.change
  · refine ⟨⟨second - zone.before, 0⟩, if_pos hbefore, ⟨?_, rfl⟩, ?_⟩
    · rw [localSecond_of_lt hbefore]
      exact Int.sub_add_cancel _ _
    · intro other hother
      rw [Instant.isUpTo_iff]
      rcases hother.cases with ⟨-, hinstant⟩ | ⟨hlater, -⟩
      · exact Or.inr ⟨hinstant.symm, Nat.zero_le _⟩
      · exact Or.inl (Int.lt_of_lt_of_le hbefore hlater)
  · have hafter : zone.change ≤ second - zone.after := by omega
    refine ⟨⟨second - zone.after, 0⟩, ?_, ⟨?_, rfl⟩, ?_⟩
    · rw [earliest?, if_neg hbefore, if_pos hafter]
    · rw [localSecond_of_le hafter]
      exact Int.sub_add_cancel _ _
    · intro other hother
      rw [Instant.isUpTo_iff]
      rcases hother.cases with ⟨hearlier, hinstant⟩ | ⟨-, hinstant⟩
      · omega
      · exact Or.inr ⟨hinstant.symm, Nat.zero_le _⟩

/-- The clocks show a local time unless they skip it. -/
theorem exists_shows_iff {second : Int} :
    (∃ instant, zone.Shows second instant) ↔ ¬zone.Skips second := by
  constructor
  · rintro ⟨instant, hshows⟩
    exact hshows.not_skips
  · intro h
    obtain ⟨instant, -, hearliest⟩ := exists_isEarliest h
    exact ⟨instant, hearliest.shows⟩

/-- Whether the clocks show at the instant a local time past the gap, which is later than the given one
by no more than the length of the gap and an hour. -/
structure IsMovedPast (zone : Zone) (second : Int) (instant : Instant) : Prop where
  past : zone.change + zone.after ≤ zone.localSecond instant
  near : zone.localSecond instant ≤
    second + (zone.after - zone.before) + Policy.secondsPerHour

/-- Whether the gap ends within an hour of every whole minute that is skipped. -/
def EndsWithinHour (zone : Zone) : Prop :=
  ∀ minute : Int, zone.Skips (60 * minute) →
    zone.change + zone.after ≤ 60 * minute + Policy.secondsPerHour

theorem endsWithinHour_of_le (h : zone.after - zone.before ≤ Policy.secondsPerHour) :
    zone.EndsWithinHour := by
  rintro minute ⟨hfrom, -⟩
  omega

end Time.Zone

namespace Policy

/-- The minutes ahead and the minute of the day that are drawn with the words. -/
def drawnNumbers (policy : Policy) (words : Words) : Nat × Nat :=
  let (ahead, rest) := between policy.fields.firstMinute policy.fields.lastMinute words
  (ahead, (between policy.fields.windowStart policy.fields.windowEnd rest).1)

/-- The local time that is drawn: the minute of the day on the day that the calendar shows the minutes
ahead. -/
def wantedSecond (policy : Policy) (zone : Zone) (now : Instant) (words : Words) : Int :=
  zone.localDay (now.plusMinutes (policy.drawnNumbers words).1) * secondsPerDay +
    60 * (policy.drawnNumbers words).2

variable {policy : Policy} {zone : Zone}

theorem nextRunAfter_of_isDayAligned (haligned : policy.fields.isDayAligned = true) (zone : Zone)
    (now : Instant) (words : Words) :
    policy.nextRunAfter zone now words =
      ((zone.earliest? (policy.wantedSecond zone now words)) <|>
        (zone.earliest? (policy.wantedSecond zone now words + secondsPerHour))).getD
          (now.plusMinutes (policy.drawnNumbers words).1) := by
  rw [nextRunAfter_eq_runOf]
  exact if_pos haligned

theorem wantedSecond_eq_minutes (policy : Policy) (zone : Zone) (now : Instant) (words : Words) :
    ∃ minute : Int, policy.wantedSecond zone now words = 60 * minute := by
  refine ⟨zone.localDay (now.plusMinutes (policy.drawnNumbers words).1) * 1440 +
    (policy.drawnNumbers words).2, ?_⟩
  simp only [wantedSecond, secondsPerDay]
  omega

/-- A local time that the clocks show is kept. -/
theorem isEarliest_nextRunAfter (haligned : policy.fields.isDayAligned = true) (now : Instant)
    (words : Words) (h : ¬zone.Skips (policy.wantedSecond zone now words)) :
    zone.IsEarliest (policy.wantedSecond zone now words) (policy.nextRunAfter zone now words) := by
  obtain ⟨instant, hfound, hearliest⟩ := Zone.exists_isEarliest h
  rw [nextRunAfter_of_isDayAligned haligned, hfound]
  exact hearliest

/-- A local time that is skipped within an hour before the end of the gap is moved past it. -/
theorem isMovedPast_nextRunAfter (haligned : policy.fields.isDayAligned = true) (now : Instant)
    (words : Words) (h : zone.Skips (policy.wantedSecond zone now words))
    (hend : zone.change + zone.after ≤ policy.wantedSecond zone now words + secondsPerHour) :
    zone.IsMovedPast (policy.wantedSecond zone now words) (policy.nextRunAfter zone now words) := by
  have hlater : ¬zone.Skips (policy.wantedSecond zone now words + secondsPerHour) := by
    rintro ⟨-, hupTo⟩
    omega
  obtain ⟨instant, hfound, hearliest⟩ := Zone.exists_isEarliest hlater
  obtain ⟨hshown, -⟩ := hearliest.shows
  rw [nextRunAfter_of_isDayAligned haligned, h.earliest?_eq_none, hfound]
  change zone.IsMovedPast _ instant
  obtain ⟨hfrom, hupTo⟩ := h
  constructor
  · rw [hshown]
    exact hend
  · rw [hshown]
    omega

/-- A local time that is skipped longer before the end of the gap is given up. -/
theorem nextRunAfter_of_skips (haligned : policy.fields.isDayAligned = true) (now : Instant)
    (words : Words) (h : zone.Skips (policy.wantedSecond zone now words))
    (hend : policy.wantedSecond zone now words + secondsPerHour < zone.change + zone.after) :
    policy.nextRunAfter zone now words = now.plusMinutes (policy.drawnNumbers words).1 := by
  have hhour : (0 : Int) ≤ secondsPerHour := by decide
  have hlater : zone.Skips (policy.wantedSecond zone now words + secondsPerHour) :=
    ⟨Int.le_trans h.1 (Int.le_add_of_nonneg_right hhour), hend⟩
  rw [nextRunAfter_of_isDayAligned haligned, h.earliest?_eq_none, hlater.earliest?_eq_none]
  rfl

/-- The policy of a login today at one minute of the day. -/
def atMinute (minute : UInt32) (h : minute.toNat ≤ minutesPerDay) : Policy where
  fields := { dateStart := 0, timeStart := some minute, timeEnd := some minute }
  sound := by
    have hday : ¬minutesPerDay < minute.toNat := Nat.not_lt.2 h
    have hzero : Fields.isWholeDays 0 = true := rfl
    simp [Fields.flaw?, Fields.lastMinute, Fields.firstMinute, Fields.windowStart, Fields.windowEnd,
      hday, hzero]

/-- In the last second before the change, the first whole minute that is skipped is drawn by some
policy, and given up if the gap goes on for more than an hour. -/
theorem exists_left_before_gap {minute : Int} (h : zone.Skips (60 * minute))
    (hend : 60 * minute + secondsPerHour < zone.change + zone.after) :
    ∃ policy : Policy, policy.fields.isDayAligned = true ∧ ∃ (now : Instant) (words : Words),
      zone.Skips (policy.wantedSecond zone now words) ∧
        zone.localSecond (policy.nextRunAfter zone now words) < zone.change + zone.before := by
  obtain ⟨hfrom, hupTo⟩ := h
  obtain ⟨now, hnow⟩ : ∃ now : Instant, now = ⟨zone.change - 1, 0⟩ := ⟨_, rfl⟩
  have hlocal : zone.localSecond now = zone.change - 1 + zone.before := by
    have hbefore : now.second < zone.change := by
      rw [hnow]
      exact Int.sub_one_lt_of_le (Int.le_refl _)
    rw [Zone.localSecond_of_lt hbefore, hnow]
  obtain ⟨first, hfirst⟩ : ∃ first : Int, first = (zone.change + zone.before + 59) / 60 := ⟨_, rfl⟩
  obtain ⟨place, hplace⟩ : ∃ place : Nat, (place : Int) = first - 1440 * zone.localDay now := by
    refine ⟨(first - 1440 * zone.localDay now).toNat, Int.toNat_of_nonneg ?_⟩
    rw [Zone.localDay, hlocal, secondsPerDay]
    omega
  have hday : place ≤ minutesPerDay := by
    rw [Zone.localDay, hlocal, secondsPerDay] at hplace
    rw [minutesPerDay]
    omega
  have hword : (UInt32.ofNat place).toNat = place :=
    UInt32.toNat_ofNat_of_lt' (Nat.lt_of_le_of_lt hday (by decide))
  let policy : Policy := atMinute (UInt32.ofNat place) (by rw [hword]; exact hday)
  have haligned : policy.fields.isDayAligned = true := rfl
  have hnumbers : policy.drawnNumbers [] = (0, place) := by
    have hwindow := between_nil (Nat.le_refl (UInt32.ofNat place).toNat)
    rw [hword] at hwindow
    simp only [drawnNumbers, between_nil (firstMinute_le_lastMinute policy)]
    exact Prod.ext rfl (congrArg Prod.fst hwindow)
  have hwanted : policy.wantedSecond zone now [] = 60 * first := by
    rw [wantedSecond, hnumbers, Instant.plusMinutes_zero, secondsPerDay]
    omega
  have hskips : zone.Skips (policy.wantedSecond zone now []) := by
    rw [hwanted]
    constructor <;> omega
  refine ⟨policy, haligned, now, [], hskips, ?_⟩
  rw [nextRunAfter_of_skips haligned now [] hskips (by rw [hwanted]; omega), hnumbers,
    Instant.plusMinutes_zero, hlocal]
  omega

/-- Whether a drawing keeps a local time that the clocks show, at its first instant, and moves one that
they skip past the gap. -/
structure KeepsOrMoves (policy : Policy) (zone : Zone) (now : Instant) (words : Words) : Prop where
  kept : (∃ instant, zone.Shows (policy.wantedSecond zone now words) instant) →
    zone.IsEarliest (policy.wantedSecond zone now words) (policy.nextRunAfter zone now words)
  moved : zone.Skips (policy.wantedSecond zone now words) →
    zone.IsMovedPast (policy.wantedSecond zone now words) (policy.nextRunAfter zone now words)

/-- A policy of whole days keeps a local time that the clocks show.  One that they skip is moved past
the gap if this ends within an hour, and else given up for the minutes ahead.  So all drawings move
what is skipped past the gap exactly if the gap ends within an hour of every minute in it. -/
theorem keepsOrMoves_iff_endsWithinHour (zone : Zone) :
    (∀ policy : Policy, policy.fields.isDayAligned = true → ∀ (now : Instant) (words : Words),
      let wanted := policy.wantedSecond zone now words
      let run := policy.nextRunAfter zone now words
      ((∃ instant, zone.Shows wanted instant) ↔ ¬zone.Skips wanted) ∧
      ((∃ instant, zone.Shows wanted instant) → zone.IsEarliest wanted run) ∧
      (zone.Skips wanted →
        (zone.change + zone.after ≤ wanted + secondsPerHour → zone.IsMovedPast wanted run) ∧
        (wanted + secondsPerHour < zone.change + zone.after →
          run = now.plusMinutes (policy.drawnNumbers words).1))) ∧
    ((∀ policy : Policy, policy.fields.isDayAligned = true → ∀ (now : Instant) (words : Words),
      policy.KeepsOrMoves zone now words) ↔ zone.EndsWithinHour) := by
  refine ⟨fun policy haligned now words => ⟨Zone.exists_shows_iff, fun hshown => ?_, fun hskips =>
    ⟨isMovedPast_nextRunAfter haligned now words hskips,
      nextRunAfter_of_skips haligned now words hskips⟩⟩, ?_, ?_⟩
  · exact isEarliest_nextRunAfter haligned now words (Zone.exists_shows_iff.1 hshown)
  · intro hall minute hskips
    refine Int.not_lt.1 fun hend => ?_
    obtain ⟨policy, haligned, now, words, hwanted, hleft⟩ := exists_left_before_gap hskips hend
    have hpast := ((hall policy haligned now words).moved hwanted).past
    obtain ⟨hfrom, hupTo⟩ := hskips
    omega
  · intro hends policy haligned now words
    refine ⟨fun hshown => isEarliest_nextRunAfter haligned now words
      (Zone.exists_shows_iff.1 hshown), fun hskips => ?_⟩
    obtain ⟨minute, hminute⟩ := policy.wantedSecond_eq_minutes zone now words
    refine isMovedPast_nextRunAfter haligned now words hskips ?_
    rw [hminute] at hskips ⊢
    exact hends minute hskips

/-- In the night in which the clocks are set forward from two to three, half past two is drawn, and
moved to half past three. -/
theorem moved_past_gap_of_hour :
    let policy : Policy :=
      ⟨{ dateStart := 1440, timeStart := some 150, timeEnd := some 150 }, by decide⟩
    let zone : Zone := { change := 1774746000, before := 3600, after := 7200 }
    let now : Instant := ⟨1774653000, 0⟩
    policy.fields.isDayAligned = true ∧ zone.EndsWithinHour ∧
      zone.Skips (policy.wantedSecond zone now []) ∧
      policy.nextRunAfter zone now [] = ⟨1774746000 + 1800, 0⟩ ∧
      zone.IsMovedPast (policy.wantedSecond zone now []) (policy.nextRunAfter zone now []) := by
  intro policy zone now
  have haligned : policy.fields.isDayAligned = true := by decide
  have hends : zone.EndsWithinHour := Zone.endsWithinHour_of_le (by decide)
  have hskips : zone.Skips (policy.wantedSecond zone now []) := ⟨by decide, by decide⟩
  have hkeeps := (keepsOrMoves_iff_endsWithinHour zone).2.2 hends policy haligned now []
  exact ⟨haligned, hends, hskips, by decide, hkeeps.moved hskips⟩

/-- When the clocks are set forward from one to three, twenty past one is drawn, and the run is left at
ten past midnight. -/
theorem left_before_gap_of_two_hours :
    let policy : Policy :=
      ⟨{ dateStart := 1440, timeStart := some 80, timeEnd := some 80 }, by decide⟩
    let zone : Zone := { change := 1774746000, before := 0, after := 7200 }
    let now : Instant := ⟨1774656600, 0⟩
    policy.fields.isDayAligned = true ∧ zone.ChangesByLessThanDay ∧
      zone.Skips (policy.wantedSecond zone now []) ∧
      policy.nextRunAfter zone now [] = ⟨1774743000, 0⟩ ∧
      zone.localSecond (policy.nextRunAfter zone now []) < zone.change + zone.before ∧
      ¬policy.KeepsOrMoves zone now [] := by
  intro policy zone now
  have hskips : zone.Skips (policy.wantedSecond zone now []) := ⟨by decide, by decide⟩
  have hleft : zone.localSecond (policy.nextRunAfter zone now []) < zone.change + zone.before := by
    decide
  refine ⟨by decide, ⟨by decide, by decide⟩, hskips, by decide, hleft, fun hkeeps => ?_⟩
  have hpast := (hkeeps.moved hskips).past
  have hgap : zone.change + zone.before < zone.change + zone.after := by decide
  omega

end Policy

end KeepAlive
