import KeepAlive.Moment
import KeepAlive.Proofs.Policy.Sampling
import KeepAlive.Proofs.Time.Years

/-!
# How far ahead a run can be drawn

Whatever the zone, a run lies within a few days of the minutes ahead that were drawn for it, and the
largest number of minutes that a policy allows can be drawn.  The numbers go up to some eight thousand
years, so that a sound policy may put a run beyond the years that can be stored and read back.
-/

namespace KeepAlive

open Time

namespace Time.Zone

/-- The offsets of a zone are shorter than a day. -/
structure IsShort (zone : Zone) : Prop where
  before : -(secondsPerDay : Int) < zone.before ∧ zone.before < secondsPerDay
  after : -(secondsPerDay : Int) < zone.after ∧ zone.after < secondsPerDay

theorem isShort_utc : IsShort .utc := by
  constructor <;> decide

variable {zone : Zone}

theorem IsShort.offsetAt (h : zone.IsShort) (second : Int) :
    -(secondsPerDay : Int) < zone.offsetAt second ∧ zone.offsetAt second < secondsPerDay := by
  unfold Zone.offsetAt
  split
  · exact h.before
  · exact h.after

theorem IsShort.earliest? (h : zone.IsShort) {second : Int} {instant : Instant}
    (hfound : zone.earliest? second = some instant) :
    second - secondsPerDay < instant.second ∧ instant.second < second + secondsPerDay := by
  obtain ⟨hbefore, hafter⟩ := h
  unfold Zone.earliest? at hfound
  split at hfound
  · cases hfound
    constructor <;> dsimp only <;> omega
  · split at hfound
    · cases hfound
      constructor <;> dsimp only <;> omega
    · cases hfound

/-- A local time that is moved on when it does not exist, and given up for another instant when that
does not help. -/
theorem IsShort.earliest_or_later (h : zone.IsShort) (second : Int) (instead : Instant) :
    let instant := ((zone.earliest? second) <|>
      (zone.earliest? (second + Policy.secondsPerHour))).getD instead
    instant = instead ∨ second - secondsPerDay < instant.second ∧
      instant.second < second + Policy.secondsPerHour + secondsPerDay := by
  have hhour : (0 : Int) ≤ Policy.secondsPerHour := by decide
  cases hfirst : zone.earliest? second with
  | some instant =>
    have hfound := h.earliest? hfirst
    right
    change _ < instant.second ∧ instant.second < _
    omega
  | none =>
    cases hsecond : zone.earliest? (second + Policy.secondsPerHour) with
    | some instant =>
      have hfound := h.earliest? hsecond
      right
      change _ < instant.second ∧ instant.second < _
      omega
    | none => exact Or.inl rfl

end Time.Zone

namespace Policy

/-- A run lies within four days of the minutes ahead that are drawn for it. -/
theorem nextRunAfter_bounds (policy : Policy) {zone : Zone} (hzone : zone.IsShort) (now : Instant)
    (words : Words) :
    ∃ ahead : Nat, ahead ≤ policy.fields.lastMinute.toNat ∧
      now.second + 60 * ahead - 4 * secondsPerDay < (policy.nextRunAfter zone now words).second ∧
      (policy.nextRunAfter zone now words).second < now.second + 60 * ahead + 4 * secondsPerDay := by
  refine ⟨_, between_le (firstMinute_le_lastMinute policy) words, ?_⟩
  unfold nextRunAfter
  generalize between policy.fields.firstMinute policy.fields.lastMinute words = drawing
  obtain ⟨ahead, rest⟩ := drawing
  simp only
  have hdrawn : (now.plusMinutes ahead).second = now.second + 60 * ahead := rfl
  generalize now.plusMinutes ahead = drawn at hdrawn ⊢
  have hminute := between_le (windowStart_le_windowEnd policy).1 rest
  have hday := (windowStart_le_windowEnd policy).2
  generalize (between policy.fields.windowStart policy.fields.windowEnd rest).1 = minute at hminute ⊢
  have hoffset := hzone.offsetAt drawn.second
  have hlocal : zone.localSecond drawn = drawn.second + zone.offsetAt drawn.second := rfl
  split
  · -- Local midnight is up to a day earlier, the window ends up to a day later, and the offsets on the
    -- way to local time and back may differ by almost two days.
    obtain ⟨wanted, hwanted⟩ : ∃ wanted, wanted =
        zone.localSecond drawn / secondsPerDay * secondsPerDay + 60 * (minute : Int) := ⟨_, rfl⟩
    rw [← hwanted]
    simp only [minutesPerDay, secondsPerDay] at hday hwanted hoffset ⊢
    rcases hzone.earliest_or_later wanted drawn with hsame | hshown
    · rw [hsame]
      omega
    · simp only [secondsPerDay, secondsPerHour] at hshown ⊢
      omega
  · simp only [secondsPerDay]
    omega

end Policy

/-- The clock shows one of the years from 2000 to 2100 and no leap second. -/
structure Moment.IsOfEra (moment : Moment) : Prop where
  nano : moment.now.nano < nanosPerSecond
  year : 2000 ≤ moment.now.year ∧ moment.now.year ≤ 2100
  zone : moment.zone.IsShort

theorem Moment.IsOfEra.second {moment : Moment} (h : moment.IsOfEra) :
    newYear 2000 * secondsPerDay ≤ moment.now.second ∧
      moment.now.second < newYear 2101 * secondsPerDay := by
  have hfirst := moment.now.year_lt_iff 2000
  have hlast := moment.now.year_lt_iff 2101
  obtain ⟨hfrom, hupTo⟩ := h.year
  omega

theorem Moment.IsOfEra.hasPlainYear {moment : Moment} (h : moment.IsOfEra) :
    moment.now.HasPlainYear := by
  obtain ⟨hfrom, hupTo⟩ := h.year
  constructor <;> omega

namespace Policy

/-- Whenever a run is drawn in the years from 2000 to 2100, its year has four digits. -/
def StaysPlain (policy : Policy) : Prop :=
  ∀ moment : Moment, moment.IsOfEra → (policy.drawAt moment).HasPlainYear

/-- The minutes from the end of the year 2100 to the end of the year 9999. -/
def minutesLeft : Nat :=
  (newYear 10000 - newYear 2101).toNat * minutesPerDay

theorem staysPlain_of_le {policy : Policy}
    (h : policy.fields.lastMinute.toNat + 4 * minutesPerDay ≤ minutesLeft) : policy.StaysPlain := by
  intro moment hera
  obtain ⟨ahead, hahead, hlower, hupper⟩ :=
    policy.nextRunAfter_bounds hera.zone moment.now moment.words
  obtain ⟨hfrom, hupTo⟩ := hera.second
  rw [drawAt, Instant.hasPlainYear_iff]
  have h0 : newYear 0 = -719528 := by decide
  have h2000 : newYear 2000 = 10957 := by decide
  have h2101 : newYear 2101 = 47847 := by decide
  have h10000 : newYear 10000 = 2932897 := by decide
  rw [h2000] at hfrom
  rw [h2101] at hupTo
  rw [h0, h10000]
  rw [minutesLeft, h2101, h10000] at h
  simp only [minutesPerDay, secondsPerDay] at *
  omega

/-- In the last second of the year 2100 a run can be drawn beyond the year 9999. -/
theorem not_staysPlain_of_lt {policy : Policy}
    (h : minutesLeft < policy.fields.lastMinute.toNat) : ¬policy.StaysPlain := by
  intro hplain
  obtain ⟨word, hword⟩ := exists_between_eq (firstMinute_le_lastMinute policy) (Nat.le_refl _)
  obtain ⟨now, hnow⟩ : ∃ now : Instant, now = ⟨newYear 2101 * secondsPerDay - 1, 0⟩ := ⟨_, rfl⟩
  have hera : Moment.IsOfEra ⟨now, .utc, [word]⟩ := by
    have hclock : now.nano < nanosPerSecond ∧ 2000 ≤ now.year ∧ now.year ≤ 2100 := by
      rw [hnow]
      decide
    exact ⟨hclock.1, hclock.2, Zone.isShort_utc⟩
  obtain ⟨minute, -, hnext⟩ := policy.nextRunAfter_fixed 0 now [word]
  have hdrawn : policy.drawAt ⟨now, .utc, [word]⟩ = _ := hnext
  have hyear := ((Instant.hasPlainYear_iff _).1 (hplain _ hera)).2
  rw [hdrawn, hword] at hyear
  have hsecond : now.second = 47847 * 86400 - 1 := by
    rw [hnow]
    decide
  have h10000 : newYear 10000 = 2932897 := by decide
  have hleft : minutesLeft = 2885050 * 1440 := by decide
  rw [h10000] at hyear
  rw [hleft] at h
  simp only [secondsPerDay, Instant.plusMinutes, hsecond] at hyear
  split at hyear
  · -- The run is put back to midnight, but whole days ahead there is a day to spare.
    rename_i haligned
    have hwhole := (wholeDays_of_isDayAligned haligned).2
    simp only [minutesPerDay] at hwhole
    dsimp only at hyear
    omega
  · dsimp only at hyear
    omega

end Policy

end KeepAlive
