import KeepAlive.Proofs.Time.Reading

/-!
# Years of the calendar

A year is the days from its first of January up to the next one.  So an instant has a year of four
digits when it lies between two bounds.
-/

namespace KeepAlive.Time

/-- The day on which a year begins. -/
def newYear (year : Int) : Int :=
  Date.toDays ⟨year, 1, 1⟩

theorem newYear_eq (year : Int) : newYear year = marchFirst (year - 1) + 306 := by
  have hmonths : daysBeforeMonth ((1 + 9) % 12) + 1 = 307 := by decide
  rw [newYear, Date.toDays, if_pos (by decide : 1 ≤ 2), hmonths]
  dsimp only
  omega

theorem newYear_mono {year later : Int} (h : year ≤ later) : newYear year ≤ newYear later := by
  rw [newYear_eq, newYear_eq, marchFirst, marchFirst]
  omega

/-- A date lies in its year: the months after February belong to the year in which the year counted
from March begins. -/
theorem newYear_year_ofDays (days : Int) :
    newYear (Date.ofDays days).year ≤ days ∧ days < newYear ((Date.ofDays days).year + 1) := by
  unfold Date.ofDays
  extract_lets shifted era dayOfEra yearOfEra dayOfYear monthFromMarch month
  have hshifted : 146097 * era + dayOfEra = days + 719468 := by omega
  obtain ⟨hyear, hlow, hhigh⟩ := @dayOfYear_bounds dayOfEra _ (by omega) rfl
  change yearOfEra < 400 at hyear
  change 365 * yearOfEra + yearOfEra / 4 - yearOfEra / 100 ≤ dayOfEra at hlow
  change dayOfEra ≤ 365 * yearOfEra + yearOfEra / 4 - yearOfEra / 100 + 365 at hhigh
  have hmarch := @marchFirst_era era yearOfEra hyear
  have hdays : days = marchFirst (era * 400 + yearOfEra) + dayOfYear := by omega
  generalize era * 400 + yearOfEra = year at hmarch hdays ⊢
  have hdayOfYear : dayOfYear ≤ 365 := by omega
  have hbefore : marchFirst (year - 1) + 306 ≤ marchFirst year := by
    simp only [marchFirst]
    omega
  have hafter : marchFirst year + 365 ≤ marchFirst (year + 1) := by
    simp only [marchFirst]
    omega
  rcases Nat.lt_or_ge monthFromMarch 10 with h | h
  · have hmonth : ¬month ≤ 2 := by
      simp only [month, if_pos h]
      omega
    rw [if_neg hmonth, newYear_eq, newYear_eq]
    simp only [Int.add_zero, Int.add_sub_cancel]
    omega
  · have hmonth : month ≤ 2 := by
      simp only [month, if_neg (Nat.not_lt.2 h)]
      omega
    rw [if_pos hmonth, newYear_eq, newYear_eq]
    simp only [Int.add_sub_cancel]
    omega

theorem year_ofDays_lt_iff (days year : Int) :
    (Date.ofDays days).year < year ↔ days < newYear year := by
  obtain ⟨hfrom, hupTo⟩ := newYear_year_ofDays days
  constructor
  · intro h
    exact Int.lt_of_lt_of_le hupTo (newYear_mono h)
  · intro h
    refine Int.not_le.1 fun hle => ?_
    have hmono := newYear_mono hle
    omega

namespace Instant

theorem year_lt_iff (instant : Instant) (year : Int) :
    instant.year < year ↔ instant.second < newYear year * secondsPerDay := by
  rw [Instant.year, year_ofDays_lt_iff]
  simp only [secondsPerDay]
  omega

theorem hasPlainYear_iff (instant : Instant) :
    instant.HasPlainYear ↔
      newYear 0 * secondsPerDay ≤ instant.second ∧ instant.second < newYear 10000 * secondsPerDay := by
  have hfirst := instant.year_lt_iff 0
  have hlast := instant.year_lt_iff 10000
  rw [HasPlainYear]
  omega

end Instant

end KeepAlive.Time
