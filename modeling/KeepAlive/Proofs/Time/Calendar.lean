import KeepAlive.Time.Civil

/-!
# Days of the calendar

Every number of a day has a date, the calendar has that date, and the date has that number.  An era
of 400 years is cut into centuries, the centuries into blocks of four years, and a block into years.
-/

namespace KeepAlive.Time

/-- The number of a year in its era, from the number of a day in the era. -/
theorem yearOfEra_eq {century block rest : Nat} (hcentury : century ≤ 3)
    (hday : 1461 * block + rest < 36524) (hrest : rest < 1461) :
    let day := 36524 * century + (1461 * block + rest)
    (day - day / 1460 + day / 36524 - day / 146096) / 365 =
      100 * century + 4 * block + min (rest / 365) 3 := by
  intro day
  have h1 : day / 36524 = century := by omega
  have h2 : day / 146096 = 0 := by omega
  obtain ⟨late, hlate, h3⟩ : ∃ late, late ≤ 1 ∧ day / 1460 = 25 * century + block + late := by
    refine ⟨(24 * century + block + rest) / 1460, ?_, ?_⟩ <;> omega
  rw [h1, h2]
  omega

/-- The days of an era before its year and the day in that year make up the day in the era. -/
theorem dayOfYear_bounds {day year : Nat} (hday : day < 146097)
    (hyear : year = (day - day / 1460 + day / 36524 - day / 146096) / 365) :
    year < 400 ∧ 365 * year + year / 4 - year / 100 ≤ day ∧
      day ≤ 365 * year + year / 4 - year / 100 + 365 := by
  by_cases hlast : day = 146096
  · subst hlast
    subst hyear
    decide
  · obtain ⟨century, block, rest, hcentury, hblock, hrest, rfl⟩ : ∃ century block rest,
        century ≤ 3 ∧ 1461 * block + rest < 36524 ∧ rest < 1461 ∧
          day = 36524 * century + (1461 * block + rest) :=
      ⟨day / 36524, day % 36524 / 1461, day % 36524 % 1461, by omega⟩
    rw [yearOfEra_eq hcentury hblock hrest] at hyear
    have hquarter : year / 4 = 25 * century + block := by omega
    have hhundredth : year / 100 = century := by omega
    rw [hquarter, hhundredth]
    omega

/-- A year of an era that has a 366th day, counted from March, is followed by a leap year. -/
theorem isLeap_of_lastDay {day year : Nat} (hday : day < 146097)
    (hyear : year = (day - day / 1460 + day / 36524 - day / 146096) / 365)
    (hlast : day = 365 * year + year / 4 - year / 100 + 365) :
    (year + 1) % 4 = 0 ∧ ((year + 1) % 100 ≠ 0 ∨ (year + 1) % 400 = 0) := by
  by_cases hend : day = 146096
  · subst hend
    subst hyear
    decide
  · obtain ⟨century, block, rest, hcentury, hblock, hrest, rfl⟩ : ∃ century block rest,
        century ≤ 3 ∧ 1461 * block + rest < 36524 ∧ rest < 1461 ∧
          day = 36524 * century + (1461 * block + rest) :=
      ⟨day / 36524, day % 36524 / 1461, day % 36524 % 1461, by omega⟩
    rw [yearOfEra_eq hcentury hblock hrest] at hyear
    have hquarter : year / 4 = 25 * century + block := by omega
    have hhundredth : year / 100 = century := by omega
    rw [hquarter, hhundredth] at hlast
    have hfourth : year = 100 * century + 4 * block + 3 := by omega
    have hblock' : block < 24 := by omega
    omega

/-- Month and day of the month for the days of a year, counted from March. -/
theorem dayOfMonth_bounds : ∀ dayOfYear < 366,
    let monthFromMarch := (5 * dayOfYear + 2) / 153
    let month := if monthFromMarch < 10 then monthFromMarch + 3 else monthFromMarch - 9
    1 ≤ month ∧ month ≤ 12 ∧
      dayOfYear - daysBeforeMonth monthFromMarch + 1 ≤
        if month = 2 then if dayOfYear = 365 then 29 else 28
        else if month = 4 || month = 6 || month = 9 || month = 11 then 30 else 31 := by
  decide +kernel

theorem daysBeforeMonth_le {dayOfYear : Nat} :
    daysBeforeMonth ((5 * dayOfYear + 2) / 153) ≤ dayOfYear := by
  unfold daysBeforeMonth
  omega

theorem marchFirst_era {era : Int} {year : Nat} (h : year < 400) :
    marchFirst (era * 400 + year) =
      146097 * era + (365 * year + year / 4 - year / 100 : Nat) - 719468 := by
  have hquarter : (era * 400 + year) / 4 = era * 100 + year / 4 := by omega
  have hhundredth : (era * 400 + year) / 100 = era * 4 + year / 100 := by omega
  have hera : (era * 400 + year) / 400 = era := by omega
  rw [marchFirst, hquarter, hhundredth, hera]
  omega

namespace Date

theorem toDays_ofDays (days : Int) : (Date.ofDays days).toDays = days := by
  unfold Date.ofDays
  extract_lets shifted era dayOfEra yearOfEra dayOfYear monthFromMarch month
  have hshifted : 146097 * era + dayOfEra = days + 719468 := by omega
  obtain ⟨hyear, hlow, hhigh⟩ := @dayOfYear_bounds dayOfEra _ (by omega) rfl
  change yearOfEra < 400 at hyear
  change 365 * yearOfEra + yearOfEra / 4 - yearOfEra / 100 ≤ dayOfEra at hlow
  change dayOfEra ≤ 365 * yearOfEra + yearOfEra / 4 - yearOfEra / 100 + 365 at hhigh
  have hday : daysBeforeMonth monthFromMarch ≤ dayOfYear := daysBeforeMonth_le
  have hmonth : (month + 9) % 12 = monthFromMarch := by
    have : monthFromMarch < 12 := by omega
    rcases Nat.lt_or_ge monthFromMarch 10 with h | h
    · simp only [month, if_pos h]
      omega
    · simp only [month, if_neg (Nat.not_lt.2 h)]
      omega
  have hmarch : (if month ≤ 2 then era * 400 + yearOfEra + (if month ≤ 2 then 1 else 0) - 1
      else era * 400 + yearOfEra + (if month ≤ 2 then 1 else 0)) = era * 400 + yearOfEra := by
    split <;> omega
  simp only [toDays, hmonth, hmarch, marchFirst_era hyear]
  omega

theorem month_day_ofDays_lt (days : Int) :
    (Date.ofDays days).month < 100 ∧ (Date.ofDays days).day < 100 := by
  unfold Date.ofDays
  extract_lets shifted era dayOfEra yearOfEra dayOfYear monthFromMarch month
  obtain ⟨-, -, hhigh⟩ := @dayOfYear_bounds dayOfEra _ (by omega) rfl
  change dayOfEra ≤ 365 * yearOfEra + yearOfEra / 4 - yearOfEra / 100 + 365 at hhigh
  have hdayOfYear : dayOfYear ≤ 365 := by omega
  refine ⟨?_, ?_⟩
  · simp only [month]
    split <;> omega
  · simp only [daysBeforeMonth]
    omega

/-- The days of a year counted from March fit into its months. -/
theorem isValid_ofDays (days : Int) : (Date.ofDays days).isValid = true := by
  unfold Date.ofDays
  extract_lets shifted era dayOfEra yearOfEra dayOfYear monthFromMarch month
  obtain ⟨hyear, hlow, hhigh⟩ := @dayOfYear_bounds dayOfEra _ (by omega) rfl
  have hleap := @isLeap_of_lastDay dayOfEra _ (by omega) rfl
  change yearOfEra < 400 at hyear
  change 365 * yearOfEra + yearOfEra / 4 - yearOfEra / 100 ≤ dayOfEra at hlow
  change dayOfEra ≤ 365 * yearOfEra + yearOfEra / 4 - yearOfEra / 100 + 365 at hhigh
  change dayOfEra = 365 * yearOfEra + yearOfEra / 4 - yearOfEra / 100 + 365 →
    (yearOfEra + 1) % 4 = 0 ∧ ((yearOfEra + 1) % 100 ≠ 0 ∨ (yearOfEra + 1) % 400 = 0) at hleap
  have hdayOfYear : dayOfYear ≤ 365 := by omega
  have hlast : dayOfYear = 365 → isLeapYear (era * 400 + yearOfEra + 1) = true := by
    intro heq
    have := hleap (by omega)
    simp only [isLeapYear, Bool.and_eq_true, Bool.or_eq_true, decide_eq_true_eq]
    omega
  obtain ⟨hfirst, hlastMonth, hfits⟩ := dayOfMonth_bounds dayOfYear (by omega)
  change 1 ≤ month at hfirst
  change month ≤ 12 at hlastMonth
  change dayOfYear - daysBeforeMonth monthFromMarch + 1 ≤
    if month = 2 then if dayOfYear = 365 then 29 else 28
    else if month = 4 || month = 6 || month = 9 || month = 11 then 30 else 31 at hfits
  have hdays : dayOfYear - daysBeforeMonth monthFromMarch + 1 ≤
      daysInMonth (era * 400 + yearOfEra + if month ≤ 2 then 1 else 0) month := by
    unfold daysInMonth
    by_cases hmonth : month = 2
    · have hnext : month ≤ 2 := Nat.le_of_eq hmonth
      rw [if_pos hmonth] at hfits
      rw [if_pos hmonth, if_pos hnext]
      by_cases hend : dayOfYear = 365
      · rw [hlast hend, if_pos rfl]
        rwa [if_pos hend] at hfits
      · rw [if_neg hend] at hfits
        split <;> omega
    · rwa [if_neg hmonth] at hfits ⊢
  simp only [isValid, Bool.and_eq_true, decide_eq_true_eq]
  exact ⟨⟨⟨hfirst, hlastMonth⟩, Nat.le_add_left 1 _⟩, hdays⟩

end Date

end KeepAlive.Time
