import KeepAlive.Proofs.Time.Order
import KeepAlive.Proofs.Time.Years
import Mathlib.Data.String.Basic
import Mathlib.Tactic.IntervalCases

/-!
# Stored texts in order

All parts of a stored text have their widths.  So two texts are compared part by part, from the year
on, and that is how their instants are compared, cut to milliseconds.
-/

namespace KeepAlive

namespace Text

theorem decimalValue_cons (c : Char) (digits : List Char) :
    decimalValue (c :: digits) = 10 ^ digits.length * digitValue c + decimalValue digits := by
  have h : ∀ digits, decimalValue digits = Nat.ofDigitChars 10 digits 0 := fun _ => rfl
  rw [h, Nat.ofDigitChars_cons, Nat.ofDigitChars_eq_ofDigitChars_zero, ← h, Nat.mul_zero,
    Nat.zero_add]
  rfl

/-- The code of a digit. -/
theorem toNat_of_isDigit {c : Char} (h : c.isDigit = true) :
    c.toNat = 48 + digitValue c ∧ digitValue c < 10 := by
  have hfirst : '0'.toNat = 48 := rfl
  have hlast : '9'.toNat = 57 := rfl
  have hbounds := Char.isDigit_iff_toNat.1 h
  simp only [digitValue]
  omega

theorem lt_iff_digitValue_lt {c d : Char} (hc : c.isDigit = true) (hd : d.isDigit = true) :
    c < d ↔ digitValue c < digitValue d := by
  obtain ⟨hcode, -⟩ := toNat_of_isDigit hc
  obtain ⟨hother, -⟩ := toNat_of_isDigit hd
  change c.toNat < d.toNat ↔ _
  omega

theorem eq_iff_digitValue_eq {c d : Char} (hc : c.isDigit = true) (hd : d.isDigit = true) :
    c = d ↔ digitValue c = digitValue d := by
  obtain ⟨hcode, -⟩ := toNat_of_isDigit hc
  obtain ⟨hother, -⟩ := toNat_of_isDigit hd
  rw [← Char.toNat_inj]
  omega

theorem decimalValue_lt {digits : List Char} (h : ∀ c ∈ digits, c.isDigit = true) :
    decimalValue digits < 10 ^ digits.length := by
  induction digits with
  | nil => decide
  | cons c rest ih =>
    obtain ⟨hc, hrest⟩ := List.forall_mem_cons.1 h
    obtain ⟨-, hdigit⟩ := toNat_of_isDigit hc
    have hvalue := ih hrest
    rw [decimalValue_cons, List.length_cons, Nat.pow_succ]
    have hstep : 10 ^ rest.length * (digitValue c + 1) ≤ 10 ^ rest.length * 10 :=
      Nat.mul_le_mul_left _ hdigit
    rw [Nat.mul_succ] at hstep
    omega

/-- Texts that begin with equally many digits are ordered by the numbers that these spell, and then
by what follows. -/
theorem digits_append_lt_iff {digits others : List Char} (hlength : digits.length = others.length)
    (hdigits : ∀ c ∈ digits, c.isDigit = true) (hothers : ∀ c ∈ others, c.isDigit = true)
    (rest left : List Char) :
    digits ++ rest < others ++ left ↔ decimalValue digits < decimalValue others ∨
      decimalValue digits = decimalValue others ∧ rest < left := by
  induction digits generalizing others with
  | nil =>
    cases List.length_eq_zero_iff.1 hlength.symm
    simp
  | cons c digits ih =>
    obtain ⟨d, others, rfl⟩ := List.exists_cons_of_length_eq_add_one hlength.symm
    obtain ⟨hc, hdigits⟩ := List.forall_mem_cons.1 hdigits
    obtain ⟨hd, hothers⟩ := List.forall_mem_cons.1 hothers
    have hlength := Nat.succ.inj hlength
    have hvalue := decimalValue_lt hdigits
    have hother := decimalValue_lt hothers
    rw [List.cons_append, List.cons_append, List.cons_lt_cons_iff, ih hlength hdigits hothers,
      lt_iff_digitValue_lt hc hd, eq_iff_digitValue_eq hc hd, decimalValue_cons, decimalValue_cons,
      hlength]
    rw [hlength] at hvalue
    rcases Nat.lt_trichotomy (digitValue c) (digitValue d) with hlt | heq | hgt
    · have hstep := Nat.mul_le_mul_left (10 ^ others.length) hlt
      rw [Nat.mul_succ] at hstep
      exact iff_of_true (Or.inl hlt) (Or.inl (by omega))
    · simp [heq]
    · have hstep := Nat.mul_le_mul_left (10 ^ others.length) hgt
      rw [Nat.mul_succ] at hstep
      omega

/-- Texts that begin with the same mark and with numbers of one width are ordered by these, and then by
what follows. -/
theorem cons_padZeros_append_lt_iff {width m n : Nat} (hwidth : 0 < width) (hm : m < 10 ^ width)
    (hn : n < 10 ^ width) (mark : Char) (rest left : List Char) :
    mark :: ((padZeros width m).toList ++ rest) < mark :: ((padZeros width n).toList ++ left) ↔
      m < n ∨ m = n ∧ rest < left := by
  have hlength : (padZeros width m).toList.length = (padZeros width n).toList.length :=
    (length_padZeros hwidth hm).trans (length_padZeros hwidth hn).symm
  rw [List.cons_lt_cons_iff, digits_append_lt_iff hlength (fun _ => isDigit_of_mem_padZeros)
    (fun _ => isDigit_of_mem_padZeros), decimalValue_padZeros, decimalValue_padZeros]
  simp only [Char.lt_irrefl, false_or, true_and]

end Text

namespace Time

namespace Date

/-- Whether a date comes before another one: the year decides, then the month, then the day. -/
def IsBefore (a b : Date) : Prop :=
  a.year < b.year ∨ a.year = b.year ∧ (a.month < b.month ∨ a.month = b.month ∧ a.day < b.day)

/-- The day on which a month begins. -/
def newMonth (year : Int) (month : Nat) : Int :=
  toDays ⟨year, month, 1⟩

theorem toDays_eq (date : Date) : date.toDays = newMonth date.year date.month + date.day - 1 := by
  simp only [newMonth, toDays]
  omega

/-- A month is as long as the calendar says. -/
theorem newMonth_succ (year : Int) {month : Nat} (hfirst : 1 ≤ month) (hlast : month < 12) :
    newMonth year (month + 1) = newMonth year month + daysInMonth year month := by
  have hleap : marchFirst year - marchFirst (year - 1) = if isLeapYear year then 366 else 365 := by
    simp only [marchFirst, isLeapYear, Bool.and_eq_true, Bool.or_eq_true, decide_eq_true_eq]
    split <;> omega
  interval_cases month <;> simp [newMonth, toDays, daysInMonth, daysBeforeMonth] <;> grind

theorem newMonth_december (year : Int) :
    newMonth year 12 + daysInMonth year 12 = newYear (year + 1) := by
  simp [newMonth, newYear, toDays, daysInMonth, daysBeforeMonth]
  omega

/-- A month is over when a later one of its year begins. -/
theorem newMonth_add_daysInMonth_le (year : Int) {month later : Nat} (hfirst : 1 ≤ month)
    (h : month < later) (hlast : later ≤ 12) :
    newMonth year month + daysInMonth year month ≤ newMonth year later := by
  induction later, h using Nat.le_induction with
  | base => exact Int.le_of_eq (newMonth_succ year hfirst hlast).symm
  | succ later hle ih =>
    have hnext := newMonth_succ year (Nat.le_trans hfirst (Nat.le_of_succ_le hle)) hlast
    have hbefore := ih (Nat.le_of_succ_le hlast)
    omega

theorem isValid_iff {date : Date} : date.isValid = true ↔ 1 ≤ date.month ∧ date.month ≤ 12 ∧
    1 ≤ date.day ∧ date.day ≤ daysInMonth date.year date.month := by
  simp only [isValid, Bool.and_eq_true, decide_eq_true_eq, and_assoc]

/-- A date of the calendar lies in its year. -/
theorem toDays_bounds {date : Date} (h : date.isValid = true) :
    newYear date.year ≤ date.toDays ∧ date.toDays < newYear (date.year + 1) := by
  obtain ⟨hfirst, hlast, hday, hfits⟩ := isValid_iff.1 h
  have hdecember := newMonth_december date.year
  have hjanuary : newMonth date.year 1 = newYear date.year := rfl
  rw [toDays_eq]
  constructor
  · rcases Nat.eq_or_lt_of_le hfirst with hone | hlater
    · rw [← hone]
      omega
    · have hle := newMonth_add_daysInMonth_le date.year (Nat.le_refl 1) hlater hlast
      omega
  · rcases Nat.eq_or_lt_of_le hlast with htwelve | hearlier
    · rw [htwelve] at hfits ⊢
      omega
    · have hle := newMonth_add_daysInMonth_le date.year hfirst hearlier (Nat.le_refl 12)
      omega

theorem toDays_lt_of_isBefore {a b : Date} (ha : a.isValid = true) (hb : b.isValid = true)
    (h : a.IsBefore b) : a.toDays < b.toDays := by
  obtain ⟨-, hover⟩ := toDays_bounds ha
  obtain ⟨hbegun, -⟩ := toDays_bounds hb
  obtain ⟨hfirst, -, -, hfits⟩ := isValid_iff.1 ha
  obtain ⟨-, hlast, hday, -⟩ := isValid_iff.1 hb
  rcases h with hyear | ⟨hyear, hmonth | ⟨hmonth, hbefore⟩⟩
  · have hmono : newYear (a.year + 1) ≤ newYear b.year := newYear_mono hyear
    omega
  · have hle := newMonth_add_daysInMonth_le a.year hfirst hmonth hlast
    rw [toDays_eq, toDays_eq, ← hyear]
    omega
  · rw [toDays_eq, toDays_eq, hyear, hmonth]
    omega

theorem isBefore_trichotomy (a b : Date) : a.IsBefore b ∨ a = b ∨ b.IsBefore a := by
  obtain ⟨year, month, day⟩ := a
  obtain ⟨year', month', day'⟩ := b
  simp only [IsBefore, Date.mk.injEq]
  omega

/-- Dates are compared part by part, before whatever is compared next. -/
theorem isBefore_or_iff {a b : Date}
    (hyears : 0 ≤ a.year ∧ a.year ≤ 9999 ∧ 0 ≤ b.year ∧ b.year ≤ 9999) (rest : Prop) :
    (a.year.toNat < b.year.toNat ∨ a.year.toNat = b.year.toNat ∧
      (a.month < b.month ∨ a.month = b.month ∧ (a.day < b.day ∨ a.day = b.day ∧ rest))) ↔
      a.IsBefore b ∨ a = b ∧ rest := by
  obtain ⟨year, month, day⟩ := a
  obtain ⟨year', month', day'⟩ := b
  simp only [IsBefore, Date.mk.injEq] at hyears ⊢
  by_cases hrest : rest
  · simp only [hrest, and_true]
    omega
  · simp only [hrest, and_false, or_false]
    omega

theorem ofDays_inj {days later : Int} : ofDays days = ofDays later ↔ days = later := by
  constructor
  · intro h
    have hdays := congrArg toDays h
    rwa [toDays_ofDays, toDays_ofDays] at hdays
  · rintro rfl
    rfl

/-- The order of dates is that of their days. -/
theorem isBefore_ofDays_iff {days later : Int} :
    (ofDays days).IsBefore (ofDays later) ↔ days < later := by
  have hforth {days later : Int} (h : (ofDays days).IsBefore (ofDays later)) : days < later := by
    have hlt := toDays_lt_of_isBefore (isValid_ofDays days) (isValid_ofDays later) h
    rwa [toDays_ofDays, toDays_ofDays] at hlt
  refine ⟨hforth, fun hlt => ?_⟩
  rcases isBefore_trichotomy (ofDays days) (ofDays later) with h | h | h
  · exact h
  · have hsame := ofDays_inj.1 h
    omega
  · have hback := hforth h
    omega

end Date

namespace Instant

/-- Whether an instant, which may lie in a leap second, is stored with a year of four digits. -/
structure IsStorable (instant : Instant) : Prop where
  staysInMinute : instant.StaysInMinute
  hasPlainYear : instant.HasPlainYear

theorem date_isBefore_iff {a b : Instant} :
    a.date.IsBefore b.date ↔ a.second / secondsPerDay < b.second / secondsPerDay :=
  Date.isBefore_ofDays_iff

theorem date_eq_iff {a b : Instant} :
    a.date = b.date ↔ a.second / secondsPerDay = b.second / secondsPerDay :=
  Date.ofDays_inj

/-- A second and its milliseconds, as they are written with a leap second as the sixtieth, are in the
order of the instants in their minute. -/
theorem StaysInMinute.isBefore_iff_parts {a b : Instant} (ha : a.StaysInMinute)
    (hb : b.StaysInMinute) :
    (a.secondOfDay % 60 < b.secondOfDay % 60 ∨
        a.secondOfDay % 60 = b.secondOfDay % 60 ∧ a.nano / 1000000 < b.nano / 1000000) ↔
      a.secondOfDay % 60 + a.nano / nanosPerSecond < b.secondOfDay % 60 + b.nano / nanosPerSecond ∨
        a.secondOfDay % 60 + a.nano / nanosPerSecond =
            b.secondOfDay % 60 + b.nano / nanosPerSecond ∧
          a.nano % nanosPerSecond / 1000000 < b.nano % nanosPerSecond / 1000000 := by
  have hsecond := a.second_eq
  have hother := b.second_eq
  simp only [StaysInMinute, nanosPerSecond, secondsPerDay] at ha hb hsecond hother ⊢
  omega

/-- The date comes first when instants are compared to the millisecond, then the hour, the minute, the
second and the millisecond. -/
theorem truncated_isBefore_iff {a b : Instant} :
    a.truncated.isBefore b.truncated = true ↔
      a.date.IsBefore b.date ∨ a.date = b.date ∧
        (a.secondOfDay / 3600 < b.secondOfDay / 3600 ∨
          a.secondOfDay / 3600 = b.secondOfDay / 3600 ∧
        (a.secondOfDay / 60 % 60 < b.secondOfDay / 60 % 60 ∨
          a.secondOfDay / 60 % 60 = b.secondOfDay / 60 % 60 ∧
        (a.secondOfDay % 60 < b.secondOfDay % 60 ∨
          a.secondOfDay % 60 = b.secondOfDay % 60 ∧ a.nano / 1000000 < b.nano / 1000000))) := by
  have hsecond := a.second_eq
  have hother := b.second_eq
  have hlt := a.secondOfDay_lt
  have hlt' := b.secondOfDay_lt
  rw [isBefore_iff, date_isBefore_iff, date_eq_iff]
  simp only [truncated, secondsPerDay] at hsecond hother ⊢
  omega

end Instant

/-- Stored texts are ordered as their instants, cut to milliseconds. -/
theorem millisText_lt_iff {a b : Instant} (ha : a.IsStorable) (hb : b.IsStorable) :
    millisText a < millisText b ↔ a.truncated.isBefore b.truncated = true := by
  obtain ⟨hminute, hyear⟩ := ha
  obtain ⟨hminute', hyear'⟩ := hb
  obtain ⟨hlast, -⟩ := hminute.parts
  obtain ⟨hlast', -⟩ := hminute'.parts
  obtain ⟨hmonth, hday⟩ : a.date.month < 100 ∧ a.date.day < 100 := Date.month_day_ofDays_lt _
  obtain ⟨hmonth', hday'⟩ : b.date.month < 100 ∧ b.date.day < 100 := Date.month_day_ofDays_lt _
  have htime := a.secondOfDay_lt
  have htime' := b.secondOfDay_lt
  have hyears : 0 ≤ a.date.year ∧ a.date.year ≤ 9999 ∧ 0 ≤ b.date.year ∧ b.date.year ≤ 9999 :=
    ⟨hyear.1, hyear.2, hyear'.1, hyear'.2⟩
  have hyearText : a.date.year.toNat < 10 ^ 4 ∧ b.date.year.toNat < 10 ^ 4 := by omega
  -- A mark in front of the year makes it a part like the others.
  have hmark (s t : List Char) : s < t ↔ '-' :: s < '-' :: t := by
    simp
  have hend : ¬['Z'] < ['Z'] := by decide
  have hmilli (nano : Nat) : nano % nanosPerSecond / 1000000 < 10 ^ 3 := by
    simp only [nanosPerSecond]
    omega
  rw [String.lt_iff_toList_lt, toList_millisText hyear, toList_millisText hyear', hmark,
    Instant.truncated_isBefore_iff, hminute.isBefore_iff_parts hminute']
  simp only [List.append_assoc, List.cons_append]
  rw [Text.cons_padZeros_append_lt_iff (by decide) hyearText.1 hyearText.2,
    Text.cons_padZeros_append_lt_iff (by decide) hmonth hmonth',
    Text.cons_padZeros_append_lt_iff (by decide) hday hday',
    Text.cons_padZeros_append_lt_iff (by decide) (by omega) (by omega),
    Text.cons_padZeros_append_lt_iff (by decide) (by omega) (by omega),
    Text.cons_padZeros_append_lt_iff (by decide) (by omega) (by omega),
    Text.cons_padZeros_append_lt_iff (by decide) (hmilli a.nano) (hmilli b.nano)]
  simp only [hend, and_false, or_false]
  exact Date.isBefore_or_iff hyears _

theorem millisText_eq_iff {a b : Instant} (ha : a.IsStorable) (hb : b.IsStorable) :
    millisText a = millisText b ↔ a.truncated = b.truncated := by
  constructor
  · intro h
    have hread := read_millisText_of_staysInMinute ha.staysInMinute ha.hasPlainYear
    rw [h, read_millisText_of_staysInMinute hb.staysInMinute hb.hasPlainYear] at hread
    exact (congrArg Stamp.instant (Except.ok.inj hread)).symm
  · intro h
    rw [← millisText_truncated a, h, millisText_truncated b]

end Time

end KeepAlive
