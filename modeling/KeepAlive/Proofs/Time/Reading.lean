import KeepAlive.Proofs.Time.Calendar
import KeepAlive.Time.Stamp
import Mathlib.Algebra.Group.Nat.Defs

/-!
# Reading stored instants

The store keeps instants as texts to the millisecond.  A text that it has written stands for the
instant cut to milliseconds if the year has four digits; else it cannot be read again.
-/

namespace KeepAlive

namespace Text

theorem decimalValue_padZeros (width n : Nat) : decimalValue (padZeros width n).toList = n := by
  have h : ∀ digits, decimalValue digits = Nat.ofDigitChars 10 digits 0 := fun _ => rfl
  simp only [padZeros, String.toList_ofList, h, Nat.ofDigitChars_append,
    Nat.ofDigitChars_replicate_zero, Nat.mul_zero, Nat.ofDigitChars_ten_toDigits]

theorem isDigit_of_mem_padZeros {width n : Nat} {c : Char}
    (h : c ∈ (padZeros width n).toList) : c.isDigit = true := by
  simp only [padZeros, String.toList_ofList, List.mem_append, List.mem_replicate] at h
  rcases h with ⟨-, rfl⟩ | h
  · rfl
  · exact Nat.isDigit_of_mem_toDigits (by decide) (by decide) h

theorem length_padZeros {width n : Nat} (hwidth : 0 < width) (hn : n < 10 ^ width) :
    (padZeros width n).toList.length = width := by
  have h := (Nat.length_toDigits_le_iff (by decide) hwidth).2 hn
  simp only [padZeros, String.toList_ofList, List.length_append, List.length_replicate]
  omega

/-- A text has at least as many bytes as characters. -/
theorem length_le_utf8ByteSize (text : String) : text.toList.length ≤ text.utf8ByteSize := by
  have hlist (s : List Char) : s.length ≤ (String.ofList s).utf8ByteSize := by
    induction s with
    | nil => exact Nat.zero_le _
    | cons c rest ih =>
      have hpos := c.utf8Size_pos
      rw [String.ofList_cons, String.utf8ByteSize_append, String.utf8ByteSize_singleton,
        List.length_cons]
      omega
  have h := hlist text.toList
  rwa [String.ofList_toList] at h

end Text

namespace Time

/-- The year of an instant, in UTC. -/
def Instant.year (instant : Instant) : Int :=
  (Date.ofDays (instant.second / secondsPerDay)).year

/-- Whether the year of an instant is written with four digits and no sign. -/
def Instant.HasPlainYear (instant : Instant) : Prop :=
  0 ≤ instant.year ∧ instant.year ≤ 9999

instance (instant : Instant) : Decidable instant.HasPlainYear :=
  inferInstanceAs (Decidable (0 ≤ instant.year ∧ instant.year ≤ 9999))

/-- Whether the nanoseconds of an instant stay in its second, or in the leap second after it, which
ends a minute. -/
def Instant.StaysInMinute (instant : Instant) : Prop :=
  instant.nano < nanosPerSecond ∨
    instant.second % 60 = 59 ∧ instant.nano < 2 * nanosPerSecond

instance (instant : Instant) : Decidable instant.StaysInMinute :=
  inferInstanceAs (Decidable (_ ∨ _))

namespace Stamp

/-- A time stamp to the millisecond, in UTC, is read from its parts. -/
theorem read_of_parts {text : String} {year month day hour minute second millis : List Char}
    (htext : text.toList = year ++ '-' :: month ++ '-' :: day ++ 'T' :: hour ++ ':' :: minute ++
      ':' :: second ++ '.' :: millis ++ ['Z'])
    (hyear : year.length = 4) (hmonth : month.length = 2) (hday : day.length = 2)
    (hhour : hour.length = 2) (hminute : minute.length = 2) (hsecond : second.length = 2)
    (hmillis : millis.length = 3)
    (hdigits : ∀ c ∈ year ++ month ++ day ++ hour ++ minute ++ second ++ millis, c.isDigit = true)
    (hdate : Date.isValid ⟨Text.decimalValue year, Text.decimalValue month,
      Text.decimalValue day⟩ = true)
    (htime : Text.decimalValue hour < 24 ∧ Text.decimalValue minute < 60 ∧
      Text.decimalValue second ≤ 60) :
    read text = .ok ⟨⟨Date.toDays ⟨Text.decimalValue year, Text.decimalValue month,
        Text.decimalValue day⟩ * secondsPerDay + (3600 * Text.decimalValue hour +
          60 * Text.decimalValue minute + min (Text.decimalValue second) 59 : Nat),
        Text.decimalValue millis * 1000000 +
          if Text.decimalValue second = 60 then nanosPerSecond else 0⟩, 0⟩ := by
  have hsize : headLength ≤ text.utf8ByteSize := by
    refine Nat.le_trans ?_ (Text.length_le_utf8ByteSize text)
    rw [htext]
    simp [headLength, hyear, hmonth, hday, hhour, hminute, hsecond, hmillis]
  obtain ⟨y₁, y₂, y₃, y₄, rfl⟩ : ∃ a b c d, year = [a, b, c, d] := by
    match year, hyear with
    | [a, b, c, d], _ => exact ⟨a, b, c, d, rfl⟩
  have hpair (s : List Char) (hs : s.length = 2) : ∃ a b, s = [a, b] := by
    match s, hs with
    | [a, b], _ => exact ⟨a, b, rfl⟩
  obtain ⟨m₁, m₂, rfl⟩ := hpair month hmonth
  obtain ⟨d₁, d₂, rfl⟩ := hpair day hday
  obtain ⟨h₁, h₂, rfl⟩ := hpair hour hhour
  obtain ⟨n₁, n₂, rfl⟩ := hpair minute hminute
  obtain ⟨s₁, s₂, rfl⟩ := hpair second hsecond
  obtain ⟨f₁, f₂, f₃, rfl⟩ : ∃ a b c, millis = [a, b, c] := by
    match millis, hmillis with
    | [a, b, c], _ => exact ⟨a, b, c, rfl⟩
  have hform : hasForm text.toList = true ∧ hasForm (text.toList.take dateLength) = true := by
    rw [htext]
    constructor <;> simp [hasForm, headLength, dateLength, List.zipIdx_cons, hdigits]
  have hfraction : fraction (text.toList.drop headLength) =
      .ok (Text.decimalValue [f₁, f₂, f₃] * 1000000, ['Z']) := by
    have hZ : 'Z'.isDigit = false := rfl
    rw [htext]
    simp [fraction, headLength, nanosOf, hZ, hdigits]
  have hof : timeOf? text.toList (Text.decimalValue [f₁, f₂, f₃] * 1000000) =
      some (3600 * Text.decimalValue [h₁, h₂] + 60 * Text.decimalValue [n₁, n₂] +
          min (Text.decimalValue [s₁, s₂]) 59,
        Text.decimalValue [f₁, f₂, f₃] * 1000000 +
          if Text.decimalValue [s₁, s₂] = 60 then nanosPerSecond else 0) := by
    obtain ⟨hhour, hminute, hsecond⟩ := htime
    rw [htext]
    simp [timeOf?, pair, hhour, hminute, hsecond]
  have hdateOf : dateOf text.toList = ⟨Text.decimalValue [y₁, y₂, y₃, y₄],
      Text.decimalValue [m₁, m₂], Text.decimalValue [d₁, d₂]⟩ := by
    rw [htext]
    simp [dateOf, pair]
  have hlength : headLength ≤ text.toList.length := by
    rw [htext]
    simp [headLength]
  have hoffset : offsetOf ['Z'] = .ok (0, []) := rfl
  simp only [read, bind, Except.bind, pure, Except.pure, if_neg (Nat.not_lt.2 hsize), hform,
    hdateOf, hdate, hfraction, hof, hoffset]
  simp [Nat.not_lt.2 hlength]

theorem hasForm_of_read {text : String} {stamp : Stamp} (h : read text = .ok stamp) :
    hasForm (text.toList.take dateLength) = true := by
  unfold read at h
  simp only [bind, Except.bind, pure, Except.pure, throw, throwThe, MonadExceptOf.throw] at h
  split at h
  · cases h
  split at h
  · cases h
  rename_i hform
  simpa using hform

/-- A text that begins with a sign is no time stamp. -/
theorem hasForm_take_cons {c : Char} (hc : c.isDigit = false) (rest : List Char) :
    hasForm ((c :: rest).take dateLength) = false := by
  simp [hasForm, dateLength, headLength, List.zipIdx_cons, hc]

end Stamp

theorem yearText_of_lt {year : Int} (h : 0 ≤ year ∧ year ≤ 9999) :
    yearText year = Text.padZeros 4 year.toNat :=
  if_pos h

theorem toList_yearText_of_not {year : Int} (h : ¬(0 ≤ year ∧ year ≤ 9999)) :
    ∃ c rest, c.isDigit = false ∧ (yearText year).toList = c :: rest := by
  rw [yearText, if_neg h]
  split
  · exact ⟨'-', _, rfl, by simp; rfl⟩
  · exact ⟨'+', _, rfl, by simp; rfl⟩

namespace Instant

/-- The date of an instant, in UTC. -/
def date (instant : Instant) : Date :=
  Date.ofDays (instant.second / secondsPerDay)

/-- The second of its day in which an instant lies, in UTC. -/
def secondOfDay (instant : Instant) : Nat :=
  (instant.second % secondsPerDay).toNat

theorem secondOfDay_lt (instant : Instant) : instant.secondOfDay < 86400 := by
  simp only [secondOfDay, secondsPerDay]
  omega

theorem second_eq (instant : Instant) :
    instant.second = instant.second / secondsPerDay * secondsPerDay + instant.secondOfDay := by
  simp only [secondOfDay, secondsPerDay]
  omega

end Instant

/-- The parts of which the stored text of an instant is made; a leap second is the sixtieth. -/
theorem toList_millisText {instant : Instant} (hyear : instant.HasPlainYear) :
    (millisText instant).toList =
      (Text.padZeros 4 instant.date.year.toNat).toList ++
        '-' :: (Text.padZeros 2 instant.date.month).toList ++
        '-' :: (Text.padZeros 2 instant.date.day).toList ++
        'T' :: (Text.padZeros 2 (instant.secondOfDay / 3600)).toList ++
        ':' :: (Text.padZeros 2 (instant.secondOfDay / 60 % 60)).toList ++
        ':' :: (Text.padZeros 2 (instant.secondOfDay % 60 + instant.nano / nanosPerSecond)).toList ++
        '.' :: (Text.padZeros 3 (instant.nano % nanosPerSecond / 1000000)).toList ++ ['Z'] := by
  have hplain : yearText (Date.ofDays (instant.second / secondsPerDay)).year =
      Text.padZeros 4 (Date.ofDays (instant.second / secondsPerDay)).year.toNat :=
    yearText_of_lt hyear
  simp [millisText, secondText, hplain, Instant.date, Instant.secondOfDay]

/-- A leap second is written as the sixtieth one of its minute, and read as the second before it going
on. -/
theorem Instant.StaysInMinute.parts {instant : Instant} (h : instant.StaysInMinute) :
    instant.secondOfDay % 60 + instant.nano / nanosPerSecond ≤ 60 ∧
      min (instant.secondOfDay % 60 + instant.nano / nanosPerSecond) 59 =
        instant.secondOfDay % 60 ∧
      instant.nano % nanosPerSecond / 1000000 * 1000000 +
          (if instant.secondOfDay % 60 + instant.nano / nanosPerSecond = 60 then nanosPerSecond
            else 0) =
        instant.nano / 1000000 * 1000000 := by
  have hsecond := instant.second_eq
  have hlt := instant.secondOfDay_lt
  unfold Instant.StaysInMinute at h
  refine ⟨?_, ?_, ?_⟩
  · simp only [nanosPerSecond, secondsPerDay] at h hsecond ⊢
    omega
  · simp only [nanosPerSecond, secondsPerDay] at h hsecond ⊢
    omega
  · split <;> simp only [nanosPerSecond, secondsPerDay] at * <;> omega

/-- What is stored of an instant is read back as the instant cut to milliseconds. -/
theorem read_millisText_of_staysInMinute {instant : Instant} (hminute : instant.StaysInMinute)
    (hyear : instant.HasPlainYear) :
    Stamp.read (millisText instant) = .ok ⟨instant.truncated, 0⟩ := by
  obtain ⟨hmonth, hday⟩ := Date.month_day_ofDays_lt (instant.second / secondsPerDay)
  obtain ⟨hlast, hmin, hnano⟩ := hminute.parts
  have hdays := Date.toDays_ofDays (instant.second / secondsPerDay)
  have hvalid := Date.isValid_ofDays (instant.second / secondsPerDay)
  have htext := toList_millisText hyear
  have hsecond := instant.second_eq
  have hlt := instant.secondOfDay_lt
  unfold Instant.HasPlainYear Instant.year at hyear
  unfold Instant.date at htext
  generalize Date.ofDays (instant.second / secondsPerDay) = date at *
  generalize instant.secondOfDay = time at *
  have hpair {n : Nat} (hn : n < 100) : (Text.padZeros 2 n).toList.length = 2 :=
    Text.length_padZeros (by decide) hn
  have hyearNat : (date.year.toNat : Int) = date.year := Int.toNat_of_nonneg hyear.1
  have hread := Stamp.read_of_parts htext (Text.length_padZeros (by decide) (by omega))
    (hpair hmonth) (hpair hday) (hpair (by omega)) (hpair (by omega)) (hpair (by omega))
    (Text.length_padZeros (by decide) (by simp only [nanosPerSecond]; omega))
    (by
      intro c hc
      simp only [List.mem_append] at hc
      rcases hc with (((((hc | hc) | hc) | hc) | hc) | hc) | hc <;>
        exact Text.isDigit_of_mem_padZeros hc)
    (by simpa only [Text.decimalValue_padZeros, hyearNat] using hvalid)
    (by simp only [Text.decimalValue_padZeros]; omega)
  simp only [Text.decimalValue_padZeros, hyearNat, hdays, hmin, hnano] at hread
  have hparts : 3600 * (time / 3600) + 60 * (time / 60 % 60) + time % 60 = time := by omega
  rw [hread, hparts, ← hsecond, Instant.truncated]

theorem read_millisText {instant : Instant} (hnano : instant.nano < nanosPerSecond)
    (hyear : instant.HasPlainYear) :
    Stamp.read (millisText instant) = .ok ⟨instant.truncated, 0⟩ :=
  read_millisText_of_staysInMinute (Or.inl hnano) hyear

/-- What is stored of an instant in a year of another form cannot be read. -/
theorem hasPlainYear_of_read_millisText {instant : Instant} {stamp : Stamp}
    (h : Stamp.read (millisText instant) = .ok stamp) : instant.HasPlainYear := by
  refine Classical.byContradiction fun hyear => ?_
  obtain ⟨c, rest, hc, htext⟩ := toList_yearText_of_not hyear
  have hform := Stamp.hasForm_of_read h
  have hstart : (yearText (Date.ofDays (instant.second / secondsPerDay)).year).toList =
      c :: rest := htext
  simp only [millisText, secondText, String.toList_append, hstart, List.cons_append,
    Stamp.hasForm_take_cons hc, Bool.false_eq_true] at hform

/-- What is stored of an instant stands for the instant cut to milliseconds, if it can be read. -/
theorem instant_of_read_millisText {instant : Instant} (hnano : instant.nano < nanosPerSecond)
    {stamp : Stamp} (h : Stamp.read (millisText instant) = .ok stamp) :
    stamp.instant = instant.truncated := by
  rw [read_millisText hnano (hasPlainYear_of_read_millisText h)] at h
  cases h
  rfl

/-- What is stored of an instant does not tell what is cut off. -/
theorem millisText_truncated (instant : Instant) :
    millisText instant.truncated = millisText instant := by
  have hsecond : instant.nano / 1000000 * 1000000 / 1000000000 = instant.nano / 1000000000 := by
    omega
  have hmilli : instant.nano / 1000000 * 1000000 % 1000000000 / 1000000 =
      instant.nano % 1000000000 / 1000000 := by
    omega
  simp only [millisText, secondText, Instant.truncated, nanosPerSecond, hsecond, hmilli]

end Time

end KeepAlive
