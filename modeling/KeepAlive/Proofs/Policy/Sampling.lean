import KeepAlive.Proofs.Policy.Ahead
import Mathlib.Data.Stream.Init

/-!
# Numbers drawn from random words

A number between two bounds is made of the first word that is taken; the words before it are refused
and those after it are left.  Every number of the range can be made of a single word, and where words
that are taken keep coming the drawing ends, however long it refuses.  A run is made of two such
numbers, so that what can be drawn is told without words.
-/

namespace KeepAlive

open Time

/-- The day that a calendar in the zone shows at an instant, counted from the start of 1970. -/
def Time.Zone.localDay (zone : Zone) (instant : Instant) : Int :=
  zone.localSecond instant / secondsPerDay

namespace Policy

theorem belowRange_lt {range : Nat} (h : 0 < range) (words : Words) :
    (belowRange range words).1 < range := by
  induction words with
  | nil => exact h
  | cons word rest ih =>
    unfold belowRange
    simp only
    split
    · rw [Nat.div_lt_iff_lt_mul (by decide), Nat.mul_comm]
      exact Nat.mul_lt_mul_of_pos_left word.toNat_lt h
    · exact ih

/-- What is drawn between two bounds is not more than the upper one. -/
theorem between_le {low high : UInt32} (h : low.toNat ≤ high.toNat) (words : Words) :
    (between low high words).1 ≤ high.toNat := by
  have hhigh := high.toNat_lt
  unfold between
  simp only
  split
  · rename_i hrange
    have hfull : high.toNat + 1 = wordCount := by
      have hlow := eq_zero_of_range h hrange
      simp only [wordCount] at hrange ⊢
      omega
    cases words with
    | nil => exact Nat.zero_le _
    | cons word rest =>
      have hword := word.toNat_lt
      simp only [wordCount] at hfull ⊢
      omega
  · rename_i hrange
    have hbelow := belowRange_lt (Nat.pos_of_ne_zero hrange) words
    have hle : (high.toNat + 1 - low.toNat) % wordCount ≤ high.toNat + 1 - low.toNat :=
      Nat.mod_le _ _
    omega

/-- How many numbers there are between two bounds; zero stands for as many as there are words. -/
def rangeSize (low high : UInt32) : Nat :=
  (high.toNat + 1 - low.toNat) % wordCount

/-- Whether a number between the bounds is made of the word, and the word is not refused. -/
def IsTaken (low high word : UInt32) : Prop :=
  word.toNat * rangeSize low high % wordCount ≤ acceptedLow (rangeSize low high)

instance (low high word : UInt32) : Decidable (IsTaken low high word) :=
  inferInstanceAs (Decidable (_ ≤ _))

/-- The number between the bounds that is made of a word. -/
def numberOf (low high word : UInt32) : Nat :=
  if rangeSize low high = 0 then word.toNat
  else low.toNat + word.toNat * rangeSize low high / wordCount

theorem between_cons (low high word : UInt32) (rest : Words) :
    between low high (word :: rest) =
      if IsTaken low high word then (numberOf low high word, rest) else between low high rest := by
  by_cases hsize : rangeSize low high = 0
  · have htaken : IsTaken low high word := by
      rw [IsTaken, hsize]
      exact Nat.zero_le _
    rw [if_pos htaken, between, numberOf, if_pos hsize]
    exact if_pos hsize
  · have hbetween (words : Words) : between low high words =
        (low.toNat + (belowRange (rangeSize low high) words).1,
          (belowRange (rangeSize low high) words).2) := if_neg hsize
    rw [hbetween, hbetween, numberOf, if_neg hsize, belowRange]
    by_cases htaken : IsTaken low high word
    · have haccepted : word.toNat * rangeSize low high % wordCount ≤
        acceptedLow (rangeSize low high) := htaken
      simp only [if_pos haccepted, if_pos htaken]
    · have hrefused : ¬word.toNat * rangeSize low high % wordCount ≤
        acceptedLow (rangeSize low high) := htaken
      simp only [if_neg hrefused, if_neg htaken]

theorem between_cons_of_isTaken {low high word : UInt32} (h : IsTaken low high word)
    (rest : Words) : between low high (word :: rest) = (numberOf low high word, rest) := by
  rw [between_cons, if_pos h]

theorem le_acceptedLow (range : Nat) : range - 1 ≤ acceptedLow range := by
  have hshift : range ≤ range <<< (31 - Nat.log2 range) := by
    rw [Nat.shiftLeft_eq]
    exact Nat.le_mul_of_pos_right _ (Nat.two_pow_pos _)
  exact Nat.sub_le_sub_right hshift 1

/-- The least word whose product has a given high half is not refused. -/
theorem exists_product {range n : Nat} (h : n < range) (hrange : range ≤ wordCount) :
    ∃ word < wordCount, word * range / wordCount = n ∧
      word * range % wordCount ≤ acceptedLow range := by
  obtain ⟨word, hword⟩ : ∃ word, word = (n * wordCount + (range - 1)) / range := ⟨_, rfl⟩
  have hpos : 0 < range := Nat.zero_lt_of_lt h
  have hupper : word * range ≤ n * wordCount + (range - 1) := by
    rw [hword]
    exact Nat.div_mul_le_self _ _
  have hlower : n * wordCount ≤ word * range := by
    have hnext := Nat.div_add_mod (n * wordCount + (range - 1)) range
    have hrest := Nat.mod_lt (n * wordCount + (range - 1)) hpos
    rw [← hword, Nat.mul_comm] at hnext
    omega
  have hquotient : word * range / wordCount = n := by
    rw [Nat.div_eq_iff (by decide)]
    omega
  refine ⟨word, ?_, hquotient, ?_⟩
  · have hproduct : word * range < wordCount * range := by
      calc word * range < (n + 1) * wordCount := by rw [Nat.succ_mul]; omega
        _ ≤ range * wordCount := Nat.mul_le_mul_right _ h
        _ = wordCount * range := Nat.mul_comm _ _
    exact Nat.lt_of_mul_lt_mul_right hproduct
  · have hdivision := Nat.div_add_mod (word * range) wordCount
    have haccepted := le_acceptedLow range
    rw [hquotient, Nat.mul_comm] at hdivision
    omega

theorem rangeSize_eq_of_ne_zero {low high : UInt32} (h : rangeSize low high ≠ 0)
    (hle : low.toNat ≤ high.toNat) : rangeSize low high = high.toNat + 1 - low.toNat := by
  have hhigh := high.toNat_lt
  apply Nat.mod_eq_of_lt
  simp only [rangeSize, wordCount] at h ⊢
  omega

/-- Every number between the bounds is made of some word. -/
theorem exists_numberOf_eq {low high : UInt32} {n : Nat} (hlow : low.toNat ≤ n)
    (hhigh : n ≤ high.toNat) : ∃ word, IsTaken low high word ∧ numberOf low high word = n := by
  have hle : low.toNat ≤ high.toNat := Nat.le_trans hlow hhigh
  have hword := high.toNat_lt
  by_cases hsize : rangeSize low high = 0
  · refine ⟨UInt32.ofNat n, ?_, ?_⟩
    · rw [IsTaken, hsize]
      exact Nat.zero_le _
    · rw [numberOf, if_pos hsize]
      exact UInt32.toNat_ofNat_of_lt' (Nat.lt_of_le_of_lt hhigh hword)
  · have heq := rangeSize_eq_of_ne_zero hsize hle
    have hbelow : n - low.toNat < rangeSize low high := by omega
    have hrange : rangeSize low high ≤ wordCount := Nat.le_of_lt (Nat.mod_lt _ (by decide))
    obtain ⟨word, hlt, hquotient, htaken⟩ := exists_product hbelow hrange
    have hsame : (UInt32.ofNat word).toNat = word := UInt32.toNat_ofNat_of_lt' hlt
    refine ⟨UInt32.ofNat word, ?_, ?_⟩
    · rw [IsTaken, hsame]
      exact htaken
    · rw [numberOf, if_neg hsize, hsame, hquotient]
      omega

/-- Some word gives any number between the bounds, whatever words follow it. -/
theorem exists_between_eq {low high : UInt32} {n : Nat} (hlow : low.toNat ≤ n)
    (hhigh : n ≤ high.toNat) : ∃ word, ∀ rest, between low high (word :: rest) = (n, rest) := by
  obtain ⟨word, htaken, rfl⟩ := exists_numberOf_eq hlow hhigh
  exact ⟨word, between_cons_of_isTaken htaken⟩

/-- The run that is made of the minutes ahead and the minute of the day. -/
def runOf (policy : Policy) (zone : Zone) (now : Instant) (ahead minute : Nat) : Instant :=
  let drawn := now.plusMinutes ahead
  if policy.fields.isDayAligned then
    let wanted := zone.localDay drawn * secondsPerDay + 60 * minute
    ((zone.earliest? wanted) <|> (zone.earliest? (wanted + secondsPerHour))).getD drawn
  else drawn

variable (policy : Policy) (zone : Zone) (now : Instant)

theorem nextRunAfter_eq_runOf (words : Words) :
    policy.nextRunAfter zone now words =
      let first := between policy.fields.firstMinute policy.fields.lastMinute words
      let second := between policy.fields.windowStart policy.fields.windowEnd first.2
      policy.runOf zone now first.1 second.1 :=
  rfl

theorem runOf_of_not_isDayAligned (h : ¬policy.fields.isDayAligned = true) (ahead minute : Nat) :
    policy.runOf zone now ahead minute = now.plusMinutes ahead :=
  if_neg h

/-- Whether the numbers of a run are ones that the policy allows. -/
structure Admits (ahead minute : Nat) : Prop where
  ahead : policy.fields.firstMinute.toNat ≤ ahead ∧ ahead ≤ policy.fields.lastMinute.toNat
  minute : policy.fields.windowStart.toNat ≤ minute ∧ minute ≤ policy.fields.windowEnd.toNat

/-- Only numbers that the policy allows are drawn. -/
theorem exists_runOf (words : Words) : ∃ ahead minute, policy.Admits ahead minute ∧
    policy.nextRunAfter zone now words = policy.runOf zone now ahead minute := by
  have hdate := firstMinute_le_lastMinute policy
  have hwindow := (windowStart_le_windowEnd policy).1
  exact ⟨_, _, ⟨⟨le_between hdate words, between_le hdate words⟩,
    ⟨le_between hwindow _, between_le hwindow _⟩⟩, policy.nextRunAfter_eq_runOf zone now words⟩

end Policy

end KeepAlive
