import KeepAlive.Time.Instant

/-!
# The order of instants

Instants are ordered by their seconds and then by their nanoseconds.  Cutting an instant to whole
milliseconds moves it back by less than a millisecond, so what lies a millisecond earlier stays
earlier.
-/

namespace KeepAlive.Time.Instant

theorem isBefore_trans {a b c : Instant}
    (hab : a.isBefore b = true) (hbc : b.isBefore c = true) : a.isBefore c = true := by
  rw [isBefore_iff] at hab hbc ⊢
  omega

theorem isUpTo_trans {a b c : Instant}
    (hab : a.isUpTo b = true) (hbc : b.isUpTo c = true) : a.isUpTo c = true := by
  rw [isUpTo_iff] at hab hbc ⊢
  omega

theorem isBefore_of_second_lt {a b : Instant} (h : a.second < b.second) : a.isBefore b = true :=
  isBefore_iff.2 (Or.inl h)

theorem second_truncated (a : Instant) : a.truncated.second = a.second :=
  rfl

theorem truncated_isUpTo (a : Instant) : a.truncated.isUpTo a = true :=
  isUpTo_iff.2 (Or.inr ⟨rfl, Nat.div_mul_le_self a.nano 1000000⟩)

/-- The clock shows an instant at least a millisecond after an earlier reading; neither of the two is
in a leap second. -/
structure Ticks (before after : Instant) : Prop where
  nano_before : before.nano < nanosPerSecond
  nano_after : after.nano < nanosPerSecond
  millisecond : before.toNanos + 1000000 ≤ after.toNanos

theorem Ticks.isUpTo {before after : Instant} (h : Ticks before after) :
    before.isUpTo after = true := by
  obtain ⟨hbefore, hafter, hmillisecond⟩ := h
  simp only [toNanos, nanosPerSecond] at hbefore hafter hmillisecond
  rw [isUpTo_iff]
  omega

theorem Ticks.second_le {before after : Instant} (h : Ticks before after) :
    before.second ≤ after.second := by
  have hupTo := isUpTo_iff.1 h.isUpTo
  omega

/-- What was not after the earlier reading is before the later one, also when that is cut to
milliseconds. -/
theorem Ticks.isBefore_truncated {instant before after : Instant} (h : Ticks before after)
    (hinstant : instant.isUpTo before = true) : instant.isBefore after.truncated = true := by
  obtain ⟨hbefore, hafter, hmillisecond⟩ := h
  simp only [toNanos, nanosPerSecond] at hbefore hafter hmillisecond
  rw [isUpTo_iff] at hinstant
  rw [isBefore_iff, truncated]
  simp only
  omega

end KeepAlive.Time.Instant
