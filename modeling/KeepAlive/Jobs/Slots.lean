import KeepAlive.Time.Instant

/-!
# One instant per site

Slots keep at most one instant for each site.
-/

namespace KeepAlive

open Time

/-- At most one instant for each site. -/
abbrev Slots : Type :=
  List (Int × Instant)

namespace Slots

/-- The instant of a site. -/
def get? (slots : Slots) (site : Int) : Option Instant :=
  slots.lookup site

/-- The slots without that of a site. -/
def erase (slots : Slots) (site : Int) : Slots :=
  slots.filter fun slot => slot.1 ≠ site

/-- The slots with an instant for a site, in place of the one it had. -/
def insert (slots : Slots) (site : Int) (instant : Instant) : Slots :=
  (site, instant) :: slots.erase site

@[simp] theorem get?_nil (site : Int) : get? [] site = none :=
  rfl

theorem get?_erase (slots : Slots) (site other : Int) :
    (slots.erase site).get? other = if other = site then none else slots.get? other := by
  induction slots with
  | nil => simp [erase, get?]
  | cons slot rest ih =>
    obtain ⟨key, instant⟩ := slot
    simp only [erase, get?, List.filter_cons, List.lookup_cons] at ih ⊢
    by_cases hkey : key = site <;> by_cases hother : other = key <;> grind

theorem get?_insert (slots : Slots) (site other : Int) (instant : Instant) :
    (slots.insert site instant).get? other =
      if other = site then some instant else slots.get? other := by
  have h := get?_erase slots site other
  simp only [insert, get?, List.lookup_cons] at h ⊢
  by_cases hother : other = site <;> grind

/-- Whether a slot comes before another one: the earlier instant first, and of two with the same
instant that of the site with the smaller id. -/
def isSooner (a b : Int × Instant) : Bool :=
  a.2.isBefore b.2 || (a.2 = b.2 && a.1 ≤ b.1)

/-- The slots, the soonest first. -/
def soonestFirst (slots : Slots) : Slots :=
  slots.mergeSort isSooner

end Slots

end KeepAlive
