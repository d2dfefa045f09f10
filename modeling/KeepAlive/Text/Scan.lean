import KeepAlive.Text.Character

/-!
# Reading text from left to right

A scan reads part of a text and leaves the rest, which is never longer than the text.  So a loop over
a scan that always reads something is over after as many rounds as the text has characters.
-/

namespace KeepAlive.Text

/-- A reader of part of a text: it gives a value and what follows, which is never longer, or it
stops in front of what it does not understand. -/
structure Scan (α : Type) where
  run : (s : List Char) → Except (List Char) (α × { rest : List Char // rest.length ≤ s.length })

namespace Scan

instance : Monad Scan where
  pure a := ⟨fun s => .ok (a, ⟨s, Nat.le_refl _⟩)⟩
  bind x f := ⟨fun s =>
    match x.run s with
    | .error stop => .error stop
    | .ok (a, ⟨middle, hm⟩) =>
      match (f a).run middle with
      | .error stop => .error stop
      | .ok (b, ⟨rest, hr⟩) => .ok (b, ⟨rest, Nat.le_trans hr hm⟩)⟩

/-- Stops here. -/
def stop {α : Type} : Scan α :=
  ⟨fun s => .error s⟩

/-- Passes over blanks. -/
def blanks : Scan Unit :=
  ⟨fun s => .ok ((), ⟨dropBlanks s, length_dropBlanks_le s⟩)⟩

/-- What is still to be read. -/
def ahead : Scan (List Char) :=
  ⟨fun s => .ok (s, ⟨s, Nat.le_refl _⟩)⟩

/-- Passes over `count` characters. -/
def skip (count : Nat) : Scan Unit :=
  ⟨fun s => .ok ((), ⟨s.drop count, by simp⟩)⟩

/-- Passes over blanks, and over the mark if it follows; says whether it did. -/
def accept (mark : String) : Scan Bool := do
  blanks
  if mark.toList.isPrefixOf (← ahead) then
    skip mark.length
    return true
  else
    return false

/-- Passes over blanks and the mark, which has to follow. -/
def expect (mark : String) : Scan Unit := do
  if ← accept mark then return () else stop

/-- The characters of a class that come next. -/
def takeWhile (isWanted : Char → Bool) : Scan (List Char) := do
  let found := (← ahead).takeWhile isWanted
  skip found.length
  return found

/-- The results of a scan made again and again until it gives nothing, at most once for each character
of `room` and once more.  With the text itself for room, a scan that reads something whenever it gives
something is made often enough. -/
def collected {α : Type} (next : Scan (Option α)) (room s : List Char) :
    Except (List Char) (List α × { rest : List Char // rest.length ≤ s.length }) :=
  match next.run s with
  | .error stop => .error stop
  | .ok (none, rest) => .ok ([], rest)
  | .ok (some first, ⟨rest, hr⟩) =>
    match room with
    | [] => .ok ([first], ⟨rest, hr⟩)
    | _ :: room =>
      match collected next room rest with
      | .error stop => .error stop
      | .ok (more, ⟨last, hl⟩) => .ok (first :: more, ⟨last, Nat.le_trans hl hr⟩)

/-- A scan that reads something whenever it gives something. -/
def Reads {α : Type} (next : Scan (Option α)) : Prop :=
  ∀ s first rest, next.run s = .ok (some first, rest) → rest.val.length < s.length

/-- More room than the text has characters makes no difference. -/
theorem collected_eq_of_le {α : Type} {next : Scan (Option α)} (reads : Reads next)
    {room other s : List Char} (hr : s.length ≤ room.length) (ho : s.length ≤ other.length) :
    collected next room s = collected next other s := by
  induction room generalizing other s with
  | nil =>
    rw [collected, collected]
    split
    · rfl
    · rfl
    · next first rest hs hrun =>
      have shorter : rest.length < s.length := reads _ _ _ hrun
      simp only [List.length_nil] at hr
      omega
  | cons c room ih =>
    rw [collected, collected]
    split
    · rfl
    · rfl
    · next first rest hs hrun =>
      have shorter : rest.length < s.length := reads _ _ _ hrun
      simp only [List.length_cons] at hr
      cases other with
      | nil => simp only [List.length_nil] at ho; omega
      | cons d other =>
        simp only [List.length_cons] at ho
        have same : collected next room rest = collected next other rest :=
          ih (by omega) (by omega)
        simp only [same]

/-- The results of a scan made again and again, until it gives nothing. -/
def collect {α : Type} (next : Scan (Option α)) : Scan (List α) :=
  ⟨fun s => collected next s s⟩

/-- Scans step by step, each step from what the one before it has made of the text, until one gives a
result, at most once for each character of `room` and once more. -/
def iterated {σ α : Type} (step : σ → Scan (σ ⊕ α)) (state : σ) (room s : List Char) :
    Except (List Char) (α × { rest : List Char // rest.length ≤ s.length }) :=
  match (step state).run s with
  | .error stop => .error stop
  | .ok (.inr result, rest) => .ok (result, rest)
  | .ok (.inl next, ⟨rest, hr⟩) =>
    match room with
    | [] => .error s
    | _ :: room =>
      match iterated step next room rest with
      | .error stop => .error stop
      | .ok (result, ⟨last, hl⟩) => .ok (result, ⟨last, Nat.le_trans hl hr⟩)

/-- Scans step by step until a step gives a result.  A step that reads nothing has to give it. -/
def iterate {σ α : Type} (step : σ → Scan (σ ⊕ α)) (state : σ) : Scan α :=
  ⟨fun s => iterated step state s s⟩

/-- As many items as there are, each announced by `start`. -/
def many {α : Type} (start : Scan Bool) (item : Scan α) : Scan (List α) :=
  collect do if ← start then some <$> item else return none

/-- What a scan reads from a text, if it reads all of it. -/
def wholly? {α : Type} (scan : Scan α) (s : List Char) : Option α :=
  match scan.run s with
  | .ok (a, ⟨[], _⟩) => some a
  | _ => none

end Scan

end KeepAlive.Text
