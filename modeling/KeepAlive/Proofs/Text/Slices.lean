import KeepAlive.Proofs.Text.Letters
import KeepAlive.Proofs.Text.Runs

/-!
# Slices of text by bytes

A text may be cut at a byte only where one of its characters begins or where it ends.  A cursor reads a
text from the byte up to which it has come, and gives nothing as soon as it cuts elsewhere.
-/

namespace KeepAlive.Text

/-- What a text holds from a byte on, if it may be cut there. -/
def sliceFrom? : List Char → Nat → Option (List Char)
  | s, 0 => some s
  | [], _ + 1 => none
  | c :: rest, n + 1 => if c.utf8Size ≤ n + 1 then sliceFrom? rest (n + 1 - c.utf8Size) else none

/-- What a text holds before a byte, if it may be cut there. -/
def sliceTo? : List Char → Nat → Option (List Char)
  | _, 0 => some []
  | [], _ + 1 => none
  | c :: rest, n + 1 =>
    if c.utf8Size ≤ n + 1 then (sliceTo? rest (n + 1 - c.utf8Size)).map (c :: ·) else none

/-- The byte at which the first character of a class begins. -/
def offset? (isWanted : Char → Bool) : List Char → Option Nat
  | [] => none
  | c :: rest => if isWanted c then some 0 else (offset? isWanted rest).map (c.utf8Size + ·)

/-- The byte at which the first occurrence of `mark` begins. -/
def offsetOf? (mark : List Char) : List Char → Option Nat
  | [] => if mark.isEmpty then some 0 else none
  | c :: rest =>
    if mark.isPrefixOf (c :: rest) then some 0 else (offsetOf? mark rest).map (c.utf8Size + ·)

/-- Whether the text may be cut at the byte. -/
def IsBoundary (s : List Char) (byte : Nat) : Prop :=
  ∃ front rest, s = front ++ rest ∧ byteLength front = byte

/-! ## Cutting -/

section Slices

variable {s front rest : List Char} {byte : Nat} {isWanted : Char → Bool}

theorem sliceFrom?_append (front rest : List Char) :
    sliceFrom? (front ++ rest) (byteLength front) = some rest := by
  induction front with
  | nil => rw [List.nil_append, byteLength_nil, sliceFrom?]
  | cons c front ih =>
    obtain ⟨n, hn⟩ := Nat.exists_eq_add_one_of_ne_zero (Nat.ne_of_gt (Nat.add_pos_left c.utf8Size_pos
      (byteLength front)))
    rw [List.cons_append, byteLength_cons, hn, sliceFrom?, ← hn, if_pos (Nat.le_add_right _ _),
      Nat.add_sub_cancel_left, ih]

theorem sliceTo?_append (front rest : List Char) :
    sliceTo? (front ++ rest) (byteLength front) = some front := by
  induction front with
  | nil => rw [List.nil_append, byteLength_nil, sliceTo?]
  | cons c front ih =>
    obtain ⟨n, hn⟩ := Nat.exists_eq_add_one_of_ne_zero (Nat.ne_of_gt (Nat.add_pos_left c.utf8Size_pos
      (byteLength front)))
    rw [List.cons_append, byteLength_cons, hn, sliceTo?, ← hn, if_pos (Nat.le_add_right _ _),
      Nat.add_sub_cancel_left, ih, Option.map_some]

theorem sliceFrom?_byteLength (s : List Char) : sliceFrom? s (byteLength s) = some [] := by
  have h := sliceFrom?_append s []
  rwa [List.append_nil] at h

theorem exists_of_sliceFrom? (h : sliceFrom? s byte = some rest) :
    ∃ front, s = front ++ rest ∧ byteLength front = byte := by
  induction s generalizing byte with
  | nil =>
    cases byte with
    | zero =>
      cases h
      exact ⟨[], rfl, rfl⟩
    | succ n => cases h
  | cons c s ih =>
    cases byte with
    | zero =>
      cases h
      exact ⟨[], rfl, rfl⟩
    | succ n =>
      obtain ⟨hfits, hrest⟩ := Option.ite_none_right_eq_some.1 h
      obtain ⟨front, rfl, hbytes⟩ := ih hrest
      refine ⟨c :: front, rfl, ?_⟩
      rw [byteLength_cons, hbytes, Nat.add_sub_of_le hfits]

theorem isBoundary_iff_exists_slice : IsBoundary s byte ↔ ∃ rest, sliceFrom? s byte = some rest := by
  constructor
  · rintro ⟨front, rest, rfl, rfl⟩
    exact ⟨rest, sliceFrom?_append front rest⟩
  · rintro ⟨rest, h⟩
    obtain ⟨front, hs, hbytes⟩ := exists_of_sliceFrom? h
    exact ⟨front, rest, hs, hbytes⟩

theorem IsBoundary.le (h : IsBoundary s byte) : byte ≤ byteLength s := by
  obtain ⟨front, rest, rfl, rfl⟩ := h
  rw [byteLength_append]
  exact Nat.le_add_right _ _

theorem sliceFrom?_add (front : List Char) (h : sliceFrom? s byte = some (front ++ rest)) :
    sliceFrom? s (byte + byteLength front) = some rest := by
  obtain ⟨before, rfl, rfl⟩ := exists_of_sliceFrom? h
  rw [← List.append_assoc, ← byteLength_append, sliceFrom?_append]

/-- The less of a text is left, the later is the byte up to which it was read. -/
theorem lt_of_length_lt {next : Nat} {left : List Char} (h : sliceFrom? s byte = some rest)
    (hnext : sliceFrom? s next = some left) (hless : left.length < rest.length) : byte < next := by
  obtain ⟨front, hfront, rfl⟩ := exists_of_sliceFrom? h
  obtain ⟨before, hbefore, rfl⟩ := exists_of_sliceFrom? hnext
  rcases List.append_eq_append_iff.1 (hfront.symm.trans hbefore) with
    ⟨read, rfl, hread⟩ | ⟨read, -, hread⟩
  · rw [byteLength_append]
    cases read with
    | nil => simp [hread] at hless
    | cons c read =>
      have hpos := c.utf8Size_pos
      rw [byteLength_cons]
      omega
  · have hlength := congrArg List.length hread
    rw [List.length_append] at hlength
    omega

theorem lt_byteLength_iff (h : sliceFrom? s byte = some rest) :
    byte < byteLength s ↔ rest ≠ [] := by
  obtain ⟨front, rfl, rfl⟩ := exists_of_sliceFrom? h
  rw [byteLength_append]
  cases rest with
  | nil => simp
  | cons c rest =>
    have hpos := c.utf8Size_pos
    rw [byteLength_cons]
    exact iff_of_true (by omega) (List.cons_ne_nil c rest)

/-! ## Finding -/

theorem offset?_eq : offset? isWanted s =
    if s.any isWanted then some (byteLength (s.takeWhile fun c => !isWanted c)) else none := by
  induction s with
  | nil => rfl
  | cons c s ih =>
    rw [offset?, List.any_cons, List.takeWhile_cons]
    cases hwanted : isWanted c with
    | true => rfl
    | false =>
      rw [if_neg Bool.false_ne_true, ih]
      by_cases hany : s.any isWanted = true
      · simp [hany]
      · simp [hany]

theorem offset?_getD (isWanted : Char → Bool) (s : List Char) :
    (offset? isWanted s).getD (byteLength s) =
      byteLength (s.takeWhile fun c => !isWanted c) := by
  rw [offset?_eq]
  by_cases hany : s.any isWanted = true
  · rw [if_pos hany, Option.getD_some]
  · have hrun : ∀ c ∈ s, (!isWanted c) = true := by simpa using hany
    have hall := takeWhile_run hrun stopsAt_nil
    rw [List.append_nil] at hall
    rw [if_neg hany, Option.getD_none, hall]

theorem offsetOf?_eq (mark s : List Char) :
    offsetOf? mark s = (splitAtFirst mark s).map fun parts => byteLength parts.1 := by
  induction s with
  | nil =>
    rw [offsetOf?, splitAtFirst]
    split <;> rfl
  | cons c s ih =>
    rw [offsetOf?, splitAtFirst]
    split
    · rfl
    · rw [ih, Option.map_map, Option.map_map]
      rfl

theorem utf8Size_eq_one {c : Char} (h : c.toNat < 128) : c.utf8Size = 1 :=
  Char.utf8Size_eq_one_iff.2 (UInt32.le_iff_toNat_le.2 (Nat.le_of_lt_succ h))

/-- Letters of either case have one byte each. -/
theorem utf8Size_toLower (c : Char) : c.toLower.utf8Size = c.utf8Size := by
  by_cases hupper : c.isUpper = true
  · have hcode := isUpper_iff_toNat.1 hupper
    have hlower : c.toLower.isAlpha = true := by
      rw [Char.isAlpha_toLower_eq_isAlpha, Char.isAlpha, hupper, Bool.true_or]
    have hsmall := isAlpha_iff_toNat.1 hlower
    rw [utf8Size_eq_one (c := c) (by omega), utf8Size_eq_one (by omega)]
  · rw [Char.toLower_eq_of_not_isUpper hupper]

theorem byteLength_asciiLower (s : List Char) : byteLength (asciiLower s) = byteLength s := by
  induction s with
  | nil => rfl
  | cons c s ih =>
    change c.toLower.utf8Size + byteLength (asciiLower s) = _
    rw [utf8Size_toLower, ih, byteLength_cons]

end Slices

/-! ## Cursors -/

/-- A reader of a text that keeps the byte up to which it has come. -/
abbrev Cursor :=
  StateT Nat Option

namespace Cursor

variable {α β : Type} {s before middle after : List Char}

/-- What is still to be read. -/
def rest (s : List Char) : Cursor (List Char) :=
  fun byte => (sliceFrom? s byte).map (·, byte)

/-- Goes on by so many bytes. -/
def advance (bytes : Nat) : Cursor Unit :=
  fun byte => some ((), byte + bytes)

/-- Goes to the end. -/
def finish (s : List Char) : Cursor Unit :=
  fun _ => some ((), byteLength s)

/-- Whether the cursor gives the value where the first text is left to be read, and leaves the
second. -/
def Gives (s : List Char) (cursor : Cursor α) (before : List Char) (a : α) (after : List Char) :
    Prop :=
  ∀ byte, sliceFrom? s byte = some before →
    ∃ next, cursor byte = some (a, next) ∧ sliceFrom? s next = some after

theorem gives_pure (a : α) : Gives s (pure a) before a before :=
  fun byte h => ⟨byte, rfl, h⟩

theorem Gives.bind {cursor : Cursor α} {more : α → Cursor β} {a : α} {b : β}
    (h : Gives s cursor before a middle) (hmore : Gives s (more a) middle b after) :
    Gives s (cursor >>= more) before b after := by
  intro byte hbyte
  obtain ⟨next, hnext, hslice⟩ := h byte hbyte
  obtain ⟨last, hlast, hrest⟩ := hmore next hslice
  refine ⟨last, ?_, hrest⟩
  change (cursor byte).bind (fun found => more found.1 found.2) = _
  rw [hnext]
  exact hlast

theorem gives_lift {found : Option α} {a : α} (h : found = some a) :
    Gives s (liftM found) before a before := by
  subst h
  exact gives_pure a

theorem gives_rest : Gives s (rest s) before before before :=
  fun byte h => ⟨byte, by rw [rest, h, Option.map_some], h⟩

theorem gives_advance (front : List Char) {bytes : Nat} (hbefore : before = front ++ after)
    (hbytes : byteLength front = bytes) : Gives s (advance bytes) before () after :=
  fun _ h => ⟨_, rfl, hbytes ▸ sliceFrom?_add front (hbefore ▸ h)⟩

theorem gives_finish : Gives s (finish s) before () [] :=
  fun _ _ => ⟨_, rfl, sliceFrom?_byteLength s⟩

end Cursor

end KeepAlive.Text
