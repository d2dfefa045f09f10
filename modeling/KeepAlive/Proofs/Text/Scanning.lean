import KeepAlive.Proofs.Text.Runs
import KeepAlive.Text.Scan

/-!
# What scans give

What a scan gives from a text is put together from what its parts give, each from what the one before
it has left.
-/

namespace KeepAlive.Text.Scan

variable {α β : Type} {s middle rest last : List Char}

/-- Whether a scan gives the value from a text and leaves the rest of it. -/
def Gives (scan : Scan α) (s : List Char) (a : α) (rest : List Char) : Prop :=
  ∃ h : rest.length ≤ s.length, scan.run s = .ok (a, ⟨rest, h⟩)

theorem gives_of_run {scan : Scan α} {a : α} {left : { rest : List Char // rest.length ≤ s.length }}
    (h : scan.run s = .ok (a, left)) : scan.Gives s a left.val :=
  ⟨left.property, h⟩

theorem Gives.unique {scan : Scan α} {a b : α} (ha : scan.Gives s a rest)
    (hb : scan.Gives s b last) : a = b ∧ rest = last := by
  obtain ⟨_, ha⟩ := ha
  obtain ⟨_, hb⟩ := hb
  rw [ha] at hb
  cases hb
  exact ⟨rfl, rfl⟩

theorem gives_pure (a : α) (s : List Char) : (pure a : Scan α).Gives s a s :=
  ⟨Nat.le_refl _, rfl⟩

theorem Gives.eq_of_pure {a b : α} (h : (pure a : Scan α).Gives s b rest) : b = a ∧ rest = s :=
  h.unique (gives_pure a s)

theorem not_gives_stop {a : α} : ¬(stop : Scan α).Gives s a rest := by
  rintro ⟨_, hrun⟩
  cases hrun

theorem Gives.bind {scan : Scan α} {next : α → Scan β} {a : α} {b : β}
    (hscan : scan.Gives s a middle) (hnext : (next a).Gives middle b rest) :
    (scan >>= next).Gives s b rest := by
  obtain ⟨hmiddle, hrun⟩ := hscan
  obtain ⟨hrest, hmore⟩ := hnext
  refine ⟨Nat.le_trans hrest hmiddle, ?_⟩
  simp only [Bind.bind, hrun, hmore]

theorem Gives.exists_of_bind {scan : Scan α} {next : α → Scan β} {b : β}
    (h : (scan >>= next).Gives s b rest) :
    ∃ a middle, scan.Gives s a middle ∧ (next a).Gives middle b rest := by
  obtain ⟨_, hrun⟩ := h
  simp only [Bind.bind] at hrun
  split at hrun
  · cases hrun
  · rename_i a middle hmiddle hscan
    split at hrun
    · cases hrun
    · rename_i hmore
      cases hrun
      exact ⟨a, middle, ⟨hmiddle, hscan⟩, ⟨_, hmore⟩⟩

/-- After a scanner that is known to give something the next one starts where that ends. -/
theorem Gives.of_bind {scan : Scan α} {next : α → Scan β} {a : α} {b : β}
    (h : (scan >>= next).Gives s b rest) (hscan : scan.Gives s a middle) :
    (next a).Gives middle b rest := by
  obtain ⟨_, _, hfirst, hmore⟩ := h.exists_of_bind
  obtain ⟨rfl, rfl⟩ := hfirst.unique hscan
  exact hmore

theorem Gives.map {scan : Scan α} {a : α} (f : α → β) (h : scan.Gives s a rest) :
    (f <$> scan).Gives s (f a) rest := by
  change (scan >>= fun a => pure (f a)).Gives s (f a) rest
  exact h.bind (gives_pure (f a) rest)

theorem Gives.exists_of_map {scan : Scan α} {f : α → β} {b : β} (h : (f <$> scan).Gives s b rest) :
    ∃ a, scan.Gives s a rest ∧ f a = b := by
  change (scan >>= fun a => pure (f a)).Gives s b rest at h
  obtain ⟨a, middle, hscan, hpure⟩ := h.exists_of_bind
  obtain ⟨rfl, rfl⟩ := hpure.unique (gives_pure (f a) middle)
  exact ⟨a, hscan, rfl⟩

theorem gives_blanks (s : List Char) : blanks.Gives s () (dropBlanks s) :=
  ⟨_, rfl⟩

theorem gives_ahead (s : List Char) : ahead.Gives s s s :=
  ⟨Nat.le_refl _, rfl⟩

theorem gives_skip (count : Nat) (s : List Char) : (skip count).Gives s () (s.drop count) :=
  ⟨_, rfl⟩

theorem gives_takeWhile (isWanted : Char → Bool) (s : List Char) :
    (takeWhile isWanted).Gives s (s.takeWhile isWanted) (s.dropWhile isWanted) := by
  have hsplit := List.takeWhile_append_dropWhile (p := isWanted) (l := s)
  have hdrop : s.drop (s.takeWhile isWanted).length = s.dropWhile isWanted := by
    calc s.drop (s.takeWhile isWanted).length
        = (s.takeWhile isWanted ++ s.dropWhile isWanted).drop (s.takeWhile isWanted).length := by
          rw [hsplit]
      _ = s.dropWhile isWanted := List.drop_left
  refine (gives_ahead s).bind ((gives_skip _ s).bind ?_)
  rw [hdrop]
  exact gives_pure _ _

/-! ### Marks -/

theorem gives_accept_true {mark : String} (h : dropBlanks s = mark.toList ++ rest) :
    (accept mark).Gives s true rest := by
  refine (gives_blanks s).bind ((gives_ahead _).bind ?_)
  have hmark : mark.toList.isPrefixOf (dropBlanks s) = true :=
    List.isPrefixOf_iff_prefix.2 ⟨rest, h.symm⟩
  rw [if_pos hmark, h]
  refine (gives_skip _ _).bind ?_
  rw [← String.length_toList, List.drop_left]
  exact gives_pure _ _

theorem gives_accept_false {mark : String} (h : ¬mark.toList <+: dropBlanks s) :
    (accept mark).Gives s false (dropBlanks s) := by
  refine (gives_blanks s).bind ((gives_ahead _).bind ?_)
  rw [if_neg (mt List.isPrefixOf_iff_prefix.1 h)]
  exact gives_pure _ _

theorem gives_expect {mark : String} (h : dropBlanks s = mark.toList ++ rest) :
    (expect mark).Gives s () rest :=
  (gives_accept_true h).bind (gives_pure () rest)

theorem Gives.eq_append_of_accept {mark : String} (h : (accept mark).Gives s true rest) :
    dropBlanks s = mark.toList ++ rest := by
  by_cases hprefix : mark.toList <+: dropBlanks s
  · obtain ⟨after, hafter⟩ := hprefix
    obtain ⟨-, rfl⟩ := h.unique (gives_accept_true hafter.symm)
    exact hafter.symm
  · exact absurd (h.unique (gives_accept_false hprefix)).1 (by decide)

theorem Gives.eq_of_not_accept {mark : String} (h : (accept mark).Gives s false rest) :
    rest = dropBlanks s := by
  by_cases hprefix : mark.toList <+: dropBlanks s
  · obtain ⟨after, hafter⟩ := hprefix
    exact absurd (h.unique (gives_accept_true hafter.symm)).1 (by decide)
  · exact (h.unique (gives_accept_false hprefix)).2

theorem Gives.eq_append_of_expect {mark : String} (h : (expect mark).Gives s () rest) :
    dropBlanks s = mark.toList ++ rest := by
  obtain ⟨accepted, middle, haccept, hmore⟩ := h.exists_of_bind
  cases accepted with
  | true =>
    obtain ⟨-, rfl⟩ := hmore.eq_of_pure
    exact haccept.eq_append_of_accept
  | false => exact absurd hmore not_gives_stop

/-- Passing over a mark takes its characters. -/
theorem length_lt_of_accept {mark : String} (hmark : mark ≠ "")
    (h : (accept mark).Gives s true rest) : rest.length < s.length := by
  have hlength := congrArg List.length h.eq_append_of_accept
  have hle := length_dropBlanks_le s
  have hpos : 0 < mark.toList.length := List.length_pos_iff.2 (by simpa using hmark)
  rw [List.length_append] at hlength
  omega

/-! ### Repeated scans -/

theorem collected_none {next : Scan (Option α)} (h : next.Gives s none rest) (room : List Char) :
    ∃ hrest, collected next room s = .ok ([], ⟨rest, hrest⟩) := by
  obtain ⟨hrest, hrun⟩ := h
  refine ⟨hrest, ?_⟩
  cases room <;> rw [collected, hrun]

theorem Gives.collect_nil {next : Scan (Option α)} (h : next.Gives s none rest) :
    (collect next).Gives s [] rest :=
  collected_none h s

/-- A scan that reads something whenever it gives something is repeated as long as it does. -/
theorem Gives.collect_cons {next : Scan (Option α)} (hreads : Reads next) {a : α} {more : List α}
    (h : next.Gives s (some a) middle) (hmore : (collect next).Gives middle more rest) :
    (collect next).Gives s (a :: more) rest := by
  obtain ⟨hmiddle, hrun⟩ := h
  obtain ⟨hrest, hcollected⟩ := hmore
  have hshorter : middle.length < s.length := hreads _ _ _ hrun
  refine ⟨Nat.le_trans hrest hmiddle, ?_⟩
  change collected next s s = _
  change collected next middle middle = _ at hcollected
  cases s with
  | nil => cases hshorter
  | cons c room =>
    have hroom : middle.length ≤ room.length := Nat.le_of_lt_succ hshorter
    rw [collected, hrun]
    simp only [collected_eq_of_le hreads hroom (Nat.le_refl _), hcollected]

theorem Gives.many_nil {start : Scan Bool} (item : Scan α) (h : start.Gives s false rest) :
    (many start item).Gives s [] rest :=
  (h.bind (gives_pure none rest)).collect_nil

/-- Whether an item takes at least one character, its announcement included. -/
def Takes (start : Scan Bool) (item : Scan α) : Prop :=
  Reads do if ← start then some <$> item else return none

theorem takes_of_length_lt {start : Scan Bool} {item : Scan α}
    (h : ∀ s middle rest a, start.Gives s true middle → item.Gives middle a rest →
      rest.length < s.length) : Takes start item := by
  intro s first left hrun
  obtain ⟨announced, middle, hstart, hmore⟩ := (gives_of_run hrun).exists_of_bind
  cases announced with
  | false =>
    have hnone := (hmore.unique (gives_pure none middle)).1
    cases hnone
  | true =>
    obtain ⟨a, hitem, -⟩ := Gives.exists_of_map hmore
    exact h s middle left a hstart hitem

theorem Gives.many_cons {start : Scan Bool} {item : Scan α} (htakes : Takes start item) {a : α}
    {more : List α} (hstart : start.Gives s true middle) (hitem : item.Gives middle a rest)
    (hmore : (many start item).Gives rest more last) : (many start item).Gives s (a :: more) last :=
  (hstart.bind (hitem.map some)).collect_cons htakes hmore

/-- A repeated scan is over, or it has given an item and goes on behind it. -/
theorem Gives.exists_of_many {start : Scan Bool} {item : Scan α} (htakes : Takes start item)
    {found : List α} (h : (many start item).Gives s found rest) :
    (found = [] ∧ start.Gives s false rest) ∨
      ∃ a more middle after, found = a :: more ∧ start.Gives s true middle ∧
        item.Gives middle a after ∧ (many start item).Gives after more rest := by
  obtain ⟨hrest, hrun⟩ := h
  simp only [many, collect] at hrun
  rw [collected] at hrun
  split at hrun
  · cases hrun
  · rename_i left hnone
    cases hrun
    obtain ⟨announced, middle, hstart, hmore⟩ := (gives_of_run hnone).exists_of_bind
    cases announced with
    | true =>
      obtain ⟨_, -, hsome⟩ := Gives.exists_of_map hmore
      cases hsome
    | false =>
      obtain ⟨-, rfl⟩ := hmore.eq_of_pure
      exact .inl ⟨rfl, hstart⟩
  · rename_i first after hafter hfirst
    have hshorter : after.length < s.length := htakes _ _ _ hfirst
    obtain ⟨announced, middle, hstart, hmore⟩ := (gives_of_run hfirst).exists_of_bind
    cases announced with
    | false => cases hmore.eq_of_pure.1
    | true =>
      obtain ⟨_, hitem, hsome⟩ := Gives.exists_of_map hmore
      cases hsome
      cases s with
      | nil => cases hshorter
      | cons c room =>
        have hroom : after.length ≤ room.length := Nat.le_of_lt_succ hshorter
        simp only [collected_eq_of_le htakes hroom (Nat.le_refl _)] at hrun
        split at hrun
        · cases hrun
        · rename_i more last hlast hcollected
          cases hrun
          exact .inr ⟨first, more, middle, after, rfl, hstart, hitem, hlast, hcollected⟩

end KeepAlive.Text.Scan
