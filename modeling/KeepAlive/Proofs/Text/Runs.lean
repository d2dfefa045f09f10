import KeepAlive.Text.Character

/-!
# Runs of characters

A run of characters of one class ends where something else follows.
-/

namespace KeepAlive.Text

/-- Whether the text is empty or starts with a character outside the class. -/
def StopsAt (isWanted : Char → Bool) (s : List Char) : Prop :=
  ∀ c, s.head? = some c → isWanted c = false

/-- Whether the characters are all blanks. -/
def AreBlank (s : List Char) : Prop :=
  ∀ c ∈ s, isBlank c = true

variable {isWanted : Char → Bool} {run rest : List Char}

theorem areBlank_nil : AreBlank [] :=
  fun _ hc => absurd hc List.not_mem_nil

theorem areBlank_space : AreBlank [' '] :=
  fun c hc => by
    obtain rfl := List.mem_singleton.1 hc
    decide

theorem stopsAt_nil : StopsAt isWanted [] :=
  fun _ h => nomatch h

theorem stopsAt_cons_iff {c : Char} : StopsAt isWanted (c :: rest) ↔ isWanted c = false := by
  simp [StopsAt]

theorem not_prefix_of_stopsAt {mark : Char} {more : List Char} (h : StopsAt (· = mark) rest) :
    ¬mark :: more <+: rest := by
  rintro ⟨after, rfl⟩
  simpa using stopsAt_cons_iff.1 h

theorem takeWhile_run (hrun : ∀ c ∈ run, isWanted c = true) (hrest : StopsAt isWanted rest) :
    (run ++ rest).takeWhile isWanted = run := by
  rw [List.takeWhile_append_of_pos hrun]
  cases rest with
  | nil => simp
  | cons c rest => simp [stopsAt_cons_iff.1 hrest]

theorem takeWhile_ne {mark : Char} (hrun : mark ∉ run) (rest : List Char) :
    (run ++ mark :: rest).takeWhile (· ≠ mark) = run :=
  takeWhile_run (fun _ hc => decide_eq_true fun heq => hrun (heq ▸ hc))
    (stopsAt_cons_iff.2 (by simp))

theorem dropWhile_run (hrun : ∀ c ∈ run, isWanted c = true) (hrest : StopsAt isWanted rest) :
    (run ++ rest).dropWhile isWanted = rest := by
  rw [List.dropWhile_append_of_pos hrun]
  cases rest with
  | nil => rfl
  | cons c rest => rw [List.dropWhile_cons_of_neg (by simp [stopsAt_cons_iff.1 hrest])]

theorem dropWhile_ne {mark : Char} (hrun : mark ∉ run) (rest : List Char) :
    (run ++ mark :: rest).dropWhile (· ≠ mark) = mark :: rest :=
  dropWhile_run (fun _ hc => decide_eq_true fun heq => hrun (heq ▸ hc))
    (stopsAt_cons_iff.2 (by simp))

/-- Blanks end a run of a class that no blank is in. -/
theorem stopsAt_blanks_append (hclass : ∀ c, isBlank c = true → isWanted c = false)
    (hrun : AreBlank run) (hrest : StopsAt isWanted rest) : StopsAt isWanted (run ++ rest) := by
  cases run with
  | nil => exact hrest
  | cons c run => exact stopsAt_cons_iff.2 (hclass c (hrun c List.mem_cons_self))

theorem dropBlanks_append (hrun : AreBlank run) (hrest : StopsAt isBlank rest) :
    dropBlanks (run ++ rest) = rest :=
  dropWhile_run hrun hrest

theorem dropBlanks_of_stopsAt (h : StopsAt isBlank rest) : dropBlanks rest = rest :=
  dropBlanks_append areBlank_nil h

theorem dropBlanks_eq_nil (hrun : AreBlank run) : dropBlanks run = [] := by
  have hdropped := dropBlanks_append hrun stopsAt_nil
  rwa [List.append_nil] at hdropped

theorem stopsAt_of_areBlank (hclass : ∀ c, isBlank c = true → isWanted c = false)
    (hrun : AreBlank run) : StopsAt isWanted run :=
  fun c hc => hclass c (hrun c (List.mem_of_head? hc))

theorem stopsAt_dropBlanks (s : List Char) : StopsAt isBlank (dropBlanks s) := by
  intro c hc
  have hhead := List.head?_dropWhile_not isBlank s
  rw [← dropBlanks, hc] at hhead
  exact hhead

theorem exists_blanks_append (s : List Char) : ∃ blanks, AreBlank blanks ∧ s = blanks ++ dropBlanks s :=
  ⟨s.takeWhile isBlank, List.all_eq_true.1 List.all_takeWhile,
    List.takeWhile_append_dropWhile.symm⟩

theorem dropBlanks_dropBlanks (s : List Char) : dropBlanks (dropBlanks s) = dropBlanks s :=
  dropBlanks_of_stopsAt (stopsAt_dropBlanks s)

end KeepAlive.Text
