import KeepAlive.Proofs.Script.Grammar

/-!
# Written scripts

A text is read as the commands that it is a written form of, and as nothing else; the diagnostic is
missing for the written forms of some commands and for no other text.
-/

namespace KeepAlive.Script

theorem isChain_tokens (command : Command) : command.tokens.IsChain MayFollow := by
  have hmark {token next : Token} (h : next.IsMark) : MayFollow token next := fun _ => h
  have hfree {token next : Token} (h : ¬token.IsRun) : MayFollow token next := fun hrun => absurd hrun h
  cases command with
  | onField field locator =>
    cases locator with
    | none => exact .cons_cons (hmark trivial) (.cons_cons (hfree id) (.singleton _))
    | some content =>
      exact .cons_cons (hmark trivial) (.cons_cons (hfree id) (.cons_cons (hfree id) (.singleton _)))
  | fillText locator value =>
    exact .cons_cons (hmark trivial) (.cons_cons (hfree id) (.cons_cons (hfree id)
      (.cons_cons (hfree id) (.cons_cons (hfree id) (.singleton _)))))
  | clickButton locator | openUrl url =>
    exact .cons_cons (hmark trivial) (.cons_cons (hfree id) (.cons_cons (hfree id) (.singleton _)))
  | wait milliseconds =>
    exact .cons_cons (hmark trivial) (.cons_cons (hfree id) (.cons_cons (hmark trivial) (.singleton _)))

/-- In a script every name and every integer is followed by a mark. -/
theorem isChain_flatMap_tokens (commands : List Command) :
    (commands.flatMap Command.tokens).IsChain MayFollow := by
  induction commands with
  | nil => exact .nil
  | cons command more ih =>
    rw [List.flatMap_cons]
    refine (isChain_tokens command).append ih fun last hlast _ _ hrun => ?_
    -- a command ends with a bracket, which is no run
    have hclosing : command.tokens.getLast? = some .closing := by
      rw [Command.tokens, ← List.cons_append, ← List.cons_append, List.getLast?_concat]
    rw [hclosing] at hlast
    cases hlast
    exact hrun.elim

/-- Whether the text is a written form of the commands: their tokens in order, with blanks before,
between and after them as one likes. -/
def IsWritten (commands : List Command) (source : List Char) : Prop :=
  (∀ command ∈ commands, command.IsAllowed) ∧
    WrittenTokens (commands.flatMap Command.tokens) source

theorem isWritten_of_commandsOf {source : List Char} {commands : List Command}
    (h : commandsOf source = .ok commands) : IsWritten commands source := by
  rw [commandsOf] at h
  split at h
  · cases h
  · rename_i found hfound
    obtain ⟨hallowed, htokens⟩ := commandsFrom_none_eq_ok_iff.1 h
    have hwritten := (tokens_eq_ok_iff.1 hfound).writtenTokens
    rw [htokens] at hwritten
    exact ⟨hallowed, hwritten⟩

theorem commandsOf_of_isWritten {source : List Char} {commands : List Command}
    (h : IsWritten commands source) : commandsOf source = .ok commands := by
  obtain ⟨hallowed, hwritten⟩ := h
  obtain ⟨found, hfound, htokens⟩ :=
    exists_tokens_of_writtenTokens (isChain_flatMap_tokens commands) hwritten 0
  rw [commandsOf, hfound]
  exact commandsFrom_none_eq_ok_iff.2 ⟨hallowed, htokens⟩

/-- No text is a written form of two lists of commands. -/
theorem IsWritten.unique {source : List Char} {commands others : List Command}
    (h : IsWritten commands source) (hothers : IsWritten others source) : commands = others := by
  have hread := commandsOf_of_isWritten h
  rw [commandsOf_of_isWritten hothers] at hread
  exact (Except.ok.inj hread).symm

theorem parse_eq_ok_iff {source : String} {commands : List Command} :
    parse source = .ok commands ↔ commandsOf source.toList = .ok commands := by
  rw [parse]
  split
  · rename_i given hgiven
    rw [hgiven, Except.ok.injEq, Except.ok.injEq]
  · rename_i problem hproblem
    exact iff_of_false nofun (by rw [hproblem]; exact nofun)

theorem check_eq_none_iff {source : String} :
    check source = none ↔ ∃ commands, parse source = .ok commands := by
  rw [check]
  split
  · rename_i commands hcommands
    exact iff_of_true rfl ⟨commands, hcommands⟩
  · rename_i e he
    refine iff_of_false nofun ?_
    rintro ⟨commands, hcommands⟩
    rw [he] at hcommands
    cases hcommands

/-- A text is read as some commands if and only if it is a written form of them, and it is free of a
diagnostic if and only if it is a written form of any. -/
theorem read_exactly_when_written (source : String) (commands : List Command) :
    (parse source = .ok commands ↔ IsWritten commands source.toList) ∧
      (check source = none ↔ ∃ given, IsWritten given source.toList) := by
  have hread (given : List Command) : parse source = .ok given ↔ IsWritten given source.toList :=
    parse_eq_ok_iff.trans ⟨isWritten_of_commandsOf, commandsOf_of_isWritten⟩
  exact ⟨hread commands, check_eq_none_iff.trans (exists_congr hread)⟩

/-- No blank is needed between an argument and a bracket, and an octal escape takes three digits at
most. -/
example : parse "clickButton('\\1012\\q')wait( 007 )" = .ok [.clickButton "A2\\q", .wait 7] := by
  decide +kernel

end KeepAlive.Script
