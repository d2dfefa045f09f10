import KeepAlive.Proofs.Script.Tokens

/-!
# The grammar of scripts

A script is a list of commands, each of which has its own tokens.  The parser accepts a list of tokens if
and only if it is put together from those of allowed commands.
-/

namespace KeepAlive.Script

namespace Command

/-- What stands between the brackets of a command. -/
def arguments : Command → List Token
  | .onField _ locator => (locator.map Token.text).toList
  | .fillText locator value => [.text locator, .comma, .text value]
  | .clickButton locator => [.text locator]
  | .openUrl url => [.text url]
  | .wait milliseconds => [.integer milliseconds]

/-- The tokens of a command. -/
def tokens (command : Command) : List Token :=
  .name command.name :: .opening :: (command.arguments ++ [.closing])

/-- Whether the command may stand in a script: a wait is not longer than allowed. -/
def IsAllowed : Command → Prop
  | .wait milliseconds => milliseconds ≤ maxWait
  | _ => True

end Command

/-- Whether the tokens are those of the commands, which are allowed. -/
def IsScript (commands : List Command) (ts : List Token) : Prop :=
  (∀ command ∈ commands, command.IsAllowed) ∧ ts = commands.flatMap Command.tokens

theorem isScript_nil {ts : List Token} : IsScript [] ts ↔ ts = [] := by
  simp [IsScript]

theorem isScript_cons {command : Command} {more : List Command} {ts : List Token} :
    IsScript (command :: more) ts ↔
      command.IsAllowed ∧ ∃ rest, IsScript more rest ∧ ts = command.tokens ++ rest := by
  simp only [IsScript, List.forall_mem_cons, List.flatMap_cons]
  constructor
  · rintro ⟨⟨hcommand, hmore⟩, rfl⟩
    exact ⟨hcommand, _, ⟨hmore, rfl⟩, rfl⟩
  · rintro ⟨hcommand, _, ⟨hmore, rfl⟩, rfl⟩
    exact ⟨⟨hcommand, hmore⟩, rfl⟩

namespace Form

/-- Whether the tokens lead from the form to the end of the command. -/
inductive Completes : Form → List Token → Command → Prop
  | done {command : Command} : Completes (.done command) [] command
  | step {form next : Form} {token : Token} {more : List Token} {command : Command} :
      form.advance token = .ok next → Completes next more command →
      Completes form (token :: more) command

variable {form next : Form} {mark token : Token} {ts more : List Token} {command given : Command}

theorem completes_nil_iff : Completes form [] command ↔ form = .done command := by
  constructor
  · rintro ⟨⟩
    rfl
  · rintro rfl
    exact .done

theorem completes_cons_iff : Completes form (token :: more) command ↔
    ∃ next, form.advance token = .ok next ∧ Completes next more command := by
  constructor
  · rintro (_ | ⟨h, hmore⟩)
    exact ⟨_, h, hmore⟩
  · rintro ⟨next, h, hmore⟩
    exact .step h hmore

theorem completes_done_iff : Completes (.done given) ts command ↔ ts = [] ∧ command = given := by
  constructor
  · rintro (_ | ⟨h, _⟩)
    · exact ⟨rfl, rfl⟩
    · cases h
  · rintro ⟨rfl, rfl⟩
    exact .done

theorem completes_mark_iff : Completes (.mark mark next) ts command ↔
    ∃ more, ts = mark :: more ∧ Completes next more command := by
  constructor
  · rintro (_ | ⟨h, hmore⟩)
    rw [advance] at h
    split at h
    · rename_i hmark
      cases h
      exact ⟨_, congrArg (· :: _) hmark, hmore⟩
    · cases h
  · rintro ⟨more, rfl, hmore⟩
    exact .step (if_pos rfl) hmore

theorem completes_textThen_iff {next : String → Form} : Completes (.textThen next) ts command ↔
    ∃ content more, ts = .text content :: more ∧ Completes (next content) more command := by
  constructor
  · rintro (_ | @⟨_, _, token, _, _, h, hmore⟩)
    cases token with
    | text content =>
      cases h
      exact ⟨content, _, rfl, hmore⟩
    | _ => cases h
  · rintro ⟨content, more, rfl, hmore⟩
    exact .step rfl hmore

theorem completes_integerThen_iff {next : Nat → Form} :
    Completes (.integerThen next) ts command ↔
      ∃ value more, value ≤ maxWait ∧ ts = .integer value :: more ∧
        Completes (next value) more command := by
  constructor
  · rintro (_ | @⟨_, _, token, _, _, h, hmore⟩)
    cases token with
    | integer value =>
      rw [advance] at h
      split at h
      · rename_i hvalue
        cases h
        exact ⟨value, _, hvalue, rfl, hmore⟩
      · cases h
    | _ => cases h
  · rintro ⟨value, more, hvalue, rfl, hmore⟩
    exact .step (if_pos hvalue) hmore

theorem completes_of_optionalText {next : Option String → Form}
    (h : Completes (.optionalText next) ts command) :
    (∃ content more, ts = .text content :: more ∧ Completes (next (some content)) more command) ∨
      Completes (next none) ts command := by
  obtain _ | @⟨_, _, token, _, _, h, hmore⟩ := h
  cases token with
  | text content =>
    cases h
    exact Or.inl ⟨content, _, rfl, hmore⟩
  | _ => exact Or.inr (.step h hmore)

theorem eq_of_completes_onField {field : Field} (h : Completes (onField field) ts command) :
    ∃ locator, command = .onField field locator ∧
      ts = .opening :: (command.arguments ++ [.closing]) := by
  obtain ⟨more, rfl, hmore⟩ := completes_mark_iff.1 h
  rcases completes_of_optionalText hmore with ⟨content, rest, rfl, hrest⟩ | hrest
  · obtain ⟨_, rfl, hend⟩ := completes_mark_iff.1 hrest
    obtain ⟨rfl, rfl⟩ := completes_done_iff.1 hend
    exact ⟨some content, rfl, rfl⟩
  · obtain ⟨_, rfl, hend⟩ := completes_mark_iff.1 hrest
    obtain ⟨rfl, rfl⟩ := completes_done_iff.1 hend
    exact ⟨none, rfl, rfl⟩

theorem eq_of_completes_oneText {make : String → Command} (h : Completes (oneText make) ts command) :
    ∃ content, command = make content ∧ ts = [.opening, .text content, .closing] := by
  obtain ⟨_, rfl, htext⟩ := completes_mark_iff.1 h
  obtain ⟨content, _, rfl, hclose⟩ := completes_textThen_iff.1 htext
  obtain ⟨_, rfl, hend⟩ := completes_mark_iff.1 hclose
  obtain ⟨rfl, rfl⟩ := completes_done_iff.1 hend
  exact ⟨content, rfl, rfl⟩

theorem eq_of_completes_fillText (h : Completes fillText ts command) :
    ∃ locator value, command = .fillText locator value ∧
      ts = .opening :: (command.arguments ++ [.closing]) := by
  obtain ⟨_, rfl, hlocator⟩ := completes_mark_iff.1 h
  obtain ⟨locator, _, rfl, hcomma⟩ := completes_textThen_iff.1 hlocator
  obtain ⟨_, rfl, hvalue⟩ := completes_mark_iff.1 hcomma
  obtain ⟨value, _, rfl, hclose⟩ := completes_textThen_iff.1 hvalue
  obtain ⟨_, rfl, hend⟩ := completes_mark_iff.1 hclose
  obtain ⟨rfl, rfl⟩ := completes_done_iff.1 hend
  exact ⟨locator, value, rfl, rfl⟩

theorem eq_of_completes_wait (h : Completes wait ts command) :
    ∃ milliseconds ≤ maxWait, command = .wait milliseconds ∧
      ts = .opening :: (command.arguments ++ [.closing]) := by
  obtain ⟨_, rfl, hinteger⟩ := completes_mark_iff.1 h
  obtain ⟨milliseconds, _, hmost, rfl, hclose⟩ := completes_integerThen_iff.1 hinteger
  obtain ⟨_, rfl, hend⟩ := completes_mark_iff.1 hclose
  obtain ⟨rfl, rfl⟩ := completes_done_iff.1 hend
  exact ⟨milliseconds, hmost, rfl, rfl⟩

theorem mem_table_of_named? {name : String} (h : named? name = some form) : (name, form) ∈ table := by
  obtain ⟨before, after, heq, -⟩ := List.lookup_eq_some_iff.1 h
  rw [heq]
  simp

/-- What completes the form with some name is the rest of an allowed command with that name. -/
theorem tokens_of_completes {name : String} (hform : named? name = some form)
    (h : Completes form ts command) :
    command.IsAllowed ∧ command.tokens = .name name :: ts := by
  have hmem := mem_table_of_named? hform
  simp only [table, List.mem_cons, List.not_mem_nil, or_false, Prod.mk.injEq] at hmem
  rcases hmem with ⟨rfl, rfl⟩ | ⟨rfl, rfl⟩ | ⟨rfl, rfl⟩ | ⟨rfl, rfl⟩ | ⟨rfl, rfl⟩ | ⟨rfl, rfl⟩ |
    ⟨rfl, rfl⟩
  · obtain ⟨locator, rfl, rfl⟩ := eq_of_completes_onField h
    exact ⟨trivial, rfl⟩
  · obtain ⟨locator, rfl, rfl⟩ := eq_of_completes_onField h
    exact ⟨trivial, rfl⟩
  · obtain ⟨locator, rfl, rfl⟩ := eq_of_completes_onField h
    exact ⟨trivial, rfl⟩
  · obtain ⟨locator, value, rfl, rfl⟩ := eq_of_completes_fillText h
    exact ⟨trivial, rfl⟩
  · obtain ⟨content, rfl, rfl⟩ := eq_of_completes_oneText h
    exact ⟨trivial, rfl⟩
  · obtain ⟨content, rfl, rfl⟩ := eq_of_completes_oneText h
    exact ⟨trivial, rfl⟩
  · obtain ⟨milliseconds, hmost, rfl, rfl⟩ := eq_of_completes_wait h
    exact ⟨hmost, rfl⟩

/-- The rest of an allowed command completes the form with its name. -/
theorem exists_completes (h : command.IsAllowed) : ∃ form, named? command.name = some form ∧
    Completes form (.opening :: (command.arguments ++ [.closing])) command := by
  cases command with
  | onField field locator =>
    refine ⟨onField field, by cases field <;> rfl, .step rfl ?_⟩
    cases locator with
    | none => exact .step rfl .done
    | some content => exact .step rfl (.step rfl .done)
  | fillText locator value =>
    exact ⟨fillText, rfl, .step rfl (.step rfl (.step rfl (.step rfl (.step rfl .done))))⟩
  | clickButton locator => exact ⟨oneText .clickButton, rfl, .step rfl (.step rfl (.step rfl .done))⟩
  | openUrl url => exact ⟨oneText .openUrl, rfl, .step rfl (.step rfl (.step rfl .done))⟩
  | wait milliseconds =>
    exact ⟨wait, rfl, .step rfl (.step (if_pos h) (.step rfl .done))⟩

/-- Whether the command that the form belongs to has not ended. -/
def IsOpen (form : Form) : Prop :=
  ∀ command, form ≠ .done command

theorem isOpen_of_named? {name : String} (h : named? name = some form) : form.IsOpen := by
  rintro command rfl
  have hmem := mem_table_of_named? h
  simp [table, onField, fillText, oneText, wait] at hmem

/-- Every command that has begun can be ended. -/
theorem exists_completion (form : Form) : ∃ ts command, Completes form ts command := by
  induction form with
  | done command => exact ⟨[], command, .done⟩
  | mark token next ih =>
    obtain ⟨ts, command, h⟩ := ih
    exact ⟨token :: ts, command, completes_mark_iff.2 ⟨ts, rfl, h⟩⟩
  | optionalText next ih =>
    obtain ⟨ts, command, h⟩ := ih (some "")
    exact ⟨.text "" :: ts, command, .step rfl h⟩
  | textThen next ih =>
    obtain ⟨ts, command, h⟩ := ih ""
    exact ⟨.text "" :: ts, command, .step rfl h⟩
  | integerThen next ih =>
    obtain ⟨ts, command, h⟩ := ih 0
    exact ⟨.integer 0 :: ts, command, .step (if_pos (Nat.zero_le _)) h⟩

end Form

/-- Whether the tokens are those that are still to come of a script, between two commands (`none`) or
inside one. -/
def Accepts : Option Form → List Command → List Token → Prop
  | none, commands, ts => IsScript commands ts
  | some form, commands, ts => ∃ command more head rest, commands = command :: more ∧
      ts = head ++ rest ∧ form.Completes head command ∧ IsScript more rest

section Accepts

variable {form next : Form} {token : Token} {ts : List Token} {command : Command}
  {commands : List Command}

theorem accepts_none_nil : Accepts none commands [] ↔ commands = [] := by
  cases commands with
  | nil => simp [Accepts, isScript_nil]
  | cons command more => simp [Accepts, isScript_cons, Command.tokens]

theorem accepts_name {name : String} : Accepts none commands (.name name :: ts) ↔
    ∃ form, Form.named? name = some form ∧ Accepts (some form) commands ts := by
  constructor
  · intro h
    cases commands with
    | nil => cases isScript_nil.1 h
    | cons command more =>
      obtain ⟨hallowed, rest, hrest, heq⟩ := isScript_cons.1 h
      obtain ⟨form, hform, hcompletes⟩ := Form.exists_completes hallowed
      cases heq
      exact ⟨form, hform, command, more, _, rest, rfl, rfl, hcompletes, hrest⟩
  · rintro ⟨form, hform, command, more, head, rest, rfl, rfl, hcompletes, hrest⟩
    obtain ⟨hallowed, htokens⟩ := Form.tokens_of_completes hform hcompletes
    refine isScript_cons.2 ⟨hallowed, rest, hrest, ?_⟩
    rw [htokens]
    rfl

theorem accepts_of_named? {name : String} (h : Form.named? name = some form) :
    Accepts none commands (.name name :: ts) ↔ Accepts (some form) commands ts := by
  rw [accepts_name]
  constructor
  · rintro ⟨given, hgiven, haccepts⟩
    rw [h] at hgiven
    cases hgiven
    exact haccepts
  · exact fun haccepts => ⟨form, h, haccepts⟩

theorem not_accepts_of_unknown {name : String} (h : Form.named? name = none) :
    ¬Accepts none commands (.name name :: ts) := by
  intro haccepts
  obtain ⟨form, hform, -⟩ := accepts_name.1 haccepts
  rw [h] at hform
  cases hform

theorem not_accepts_of_ne_name (h : ∀ name, token ≠ .name name) :
    ¬Accepts none commands (token :: ts) := by
  intro haccepts
  cases commands with
  | nil => cases isScript_nil.1 haccepts
  | cons command more =>
    obtain ⟨-, rest, -, heq⟩ := isScript_cons.1 haccepts
    cases heq
    exact h _ rfl

theorem not_accepts_end (h : form.IsOpen) : ¬Accepts (some form) commands [] := by
  rintro ⟨command, more, head, rest, -, heq, hcompletes, -⟩
  obtain ⟨rfl, -⟩ := List.append_eq_nil_iff.1 heq.symm
  exact h command (Form.completes_nil_iff.1 hcompletes)

theorem accepts_advance (hform : form.IsOpen) (h : form.advance token = .ok next) :
    Accepts (some form) commands (token :: ts) ↔ Accepts (some next) commands ts := by
  constructor
  · rintro ⟨command, more, head, rest, rfl, heq, hcompletes, hrest⟩
    cases head with
    | nil => exact absurd (Form.completes_nil_iff.1 hcompletes) (hform command)
    | cons first head =>
      cases heq
      obtain ⟨next', hnext, hhead⟩ := Form.completes_cons_iff.1 hcompletes
      rw [h] at hnext
      cases hnext
      exact ⟨command, more, head, rest, rfl, rfl, hhead, hrest⟩
  · rintro ⟨command, more, head, rest, rfl, rfl, hcompletes, hrest⟩
    exact ⟨command, more, token :: head, rest, rfl, rfl, .step h hcompletes, hrest⟩

theorem accepts_done : Accepts (some (.done command)) commands ts ↔
    ∃ more, commands = command :: more ∧ Accepts none more ts := by
  constructor
  · rintro ⟨given, more, head, rest, rfl, rfl, hcompletes, hrest⟩
    obtain ⟨rfl, rfl⟩ := Form.completes_done_iff.1 hcompletes
    exact ⟨more, rfl, hrest⟩
  · rintro ⟨more, rfl, hmore⟩
    exact ⟨command, more, [], ts, rfl, rfl, .done, hmore⟩

theorem not_accepts_of_error {cause : Cause} (hform : form.IsOpen)
    (h : form.advance token = .error cause) : ¬Accepts (some form) commands (token :: ts) := by
  rintro ⟨command, more, head, rest, rfl, heq, hcompletes, -⟩
  cases head with
  | nil => exact hform command (Form.completes_nil_iff.1 hcompletes)
  | cons first head =>
    cases heq
    obtain ⟨next, hnext, -⟩ := Form.completes_cons_iff.1 hcompletes
    rw [h] at hnext
    cases hnext

end Accepts

/-- The parser accepts what the grammar does. -/
theorem commandsFrom_eq_ok_iff {last : Nat} {state : Option Form} {found : List (Nat × Token)}
    {commands : List Command} (hstate : ∀ form, state = some form → form.IsOpen) :
    commandsFrom last state found = .ok commands ↔ Accepts state commands (found.map (·.2)) := by
  have hbetween : ∀ form, (none : Option Form) = some form → form.IsOpen := nofun
  fun_induction commandsFrom last state found generalizing commands with
  | case1 =>
    rw [List.map_nil, accepts_none_nil, Except.ok.injEq, eq_comm]
  | case2 form =>
    exact iff_of_false nofun (not_accepts_end (hstate form rfl))
  | case3 place name rest form hname ih =>
    rw [List.map_cons, accepts_of_named? hname]
    exact ih fun _ h => Option.some.inj h ▸ Form.isOpen_of_named? hname
  | case4 place name rest hname =>
    exact iff_of_false nofun (not_accepts_of_unknown hname)
  | case5 place token rest hnone =>
    exact iff_of_false nofun (not_accepts_of_ne_name hnone)
  | case6 form place token rest cause hadvance =>
    exact iff_of_false nofun (not_accepts_of_error (hstate form rfl) hadvance)
  | case7 form place token rest command hadvance ih =>
    rw [List.map_cons, accepts_advance (hstate form rfl) hadvance, accepts_done, map_eq_ok_iff]
    constructor
    · rintro ⟨more, hmore, rfl⟩
      exact ⟨more, rfl, (ih hbetween).1 hmore⟩
    · rintro ⟨more, rfl, hmore⟩
      exact ⟨more, (ih hbetween).2 hmore, rfl⟩
  | case8 form place token rest next hnext hadvance ih =>
    rw [List.map_cons, accepts_advance (hstate form rfl) hadvance]
    exact ih fun _ h => Option.some.inj h ▸ hnext

theorem commandsFrom_none_eq_ok_iff {last : Nat} {found : List (Nat × Token)}
    {commands : List Command} :
    commandsFrom last none found = .ok commands ↔ IsScript commands (found.map (·.2)) :=
  commandsFrom_eq_ok_iff nofun

end KeepAlive.Script
