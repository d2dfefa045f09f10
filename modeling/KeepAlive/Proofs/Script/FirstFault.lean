import KeepAlive.Proofs.Script.Grammar

/-!
# Where a script goes wrong

When the tokens of a text are not those of a script, the parser points at the first token after which
they can no longer be completed to one, or at the end of the text if there is no such token.  The line
and the column of that place are what counting the characters before it gives.
-/

namespace KeepAlive.Script

/-- Whether some tokens can follow so that, from the state on, a script is completed. -/
def Leads (state : Option Form) (ts : List Token) : Prop :=
  ∃ more commands, Accepts state commands (ts ++ more)

/-- Whether some script begins with the tokens. -/
def CanBegin (ts : List Token) : Prop :=
  ∃ more commands, IsScript commands (ts ++ more)

theorem leads_none_iff {ts : List Token} : Leads none ts ↔ CanBegin ts :=
  Iff.rfl

section Leads

variable {form next : Form} {token : Token} {ts : List Token} {command : Command}

theorem leads_nil (state : Option Form) : Leads state [] := by
  cases state with
  | none => exact ⟨[], [], isScript_nil.2 rfl⟩
  | some form =>
    obtain ⟨ts, command, hcompletes⟩ := form.exists_completion
    exact ⟨ts, [command], command, [], ts, [], rfl, (List.append_nil ts).symm, hcompletes,
      isScript_nil.2 rfl⟩

theorem leads_name {name : String} (h : Form.named? name = some form) :
    Leads none (.name name :: ts) ↔ Leads (some form) ts :=
  exists_congr fun _ => exists_congr fun _ => accepts_of_named? h

theorem leads_advance (hform : form.IsOpen) (h : form.advance token = .ok next) :
    Leads (some form) (token :: ts) ↔ Leads (some next) ts :=
  exists_congr fun _ => exists_congr fun _ => accepts_advance hform h

theorem leads_done : Leads (some (.done command)) ts ↔ Leads none ts := by
  refine exists_congr fun more => ?_
  constructor
  · rintro ⟨commands, haccepts⟩
    obtain ⟨others, -, hothers⟩ := accepts_done.1 haccepts
    exact ⟨others, hothers⟩
  · rintro ⟨commands, haccepts⟩
    exact ⟨command :: commands, accepts_done.2 ⟨commands, rfl, haccepts⟩⟩

end Leads

/-- Whether the place is that of the first token with which the tokens, read from the state on, do not
lead to a script, or `last` if there is no such token. -/
def IsFirstFault (last : Nat) (state : Option Form) (found : List (Nat × Token)) (place : Nat) : Prop :=
  ∃ before after, found = before ++ after ∧ Leads state (before.map (·.2)) ∧
    (after = [] ∧ place = last ∨ ∃ token later, after = (place, token) :: later ∧
      ¬Leads state (before.map (·.2) ++ [token]))

section IsFirstFault

variable {last place : Nat} {state next : Option Form} {token : Token} {found : List (Nat × Token)}

theorem isFirstFault_end : IsFirstFault last state [] last :=
  ⟨[], [], rfl, leads_nil state, Or.inl ⟨rfl, rfl⟩⟩

theorem isFirstFault_here (h : ∀ {commands more}, ¬Accepts state commands (token :: more)) :
    IsFirstFault last state ((place, token) :: found) place :=
  ⟨[], _, rfl, leads_nil state, Or.inr ⟨token, found, rfl, fun ⟨_, _, haccepts⟩ => h haccepts⟩⟩

/-- A token that is no fault is gone past. -/
theorem IsFirstFault.cons (hstep : ∀ ts, Leads state (token :: ts) ↔ Leads next ts) {fault : Nat}
    (h : IsFirstFault last next found fault) :
    IsFirstFault last state ((place, token) :: found) fault := by
  obtain ⟨before, after, rfl, hbefore, hafter⟩ := h
  refine ⟨(place, token) :: before, after, rfl, (hstep _).2 hbefore, hafter.imp_right ?_⟩
  rintro ⟨wrong, later, rfl, hwrong⟩
  exact ⟨wrong, later, rfl, fun hleads => hwrong ((hstep _).1 hleads)⟩

end IsFirstFault

/-- The parser stops at the first fault. -/
theorem isFirstFault_of_commandsFrom {last : Nat} {state : Option Form} {found : List (Nat × Token)}
    {problem : Problem} (hstate : ∀ form, state = some form → form.IsOpen)
    (h : commandsFrom last state found = .error problem) :
    IsFirstFault last state found problem.place := by
  have hbetween (form : Form) (heq : none = some form) : form.IsOpen := by cases heq
  fun_induction commandsFrom last state found with
  | case1 => cases h
  | case2 form =>
    cases h
    exact isFirstFault_end
  | case3 place name rest form hname ih =>
    exact (ih (fun _ heq => Option.some.inj heq ▸ Form.isOpen_of_named? hname) h).cons
      fun _ => leads_name hname
  | case4 place name rest hname =>
    cases h
    exact isFirstFault_here (not_accepts_of_unknown hname)
  | case5 place token rest hnone =>
    cases h
    exact isFirstFault_here (not_accepts_of_ne_name hnone)
  | case6 form place token rest cause hadvance =>
    cases h
    exact isFirstFault_here (not_accepts_of_error (hstate form rfl) hadvance)
  | case7 form place token rest command hadvance ih =>
    cases hrest : commandsFrom last none rest with
    | ok commands =>
      rw [hrest] at h
      cases h
    | error wrong =>
      rw [hrest] at h
      cases h
      exact (ih hbetween hrest).cons fun _ => (leads_advance (hstate form rfl) hadvance).trans leads_done
  | case8 form place token rest next hnext hadvance ih =>
    exact (ih (fun _ heq => Option.some.inj heq ▸ hnext) h).cons
      fun _ => leads_advance (hstate form rfl) hadvance

/-- The line and the column, both counted from 1, at which a text ends. -/
inductive EndsAt : List Char → Nat → Nat → Prop
  | start : EndsAt [] 1 1
  | newline {read : List Char} {line column : Nat} : EndsAt read line column →
      EndsAt (read ++ ['\n']) (line + 1) 1
  | character {read : List Char} {line column : Nat} {c : Char} : c ≠ '\n' →
      EndsAt read line column → EndsAt (read ++ [c]) line (column + 1)

/-- The position of a place is the end of what stands before it. -/
theorem endsAt_position (read rest : List Char) :
    EndsAt read (position (read ++ rest) read.length).1 (position (read ++ rest) read.length).2 := by
  rw [position, List.take_left]
  induction read using List.reverseRecOn with
  | nil => exact .start
  | append_singleton read c ih =>
    by_cases hc : c = '\n'
    · subst hc
      simpa using EndsAt.newline ih
    · simpa [List.count_append, hc] using EndsAt.character hc ih

/-- Whether an error points at the first token with which the tokens no longer begin a script, or at the
end of the text if all of them together still do. -/
def PointsAtFirstFault (source : List Char) (found : List (Nat × Token)) (e : SyntaxError) : Prop :=
  ∃ before after read rest, found = before ++ after ∧ CanBegin (before.map (·.2)) ∧
    source = read ++ rest ∧ EndsAt read e.line e.column ∧
    (after = [] ∧ rest = [] ∨ ∃ token later spelling more, after = (read.length, token) :: later ∧
      rest = spelling ++ more ∧ WrittenToken token spelling ∧
      ¬CanBegin (before.map (·.2) ++ [token]))

theorem exists_commandsFrom_of_parse {source : String} {found : List (Nat × Token)} {e : SyntaxError}
    (htokens : tokens 0 source.toList = .ok found) (h : parse source = .error e) :
    ∃ problem, commandsFrom source.toList.length none found = .error problem ∧
      (e.line, e.column) = position source.toList problem.place := by
  rw [parse, commandsOf, htokens] at h
  cases hproblem : commandsFrom source.toList.length none found with
  | ok commands =>
    simp only [hproblem] at h
    cases h
  | error problem =>
    simp only [hproblem] at h
    cases h
    exact ⟨problem, rfl, rfl⟩

/-- A text that is cut into tokens but is no script is refused with the position of the first token with
which it can no longer be completed, or of its end. -/
theorem refused_at_first_fault {source : String} {found : List (Nat × Token)} {e : SyntaxError}
    (htokens : tokens 0 source.toList = .ok found) (h : parse source = .error e) :
    PointsAtFirstFault source.toList found e := by
  obtain ⟨problem, hproblem, hposition⟩ := exists_commandsFrom_of_parse htokens h
  obtain ⟨before, after, rfl, hbefore, hafter⟩ := isFirstFault_of_commandsFrom (by nofun) hproblem
  have hends (read rest : List Char) (hsource : source.toList = read ++ rest)
      (hplace : problem.place = read.length) : EndsAt read e.line e.column := by
    have hend := endsAt_position read rest
    rw [← hsource, ← hplace, ← hposition] at hend
    exact hend
  rcases hafter with ⟨rfl, hlast⟩ | ⟨token, later, rfl, hfault⟩
  · exact ⟨before, [], source.toList, [], rfl, leads_none_iff.1 hbefore, (List.append_nil _).symm,
      hends _ [] (List.append_nil _).symm hlast, Or.inl ⟨rfl, rfl⟩⟩
  · obtain ⟨read, spelling, more, hsource, hplace, hspelling⟩ :=
      (tokens_eq_ok_iff.1 htokens).exists_spelling (List.mem_append_right before List.mem_cons_self)
    rw [Nat.zero_add] at hplace
    rw [List.append_assoc] at hsource
    refine ⟨before, _, read, spelling ++ more, rfl, leads_none_iff.1 hbefore, hsource,
      hends read _ hsource hplace, Or.inr ⟨token, later, spelling, more, ?_, rfl, hspelling,
        fun hbegin => hfault (leads_none_iff.2 hbegin)⟩⟩
    rw [hplace]

/-- The second text is refused where it stands, since a comma has to be in front of it. -/
theorem missing_comma_refused_at_second_text :
    tokens 0 "\nfillText('é' 'x')".toList = .ok [(1, .name "fillText"), (9, .opening),
      (10, .text "é"), (14, .text "x"), (17, .closing)] ∧
    parse "\nfillText('é' 'x')" =
      .error ⟨2, 14, .unexpected (.token .comma) (some (.text "x"))⟩ ∧
    PointsAtFirstFault "\nfillText('é' 'x')".toList [(1, .name "fillText"), (9, .opening),
      (10, .text "é"), (14, .text "x"), (17, .closing)]
      ⟨2, 14, .unexpected (.token .comma) (some (.text "x"))⟩ := by
  have htokens : tokens 0 "\nfillText('é' 'x')".toList = .ok [(1, .name "fillText"), (9, .opening),
      (10, .text "é"), (14, .text "x"), (17, .closing)] := by decide +kernel
  have hparse : parse "\nfillText('é' 'x')" =
      .error ⟨2, 14, .unexpected (.token .comma) (some (.text "x"))⟩ := by decide +kernel
  exact ⟨htokens, hparse, refused_at_first_fault htokens hparse⟩

end KeepAlive.Script
