import KeepAlive.Proofs.Script.Written
import Mathlib.Data.List.DropRight

/-!
# A script in front of a text

A text behind a script is read as if it stood alone, only further on.  No token of the script
reaches into the text, since a script ends with a bracket or a blank, and behind it the parser is
between two commands again.  So two scripts give one, and a text that is no script is refused for
its own reason at its own character.
-/

namespace KeepAlive.Script

/-! ### Texts that stand further on -/

/-- The problem of a text that stands `count` characters further on. -/
def Problem.moved (count : Nat) (problem : Problem) : Problem :=
  ⟨count + problem.place, problem.cause⟩

/-- The tokens of a text that stands `count` characters further on. -/
def movedTokens (count : Nat) (found : List (Nat × Token)) : List (Nat × Token) :=
  found.map fun (place, token) => (count + place, token)

/-- What is read as tokens of a text that stands `count` characters further on. -/
def movedReading (count : Nat) (reading : Except Problem (List (Nat × Token))) :
    Except Problem (List (Nat × Token)) :=
  (reading.map (movedTokens count)).mapError (Problem.moved count)

theorem movedReading_map (count place : Nat) (token : Token)
    (reading : Except Problem (List (Nat × Token))) :
    movedReading count (reading.map ((place, token) :: ·)) =
      (movedReading count reading).map ((count + place, token) :: ·) := by
  cases reading with
  | error problem => rfl
  | ok found => rfl

theorem stringBody_add (quote : Char) (count start place : Nat) (s : List Char) :
    stringBody quote (count + start) (count + place) s =
      ((stringBody quote start place s).map fun (content, after, left) =>
        (content, count + after, left)).mapError (Problem.moved count) := by
  fun_induction stringBody quote start place s with
  | case1 place => rw [stringBody]; rfl
  | case2 place rest => rw [stringBody, if_pos rfl]; rfl
  | case3 place rest hnewline => rw [stringBody, if_neg hnewline, if_pos rfl]; rfl
  | case4 place rest cause hescape hnewline hend =>
    rw [stringBody, if_neg hnewline, if_neg hend, if_pos rfl]
    simp only [hescape]
    rfl
  | case5 place rest content width hescape hnewline hend ih =>
    rw [stringBody, if_neg hnewline, if_neg hend, if_pos rfl]
    simp only [hescape]
    have hplace : count + place + 1 + width = count + (place + 1 + width) := by omega
    rw [hplace, ih]
    cases stringBody quote start (place + 1 + width) (rest.drop width) with
    | error problem => rfl
    | ok read => rfl
  | case6 place c rest hnewline hend hslash ih =>
    rw [stringBody, if_neg hnewline, if_neg hend, if_neg hslash]
    rw [Nat.add_assoc count place 1, ih]
    cases stringBody quote start (place + 1) rest with
    | error problem => rfl
    | ok read => rfl

/-- Where a text stands makes no difference to how it is cut into tokens. -/
theorem tokens_add (count place : Nat) (s : List Char) :
    tokens (count + place) s = movedReading count (tokens place s) := by
  fun_induction tokens place s with
  | case1 place => rw [tokens]; rfl
  | case2 place c rest hblank ih =>
    rw [tokens, if_pos hblank]
    exact ih
  | case3 place rest hblank ih =>
    rw [tokens, if_neg hblank, if_pos rfl, movedReading_map, ← ih]
    rfl
  | case4 place rest hblank hopening ih =>
    rw [tokens, if_neg hblank, if_neg hopening, if_pos rfl, movedReading_map, ← ih]
    rfl
  | case5 place rest hblank hopening hclosing ih =>
    rw [tokens, if_neg hblank, if_neg hopening, if_neg hclosing, if_pos rfl, movedReading_map, ← ih]
    rfl
  | case6 place c rest hblank hopening hclosing hcomma hquote problem hread =>
    have hmoved := stringBody_add c count place (place + 1) rest
    rw [hread] at hmoved
    rw [tokens, if_neg hblank, if_neg hopening, if_neg hclosing, if_neg hcomma, if_pos hquote]
    split
    · rename_i other hother
      exact congrArg Except.error (Except.error.inj (hother.symm.trans hmoved))
    · rename_i content after left hother
      cases hother.symm.trans hmoved
  | case7 place c rest hblank hopening hclosing hcomma hquote content after left hread _ ih =>
    have hmoved := stringBody_add c count place (place + 1) rest
    rw [hread] at hmoved
    rw [Bool.or_eq_true, decide_eq_true_eq, decide_eq_true_eq] at hquote
    rw [tokens_text hquote (count + place) hmoved, ih, movedReading_map]
  | case8 place c rest hblank hopening hclosing hcomma hquote hdigit digits hbound ih =>
    rw [tokens_integer hdigit (count + place) rest hbound, Nat.add_assoc, ih, movedReading_map]
  | case9 place c rest hblank hopening hclosing hcomma hquote hdigit digits hbound =>
    rw [tokens, if_neg hblank, if_neg hopening, if_neg hclosing, if_neg hcomma, if_neg hquote,
      if_pos hdigit]
    exact if_neg hbound
  | case10 place c rest hblank hopening hclosing hcomma hquote hdigit hstarts word ih =>
    rw [tokens_name hstarts, Nat.add_assoc, ih, movedReading_map]
  | case11 place c rest hblank hopening hclosing hcomma hquote hdigit hstarts =>
    rw [tokens, if_neg hblank, if_neg hopening, if_neg hclosing, if_neg hcomma, if_neg hquote,
      if_neg hdigit, if_neg hstarts]
    rfl

/-- Inside a command the parser goes on with what a token leaves of its form. -/
theorem commandsFrom_of_advance {last place : Nat} {form next : Form} {token : Token}
    {rest : List (Nat × Token)} (h : form.advance token = .ok next) (hnext : next.IsOpen) :
    commandsFrom last (some form) ((place, token) :: rest) = commandsFrom last (some next) rest := by
  rw [commandsFrom, h]
  cases next with
  | done command => exact absurd rfl (hnext command)
  | mark token next => rfl
  | optionalText next => rfl
  | textThen next => rfl
  | integerThen next => rfl

/-- Where the tokens stand makes no difference to how they are parsed. -/
theorem commandsFrom_movedTokens (count last : Nat) (state : Option Form)
    (found : List (Nat × Token)) :
    commandsFrom (count + last) state (movedTokens count found) =
      (commandsFrom last state found).mapError (Problem.moved count) := by
  fun_induction commandsFrom last state found with
  | case1 => rfl
  | case2 form => rfl
  | case3 place name rest form hname ih =>
    simp only [movedTokens, List.map_cons, commandsFrom, hname]
    exact ih
  | case4 place name rest hname =>
    simp only [movedTokens, List.map_cons, commandsFrom, hname]
    rfl
  | case5 place token rest hnone =>
    rw [movedTokens, List.map_cons, commandsFrom]
    · rfl
    · exact hnone
  | case6 form place token rest cause hadvance =>
    simp only [movedTokens, List.map_cons, commandsFrom, hadvance]
    rfl
  | case7 form place token rest command hadvance ih =>
    simp only [movedTokens, List.map_cons, commandsFrom, hadvance]
    rw [← movedTokens, ih]
    cases commandsFrom last none rest with
    | error problem => rfl
    | ok commands => rfl
  | case8 form place token rest next hnext hadvance ih =>
    rw [movedTokens, List.map_cons]
    exact (commandsFrom_of_advance hadvance hnext).trans ih

/-! ### What follows a script -/

/-- The tokens of a script end with a bracket, if there are any. -/
theorem getLast?_flatMap_tokens {commands : List Command} {token : Token}
    (h : (commands.flatMap Command.tokens).getLast? = some token) : token = .closing := by
  induction commands with
  | nil => cases h
  | cons command more ih =>
    rw [List.flatMap_cons, List.getLast?_append] at h
    cases hmore : (more.flatMap Command.tokens).getLast? with
    | none =>
      have hcommand : command.tokens.getLast? = some .closing := by
        rw [Command.tokens, ← List.cons_append, ← List.cons_append, List.getLast?_concat]
      rw [hmore, hcommand] at h
      exact (Option.some.inj h).symm
    | some other =>
      rw [hmore] at h
      cases h
      exact ih hmore

theorem WrittenToken.ne_nil {token : Token} {spelling : List Char} (h : WrittenToken token spelling) :
    spelling ≠ [] := by
  cases h with
  | integer hsome hdigits hbound => exact hsome
  | name hstarts hmore => exact List.cons_ne_nil _ _
  | opening => exact List.cons_ne_nil _ _
  | closing => exact List.cons_ne_nil _ _
  | comma => exact List.cons_ne_nil _ _
  | text hquote hbody => exact List.cons_ne_nil _ _

theorem WrittenAt.ne_nil {place : Nat} {token : Nat × Token} {found : List (Nat × Token)}
    {s : List Char} (h : WrittenAt place (token :: found) s) : s ≠ [] := by
  obtain ⟨before, spelling, after, rfl, -, hwritten⟩ := h.exists_spelling List.mem_cons_self
  simp [hwritten.ne_nil]

/-- Where something follows a token, it does not matter what comes behind that. -/
theorem StandsApart.append {token : Token} {rest : List Char} (h : StandsApart token rest)
    (hrest : rest ≠ []) (back : List Char) : StandsApart token (rest ++ back) := by
  obtain ⟨c, rest, rfl⟩ := List.exists_cons_of_ne_nil hrest
  cases token with
  | name word => exact h
  | integer value => exact h
  | opening => trivial
  | closing => trivial
  | comma => trivial
  | text content => trivial

/-- Tokens of which the last is not one that could go on are read in front of whatever follows. -/
theorem WrittenAt.tokens_append {place : Nat} {found : List (Nat × Token)} {front : List Char}
    (h : WrittenAt place found front)
    (hlast : ∀ token, (found.map (·.2)).getLast? = some token → token = .closing) (back : List Char) :
    tokens place (front ++ back) =
      (tokens (place + front.length) back).map (found ++ ·) := by
  induction h with
  | @nil place blanks hblanks =>
    rw [tokens_blanks hblanks]
    cases tokens (place + blanks.length) back <;> rfl
  | @cons place token found blanks spelling rest hblanks hwritten hapart hrest ih =>
    have hmore (other : Token) (hother : (found.map (·.2)).getLast? = some other) :
        other = .closing := by
      apply hlast
      rw [List.map_cons, List.getLast?_cons, hother]
      rfl
    have hbehind : StandsApart token (rest ++ back) := by
      cases found with
      | nil =>
        rw [hlast token rfl]
        trivial
      | cons first found => exact hapart.append hrest.ne_nil back
    rw [List.append_assoc, List.append_assoc, tokens_blanks hblanks,
      tokens_of_written hwritten hbehind, ih hmore]
    have hplace : place + blanks.length + spelling.length + rest.length =
        place + (blanks ++ spelling ++ rest).length := by
      simp only [List.length_append]
      omega
    rw [hplace]
    cases tokens (place + (blanks ++ spelling ++ rest).length) back <;> rfl

/-- The parser goes on behind a script as it would without it. -/
theorem commandsFrom_append {first last : Nat} {state : Option Form} {found more : List (Nat × Token)}
    {commands : List Command} (h : commandsFrom first state found = .ok commands) :
    commandsFrom last state (found ++ more) =
      (commandsFrom last none more).map (commands ++ ·) := by
  fun_induction commandsFrom first state found generalizing commands with
  | case1 =>
    cases h
    rw [List.nil_append]
    cases commandsFrom last none more <;> rfl
  | case2 form => cases h
  | case3 place name rest form hname ih =>
    rw [List.cons_append, commandsFrom, hname]
    exact ih h
  | case4 place name rest hname => cases h
  | case5 place token rest hnone => cases h
  | case6 form place token rest cause hadvance => cases h
  | case7 form place token rest command hadvance ih =>
    obtain ⟨others, hothers, rfl⟩ := map_eq_ok_iff.1 h
    rw [List.cons_append, commandsFrom, hadvance]
    dsimp only
    rw [ih hothers]
    cases commandsFrom last none more <;> rfl
  | case8 form place token rest next hnext hadvance ih =>
    rw [List.cons_append, commandsFrom_of_advance hadvance hnext]
    exact ih h

/-- The commands of a text behind a script come after those of the script; what is wrong with the
text stays wrong with it. -/
theorem commandsOf_append {front back : List Char} {commands : List Command}
    (h : commandsOf front = .ok commands) :
    commandsOf (front ++ back) =
      ((commandsOf back).map (commands ++ ·)).mapError (Problem.moved front.length) := by
  rw [commandsOf] at h
  split at h
  · cases h
  · rename_i found hfound
    have hwritten := tokens_eq_ok_iff.1 hfound
    have hlast (token : Token) (htoken : (found.map (·.2)).getLast? = some token) :
        token = .closing := by
      rw [(commandsFrom_none_eq_ok_iff.1 h).2] at htoken
      exact getLast?_flatMap_tokens htoken
    have hread := hwritten.tokens_append hlast back
    rw [Nat.zero_add, ← Nat.add_zero front.length, tokens_add] at hread
    rw [commandsOf, commandsOf, hread, List.length_append]
    cases tokens 0 back with
    | error problem => rfl
    | ok more =>
      have hrest := commandsFrom_movedTokens front.length back.length none more
      simp only [movedReading, Except.map, Except.mapError]
      rw [commandsFrom_append h, hrest]
      cases commandsFrom back.length none more <;> rfl

/-! ### Lines and columns -/

/-- A character is as many lines further down as there are newlines in front of the text, and as
many columns further on as the last of these lines has characters, if it is on the first line of the
text. -/
theorem position_append (front back : List Char) (place : Nat) :
    position (front ++ back) (front.length + place) =
      (front.count '\n' + (position back place).1,
        if (position back place).1 = 1 then
          (front.rtakeWhile (· ≠ '\n')).length + (position back place).2
        else (position back place).2) := by
  have hbefore : (front ++ back).take (front.length + place) = front ++ back.take place :=
    List.take_length_add_append place
  have hfirst : (position back place).1 = 1 ↔
      (back.take place).reverse.takeWhile (· ≠ '\n') = (back.take place).reverse := by
    rw [List.takeWhile_eq_self_iff]
    simp only [position, Nat.add_eq_right, List.count_eq_zero, List.mem_reverse, decide_eq_true_eq]
    exact ⟨fun h c hc heq => h (heq ▸ hc), fun h hnewline => h _ hnewline rfl⟩
  rw [Prod.ext_iff]
  constructor
  · simp only [position, hbefore, List.count_append]
    omega
  · simp only [hfirst]
    simp only [position, hbefore, List.reverse_append, List.takeWhile_append, List.rtakeWhile,
      List.length_reverse]
    by_cases hnone : (back.take place).reverse.takeWhile (· ≠ '\n') = (back.take place).reverse
    · have hlength := congrArg List.length hnone
      rw [List.length_reverse] at hlength
      rw [if_pos hlength, if_pos hnone, hlength, List.length_append, List.length_reverse]
      omega
    · have hlength : ((back.take place).reverse.takeWhile (· ≠ '\n')).length ≠
          (back.take place).length := by
        intro heq
        apply hnone
        apply (List.takeWhile_prefix _).eq_of_length
        rw [heq, List.length_reverse]
      rw [if_neg hlength, if_neg hnone]

theorem parse_eq_error_iff {source : String} {e : SyntaxError} :
    parse source = .error e ↔ ∃ problem, commandsOf source.toList = .error problem ∧
      e = ⟨(position source.toList problem.place).1, (position source.toList problem.place).2,
        problem.cause⟩ := by
  rw [parse]
  split
  · rename_i commands hcommands
    simp [hcommands]
  · rename_i problem hproblem
    simp [hproblem, eq_comm]

/-- A text behind a script is read as it would be alone: its commands follow those of the script,
and if it is no script, then it is refused for the same reason at the same character. -/
theorem script_then_text_read_as_alone {front back : String} {commands : List Command}
    (h : parse front = .ok commands) :
    (∀ more, parse back = .ok more → parse (front ++ back) = .ok (commands ++ more)) ∧
    ∀ e, parse back = .error e → parse (front ++ back) = .error
      { line := front.toList.count '\n' + e.line
        column :=
          if e.line = 1 then (front.toList.rtakeWhile (· ≠ '\n')).length + e.column else e.column
        cause := e.cause } := by
  have hjoined : commandsOf (front.toList ++ back.toList) =
      ((commandsOf back.toList).map (commands ++ ·)).mapError (Problem.moved front.toList.length) :=
    commandsOf_append (parse_eq_ok_iff.1 h)
  constructor
  · intro more hmore
    rw [parse_eq_ok_iff.1 hmore] at hjoined
    rw [parse_eq_ok_iff, String.toList_append, hjoined]
    rfl
  · intro e he
    obtain ⟨problem, hproblem, rfl⟩ := parse_eq_error_iff.1 he
    rw [hproblem] at hjoined
    refine parse_eq_error_iff.2 ⟨problem.moved front.toList.length, ?_, ?_⟩
    · rw [String.toList_append, hjoined]
      rfl
    · rw [String.toList_append, Problem.moved, position_append]

/-- The text that is no number is on the second line, behind the seven characters of the second
wait. -/
theorem text_for_number_refused_behind_script :
    parse "wait(1)\nwait(2)" = .ok [.wait 1, .wait 2] ∧
    parse "openUrl('u')" = .ok [.openUrl "u"] ∧
    parse ("wait(1)\nwait(2)" ++ "openUrl('u')") = .ok [.wait 1, .wait 2, .openUrl "u"] ∧
    parse "wait('a')" = .error ⟨1, 6, .unexpected .integerArgument (some (.text "a"))⟩ ∧
    parse ("wait(1)\nwait(2)" ++ "wait('a')") =
      .error ⟨2, 13, .unexpected .integerArgument (some (.text "a"))⟩ := by
  have hfront : parse "wait(1)\nwait(2)" = .ok [.wait 1, .wait 2] := by decide +kernel
  have hscript : parse "openUrl('u')" = .ok [.openUrl "u"] := by decide +kernel
  have hnone : parse "wait('a')" =
      .error ⟨1, 6, .unexpected .integerArgument (some (.text "a"))⟩ := by
    decide +kernel
  have hlines : "wait(1)\nwait(2)".toList.count '\n' = 1 := by decide +kernel
  have hcolumns : ("wait(1)\nwait(2)".toList.rtakeWhile (· ≠ '\n')).length = 7 := by decide +kernel
  have hjoined := (script_then_text_read_as_alone hfront).2 _ hnone
  rw [hlines, hcolumns] at hjoined
  exact ⟨hfront, hscript, (script_then_text_read_as_alone hfront).1 _ hscript, hnone, hjoined⟩

end KeepAlive.Script
