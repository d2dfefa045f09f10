import KeepAlive.Proofs.Text.Codes
import KeepAlive.Script.Parse

/-!
# How strings are written

A string is written between two equal quotes, character by character or with escapes.  What is read up
to the closing quote is what the text is a written form of; an escape of octal digits goes on as far as
it can, so that no text is a written form of two strings.
-/

namespace KeepAlive.Script

theorem of_mem_takeUpTo {isWanted : Char → Bool} {count : Nat} {s : List Char} {c : Char}
    (h : c ∈ takeUpTo isWanted count s) : isWanted c = true := by
  induction s generalizing count with
  | nil => cases count <;> simp [takeUpTo] at h
  | cons d rest ih =>
    cases count with
    | zero => simp [takeUpTo] at h
    | succ count =>
      rw [takeUpTo] at h
      split at h
      · rcases List.mem_cons.1 h with rfl | hrest
        · assumption
        · exact ih hrest
      · cases h

theorem length_takeUpTo_le (isWanted : Char → Bool) (count : Nat) (s : List Char) :
    (takeUpTo isWanted count s).length ≤ count := by
  induction s generalizing count with
  | nil => cases count <;> simp [takeUpTo]
  | cons c rest ih =>
    cases count with
    | zero => simp [takeUpTo]
    | succ count =>
      rw [takeUpTo]
      split
      · simpa using ih count
      · simp

/-- Reading stops early only in front of a character that is not wanted. -/
theorem head_of_takeUpTo {isWanted : Char → Bool} {count : Nat} {s : List Char} {c : Char}
    (hearly : (takeUpTo isWanted count s).length < count)
    (hnext : (s.drop (takeUpTo isWanted count s).length).head? = some c) : isWanted c = false := by
  induction s generalizing count with
  | nil => cases count <;> simp [takeUpTo] at hnext
  | cons d rest ih =>
    cases count with
    | zero => simp at hearly
    | succ count =>
      rw [takeUpTo] at hearly hnext
      split at hearly
      · rename_i hwanted
        rw [if_pos hwanted] at hnext
        exact ih (by simpa using hearly) (by simpa using hnext)
      · rename_i hunwanted
        rw [if_neg hunwanted] at hnext
        cases hnext
        exact Bool.eq_false_iff.2 hunwanted

theorem takeUpTo_append {isWanted : Char → Bool} {count : Nat} {s rest : List Char}
    (hwanted : ∀ c ∈ s, isWanted c = true) (hmost : s.length ≤ count)
    (hends : s.length < count → ∀ c, rest.head? = some c → isWanted c = false) :
    takeUpTo isWanted count (s ++ rest) = s := by
  induction s generalizing count with
  | nil =>
    cases count with
    | zero => simp [takeUpTo]
    | succ count =>
      cases rest with
      | nil => simp [takeUpTo]
      | cons c rest => simp [takeUpTo, hends (Nat.succ_pos count) c rfl]
  | cons d s ih =>
    cases count with
    | zero => simp at hmost
    | succ count =>
      have hd := hwanted d List.mem_cons_self
      rw [List.cons_append, takeUpTo, if_pos hd, ih (fun c hc => hwanted c (List.mem_cons_of_mem _ hc))
        (by simpa using hmost) (fun hlt => hends (by simpa using hlt))]

/-- The letters that stand for another character after a backslash. -/
def letterEscapes : List (Char × Char) := [
  ('n', '\n'), ('t', '\t'), ('r', '\r'), ('a', '\x07'), ('b', '\x08'), ('f', '\x0c'), ('v', '\x0b')]

/-- The letters of an escape that gives a code point, with the number of its hexadecimal digits. -/
def codeEscapes : List (Char × Nat) := [('x', 2), ('u', 4), ('U', 8)]

/-- The first list is what the second stands for after a backslash. -/
inductive WrittenEscape : List Char → List Char → Prop
  /-- A backslash or a quote stands for itself. -/
  | itself {c : Char} : c = '\\' ∨ c = '\'' ∨ c = '"' → WrittenEscape [c] [c]
  | letter {c denoted : Char} : (c, denoted) ∈ letterEscapes → WrittenEscape [denoted] [c]
  | octal {c : Char} {digits : List Char} : digits ≠ [] → digits.length ≤ 3 →
      (∀ d ∈ digits, Text.isOctalDigit d = true) → c.toNat = Text.valueInBase 8 digits →
      WrittenEscape [c] digits
  | code {c letter : Char} {digits : List Char} : (letter, digits.length) ∈ codeEscapes →
      (∀ d ∈ digits, Text.isHexDigit d = true) → c.toNat = Text.valueInBase 16 digits →
      WrittenEscape [c] (letter :: digits)
  /-- Any other character stays, with its backslash. -/
  | kept {c : Char} : c ≠ '\\' → c ≠ '\'' → c ≠ '"' → (∀ denoted, (c, denoted) ∉ letterEscapes) →
      Text.isOctalDigit c = false → (∀ width, (c, width) ∉ codeEscapes) → c ≠ 'N' → c ≠ '\n' →
      WrittenEscape ['\\', c] [c]

/-- Whether octal digits are as many as there are, up to three. -/
def TakesAllOctal (spelling rest : List Char) : Prop :=
  (∀ d ∈ spelling, Text.isOctalDigit d = true) → spelling.length < 3 →
    ∀ c, rest.head? = some c → Text.isOctalDigit c = false

theorem letterEscape?_eq_some_iff {c denoted : Char} : letterEscape? c = some denoted ↔
    (c = denoted ∧ (c = '\\' ∨ c = '\'' ∨ c = '"')) ∨ (c, denoted) ∈ letterEscapes := by
  constructor
  · intro h
    unfold letterEscape? at h
    split at h <;> cases h <;> decide
  · simp only [letterEscapes, List.mem_cons, List.not_mem_nil, or_false, Prod.mk.injEq]
    rintro (⟨rfl, rfl | rfl | rfl⟩ | h)
    · rfl
    · rfl
    · rfl
    · rcases h with ⟨rfl, rfl⟩ | ⟨rfl, rfl⟩ | ⟨rfl, rfl⟩ | ⟨rfl, rfl⟩ | ⟨rfl, rfl⟩ | ⟨rfl, rfl⟩ |
        ⟨rfl, rfl⟩ <;> rfl

theorem letterEscape?_eq_none_iff {c : Char} : letterEscape? c = none ↔
    (c ≠ '\\' ∧ c ≠ '\'' ∧ c ≠ '"') ∧ ∀ denoted, (c, denoted) ∉ letterEscapes := by
  rw [Option.eq_none_iff_forall_ne_some]
  simp only [ne_eq, letterEscape?_eq_some_iff, not_or, not_and]
  constructor
  · intro h
    exact ⟨(h c).1 rfl, fun denoted => (h denoted).2⟩
  · rintro ⟨hmarks, hletters⟩ denoted
    exact ⟨fun _ => hmarks, hletters denoted⟩

theorem mem_codeEscapes_iff {letter : Char} {width : Nat} : (letter, width) ∈ codeEscapes ↔
    (letter = 'x' ∨ letter = 'u' ∨ letter = 'U') ∧ width = escapeWidth letter := by
  simp only [codeEscapes, List.mem_cons, List.not_mem_nil, or_false, Prod.mk.injEq]
  constructor
  · rintro (⟨rfl, rfl⟩ | ⟨rfl, rfl⟩ | ⟨rfl, rfl⟩) <;> decide
  · rintro ⟨rfl | rfl | rfl, rfl⟩ <;> decide

theorem takesAllOctal_cons {c : Char} (h : Text.isOctalDigit c = false) (s rest : List Char) :
    TakesAllOctal (c :: s) rest := by
  intro hoctal
  rw [hoctal c List.mem_cons_self] at h
  cases h

theorem isOctalDigit_of_letterEscape? {c denoted : Char} (h : letterEscape? c = some denoted) :
    Text.isOctalDigit c = false := by
  unfold letterEscape? at h
  split at h <;> first | rfl | cases h

/-- What is read up to a number of characters, and what is left. -/
theorem exists_takeUpTo_append (isWanted : Char → Bool) (count : Nat) (s : List Char) :
    ∃ rest, s = takeUpTo isWanted count s ++ rest ∧
      ((takeUpTo isWanted count s).length < count → ∀ c, rest.head? = some c →
        isWanted c = false) := by
  obtain ⟨rest, hrest⟩ := takeUpTo_prefix isWanted count s
  have hdrop {taken : List Char} (h : taken ++ rest = s) : s.drop taken.length = rest := by
    rw [← h, List.drop_left]
  refine ⟨rest, hrest.symm, fun hearly c hnext => head_of_takeUpTo hearly ?_⟩
  rw [hdrop hrest]
  exact hnext

theorem escape_of_isOctalDigit {c : Char} (h : Text.isOctalDigit c = true)
    (hletter : letterEscape? c = none) (rest : List Char) :
    ∃ denoted, escape (c :: rest) =
        .ok ([denoted], (c :: takeUpTo Text.isOctalDigit 2 rest).length) ∧
      WrittenEscape [denoted] (c :: takeUpTo Text.isOctalDigit 2 rest) := by
  have hdigits : ∀ d ∈ c :: takeUpTo Text.isOctalDigit 2 rest, Text.isOctalDigit d = true := by
    intro d hd
    rcases List.mem_cons.1 hd with rfl | hrest
    · exact h
    · exact of_mem_takeUpTo hrest
  have hmost : (c :: takeUpTo Text.isOctalDigit 2 rest).length ≤ 3 :=
    Nat.succ_le_succ (length_takeUpTo_le _ 2 rest)
  obtain ⟨denoted, hdenoted⟩ := Text.exists_scalar?_of_octal hmost hdigits
  refine ⟨denoted, ?_, .octal (List.cons_ne_nil _ _) hmost hdigits
    (Text.scalar?_eq_some_iff.1 hdenoted)⟩
  rw [escape]
  simp only [hletter, if_pos h, hdenoted]
  rfl

theorem isCodeLetter_iff {c : Char} :
    (c = 'x' || c = 'u' || c = 'U') = true ↔ c = 'x' ∨ c = 'u' ∨ c = 'U' := by
  simp only [Bool.or_eq_true, decide_eq_true_eq, or_assoc]

theorem letterEscape?_of_isCodeLetter {c : Char} (h : c = 'x' ∨ c = 'u' ∨ c = 'U') :
    letterEscape? c = none ∧ Text.isOctalDigit c = false := by
  rcases h with rfl | rfl | rfl <;> decide

theorem written_of_codeEscape {c : Char} {rest content : List Char} {width : Nat}
    (hcode : c = 'x' ∨ c = 'u' ∨ c = 'U') (h : escape (c :: rest) = .ok (content, width)) :
    ∃ digits left, rest = digits ++ left ∧ digits.length + 1 = width ∧
      WrittenEscape content (c :: digits) := by
  obtain ⟨hletter, hoctal⟩ := letterEscape?_of_isCodeLetter hcode
  rw [escape] at h
  simp only [hletter, hoctal, Bool.false_eq_true, if_false, if_pos (isCodeLetter_iff.2 hcode)] at h
  split at h
  · rename_i hwidth
    split at h
    · rename_i denoted hdenoted
      cases h
      obtain ⟨left, hleft, -⟩ := exists_takeUpTo_append Text.isHexDigit (escapeWidth c) rest
      exact ⟨_, left, hleft, Nat.add_comm _ 1, .code (mem_codeEscapes_iff.2 ⟨hcode, hwidth⟩)
        (fun d hd => of_mem_takeUpTo hd) (Text.scalar?_eq_some_iff.1 hdenoted)⟩
    · cases h
  · cases h

theorem written_of_keptEscape {c : Char} {rest content : List Char} {width : Nat}
    (hletter : letterEscape? c = none) (hoctal : Text.isOctalDigit c = false)
    (hcode : ¬(c = 'x' ∨ c = 'u' ∨ c = 'U')) (h : escape (c :: rest) = .ok (content, width)) :
    width = 1 ∧ WrittenEscape content [c] := by
  obtain ⟨⟨hslash, hquote, hdouble⟩, hletters⟩ := letterEscape?_eq_none_iff.1 hletter
  have hwidths : ∀ width, (c, width) ∉ codeEscapes :=
    fun _ hmem => hcode (mem_codeEscapes_iff.1 hmem).1
  rw [escape] at h
  simp only [hletter, hoctal, Bool.false_eq_true, if_false, if_neg (mt isCodeLetter_iff.1 hcode)] at h
  split at h
  · cases h
  · rename_i hnamed
    split at h
    · cases h
    · rename_i hnewline
      cases h
      exact ⟨rfl, .kept hslash hquote hdouble hletters hoctal hwidths hnamed hnewline⟩

/-- What an escape reads is a written form of what it gives. -/
theorem written_of_escape {s content : List Char} {width : Nat}
    (h : escape s = .ok (content, width)) :
    ∃ spelling rest, s = spelling ++ rest ∧ spelling.length = width ∧
      WrittenEscape content spelling ∧ TakesAllOctal spelling rest := by
  cases s with
  | nil => cases h
  | cons c rest =>
    cases hletter : letterEscape? c with
    | some denoted =>
      rw [escape, hletter] at h
      cases h
      refine ⟨[c], rest, rfl, rfl, ?_,
        takesAllOctal_cons (isOctalDigit_of_letterEscape? hletter) _ _⟩
      rcases letterEscape?_eq_some_iff.1 hletter with ⟨rfl, hmark⟩ | hletter
      · exact .itself hmark
      · exact .letter hletter
    | none =>
      by_cases hoctal : Text.isOctalDigit c = true
      · obtain ⟨denoted, hescape, hwritten⟩ := escape_of_isOctalDigit hoctal hletter rest
        rw [hescape] at h
        cases h
        obtain ⟨left, hleft, hends⟩ := exists_takeUpTo_append Text.isOctalDigit 2 rest
        exact ⟨_, left, congrArg (c :: ·) hleft, rfl, hwritten,
          fun _ hless => hends (Nat.lt_of_succ_lt_succ hless)⟩
      · have hno := Bool.eq_false_iff.2 hoctal
        by_cases hcode : c = 'x' ∨ c = 'u' ∨ c = 'U'
        · obtain ⟨digits, left, rfl, rfl, hwritten⟩ := written_of_codeEscape hcode h
          exact ⟨c :: digits, left, rfl, rfl, hwritten, takesAllOctal_cons hno _ _⟩
        · obtain ⟨rfl, hwritten⟩ := written_of_keptEscape hletter hno hcode h
          exact ⟨[c], rest, rfl, rfl, hwritten, takesAllOctal_cons hno _ _⟩

theorem letterEscape?_of_isOctalDigit {c : Char} (h : Text.isOctalDigit c = true) :
    letterEscape? c = none := by
  cases hletter : letterEscape? c with
  | none => rfl
  | some denoted =>
    rw [isOctalDigit_of_letterEscape? hletter] at h
    cases h

/-- A written escape is read to its end, and no further. -/
theorem escape_of_written {content spelling rest : List Char}
    (h : WrittenEscape content spelling) (hends : TakesAllOctal spelling rest) :
    escape (spelling ++ rest) = .ok (content, spelling.length) := by
  cases h with
  | @itself c hmark =>
    have hletter := letterEscape?_eq_some_iff.2 (Or.inl ⟨rfl, hmark⟩)
    simp only [List.singleton_append, escape, hletter, List.length_singleton]
  | letter hmem =>
    have hletter := letterEscape?_eq_some_iff.2 (Or.inr hmem)
    simp only [List.singleton_append, escape, hletter, List.length_singleton]
  | @octal c digits hsome hmost hdigits hvalue =>
    obtain ⟨first, more, rfl⟩ := List.exists_cons_of_ne_nil hsome
    have hfirst := hdigits first List.mem_cons_self
    have hmore : takeUpTo Text.isOctalDigit 2 (more ++ rest) = more :=
      takeUpTo_append (fun d hd => hdigits d (List.mem_cons_of_mem _ hd))
        (Nat.le_of_succ_le_succ hmost) fun hless => hends hdigits (Nat.succ_lt_succ hless)
    have hdenoted := Text.scalar?_eq_some_iff.2 hvalue
    simp only [List.cons_append, escape, letterEscape?_of_isOctalDigit hfirst, if_pos hfirst, hmore,
      hdenoted, Option.toList_some]
  | @code c letter digits hmem hdigits hvalue =>
    obtain ⟨hcode, hwidth⟩ := mem_codeEscapes_iff.1 hmem
    have hread : takeUpTo Text.isHexDigit (escapeWidth letter) (digits ++ rest) = digits :=
      takeUpTo_append hdigits (Nat.le_of_eq hwidth) fun hless => absurd hwidth (Nat.ne_of_lt hless)
    have hplain := letterEscape?_of_isCodeLetter hcode
    have hdenoted := Text.scalar?_eq_some_iff.2 hvalue
    simp only [List.cons_append, escape, hplain, Bool.false_eq_true, if_false,
      if_pos (isCodeLetter_iff.2 hcode), hread, if_pos hwidth, hdenoted, List.length_cons,
      Nat.add_comm 1]
  | @kept c hslash hquote hdouble hletters hoctal hcode hnamed hnewline =>
    have hletter := letterEscape?_eq_none_iff.2 ⟨⟨hslash, hquote, hdouble⟩, hletters⟩
    have hguard : ¬(c = 'x' || c = 'u' || c = 'U') = true := fun hguard =>
      hcode _ (mem_codeEscapes_iff.2 ⟨isCodeLetter_iff.1 hguard, rfl⟩)
    simp only [List.singleton_append, escape, hletter, hoctal, Bool.false_eq_true, if_false,
      if_neg hguard, if_neg hnamed, if_neg hnewline, List.length_singleton]

/-- The first list is what the second stands for between two of the quotes. -/
inductive WrittenText (quote : Char) : List Char → List Char → Prop
  | nil : WrittenText quote [] []
  | plain {c : Char} {content body : List Char} : c ≠ quote → c ≠ '\\' → c ≠ '\n' →
      WrittenText quote content body → WrittenText quote (c :: content) (c :: body)
  | escaped {denoted spelling content body : List Char} : WrittenEscape denoted spelling →
      TakesAllOctal spelling body → WrittenText quote content body →
      WrittenText quote (denoted ++ content) ('\\' :: spelling ++ body)

/-- The two quotes. -/
def IsQuote (c : Char) : Prop :=
  c = '\'' ∨ c = '"'

theorem IsQuote.plain {quote : Char} (h : IsQuote quote) :
    quote ≠ '\n' ∧ quote ≠ '\\' ∧ Text.isOctalDigit quote = false := by
  rcases h with rfl | rfl <;> decide

/-- A quote at the end of a body changes nothing for the escapes in it. -/
theorem takesAllOctal_append_iff {quote : Char} (h : IsQuote quote) {spelling body left : List Char} :
    TakesAllOctal spelling (body ++ quote :: left) ↔ TakesAllOctal spelling body := by
  cases body with
  | nil =>
    constructor
    · intro _ _ _ c hc
      cases hc
    · intro _ _ _ c hc
      cases hc
      exact h.plain.2.2
  | cons c body => exact Iff.rfl

theorem map_eq_ok_iff {ε α β : Type} {f : α → β} {x : Except ε α} {b : β} :
    x.map f = .ok b ↔ ∃ a, x = .ok a ∧ f a = b := by
  cases x <;> simp [Except.map]

variable {quote : Char} {start place after : Nat} {s content left : List Char}

/-- What is read up to the closing quote is a written form of what it gives. -/
theorem written_of_stringBody (hquote : IsQuote quote)
    (h : stringBody quote start place s = .ok (content, after, left)) :
    ∃ body, WrittenText quote content body ∧ s = body ++ quote :: left ∧
      after = place + body.length + 1 := by
  fun_induction stringBody quote start place s generalizing content after left with
  | case1 => cases h
  | case2 => cases h
  | case3 place rest hnewline =>
    cases h
    exact ⟨[], .nil, rfl, rfl⟩
  | case4 => cases h
  | case5 place rest denoted width hescape _ _ ih =>
    obtain ⟨spelling, following, rfl, rfl, hwritten, hends⟩ := written_of_escape hescape
    obtain ⟨⟨more, _, _⟩, hmore, heq⟩ := map_eq_ok_iff.1 h
    cases heq
    rw [List.drop_left] at hmore
    rw [List.drop_left] at ih
    obtain ⟨body, hbody, rfl, rfl⟩ := ih hmore
    refine ⟨'\\' :: spelling ++ body,
      .escaped hwritten ((takesAllOctal_append_iff hquote).1 hends) hbody, ?_, ?_⟩
    · simp
    · simp
      omega
  | case6 place c rest hnewline hend hslash ih =>
    obtain ⟨⟨more, _, _⟩, hmore, heq⟩ := map_eq_ok_iff.1 h
    cases heq
    obtain ⟨body, hbody, rfl, rfl⟩ := ih hmore
    refine ⟨c :: body, .plain hend hslash hnewline hbody, rfl, ?_⟩
    simp
    omega

/-- A written text is read up to its closing quote, wherever it stands. -/
theorem stringBody_of_written (hquote : IsQuote quote) {body : List Char}
    (h : WrittenText quote content body) (start place : Nat) (left : List Char) :
    stringBody quote start place (body ++ quote :: left) =
      .ok (content, place + body.length + 1, left) := by
  obtain ⟨hnewline, hslash, -⟩ := hquote.plain
  induction h generalizing place with
  | nil =>
    rw [List.nil_append, stringBody, if_neg hnewline, if_pos rfl]
    rfl
  | plain hend hplain hline _ ih =>
    rw [List.cons_append, stringBody, if_neg hline, if_neg hend, if_neg hplain, ih]
    simp only [Except.map, List.length_cons]
    congr 3
    omega
  | @escaped denoted spelling content body hescape hends _ ih =>
    have hall : TakesAllOctal spelling (body ++ quote :: left) :=
      (takesAllOctal_append_iff hquote).2 hends
    have hread := escape_of_written hescape hall
    have hmark : ¬('\\' : Char) = '\n' := by decide
    rw [List.cons_append, List.cons_append, List.append_assoc, stringBody, if_neg hmark,
      if_neg (Ne.symm hslash), if_pos rfl]
    simp only [hread, List.drop_left, ih]
    simp only [Except.map, List.length_cons, List.length_append]
    congr 3
    omega

end KeepAlive.Script
