import KeepAlive.Proofs.Script.Spelling
import Mathlib.Data.List.Chain

/-!
# How tokens are written

Tokens are written one after the other, with any blanks before, between and after them.  A text is cut
into tokens in one way only, as a name or an integer is never followed by a character that it could go
on with; and each token is found where its first character stands.
-/

namespace KeepAlive.Script

/-- Whether nothing follows that belongs to a class of characters. -/
def StopsAt (isWanted : Char → Bool) (rest : List Char) : Prop :=
  ∀ c, rest.head? = some c → isWanted c = false

theorem takeWhile_append_of_stopsAt {isWanted : Char → Bool} {s rest : List Char}
    (hs : ∀ c ∈ s, isWanted c = true) (hrest : StopsAt isWanted rest) :
    (s ++ rest).takeWhile isWanted = s ∧ (s ++ rest).dropWhile isWanted = rest := by
  rw [List.takeWhile_append_of_pos hs, List.dropWhile_append_of_pos hs]
  cases rest with
  | nil => simp
  | cons c rest => simp [hrest c rfl]

theorem stopsAt_dropWhile (isWanted : Char → Bool) (s : List Char) :
    StopsAt isWanted (s.dropWhile isWanted) := by
  intro c hc
  have hstop := List.head?_dropWhile_not isWanted s
  rw [hc] at hstop
  exact hstop

theorem forall_mem_takeWhile (isWanted : Char → Bool) (s : List Char) :
    ∀ c ∈ s.takeWhile isWanted, isWanted c = true :=
  List.all_eq_true.1 List.all_takeWhile

/-- The code points of the blanks. -/
def blankCodes : List Nat := [
  0x09, 0x0A, 0x0B, 0x0C, 0x0D, 0x20, 0x85, 0xA0, 0x1680, 0x2000, 0x2001, 0x2002, 0x2003, 0x2004, 0x2005,
  0x2006, 0x2007, 0x2008, 0x2009, 0x200A, 0x2028, 0x2029, 0x202F, 0x205F, 0x3000]

theorem mem_blankCodes_iff {c : Char} : c.toNat ∈ blankCodes ↔ Text.isBlank c = true := by
  simp [blankCodes, Text.isBlank, Text.within]
  omega

/-- No blank goes on a name. -/
theorem continuesName_of_isBlank {c : Char} (h : Text.isBlank c = true) :
    continuesName c = false := by
  have hall : ∀ code ∈ blankCodes, continuesName (Char.ofNat code) = false := by decide +kernel
  have hcode := hall _ (mem_blankCodes_iff.2 h)
  rwa [Char.ofNat_toNat] at hcode

/-- A digit is neither a blank nor the start of a name. -/
theorem isBlank_startsName_of_isDigit {c : Char} (h : c.isDigit = true) :
    Text.isBlank c = false ∧ startsName c = false := by
  have hall : ∀ code ∈ List.range' 48 10,
      Text.isBlank (Char.ofNat code) = false ∧ startsName (Char.ofNat code) = false := by
    decide +kernel
  have hcode : c.toNat ∈ List.range' 48 10 := by
    simp only [Char.isDigit, ge_iff_le, Bool.and_eq_true, decide_eq_true_eq,
      UInt32.le_iff_toNat_le] at h
    exact List.mem_range'_1.2 ⟨h.1, Nat.lt_succ_of_le h.2⟩
  have hdigit := hall _ hcode
  rwa [Char.ofNat_toNat] at hdigit

theorem isBlank_of_startsName {c : Char} (h : startsName c = true) : Text.isBlank c = false := by
  refine Bool.eq_false_iff.2 fun hblank => ?_
  have hcontinues : continuesName c = true := by
    simp only [startsName, continuesName, Text.isLetterOrNumber, Bool.or_eq_true] at h ⊢
    exact h.imp_left Or.inl
  rw [continuesName_of_isBlank hblank] at hcontinues
  cases hcontinues

theorem isDigit_of_startsName {c : Char} (h : startsName c = true) : c.isDigit = false := by
  refine Bool.eq_false_iff.2 fun hdigit => ?_
  rw [(isBlank_startsName_of_isDigit hdigit).2] at h
  cases h

theorem isDigit_of_isBlank {c : Char} (h : Text.isBlank c = true) : c.isDigit = false := by
  refine Bool.eq_false_iff.2 fun hdigit => ?_
  rw [(isBlank_startsName_of_isDigit hdigit).1] at h
  cases h

/-- The text is a written form of the token. -/
inductive WrittenToken : Token → List Char → Prop
  | name {c : Char} {more : List Char} : startsName c = true → (∀ d ∈ more, continuesName d = true) →
      WrittenToken (.name (String.ofList (c :: more))) (c :: more)
  | opening : WrittenToken .opening ['(']
  | closing : WrittenToken .closing [')']
  | comma : WrittenToken .comma [',']
  | text {quote : Char} {content body : List Char} : IsQuote quote → WrittenText quote content body →
      WrittenToken (.text (String.ofList content)) (quote :: body ++ [quote])
  | integer {digits : List Char} : digits ≠ [] → (∀ d ∈ digits, d.isDigit = true) →
      Text.decimalValue digits < integerBound →
      WrittenToken (.integer (Text.decimalValue digits)) digits

/-- Whether what follows a token is no part of it. -/
def StandsApart : Token → List Char → Prop
  | .name _, rest => StopsAt continuesName rest
  | .integer _, rest => StopsAt Char.isDigit rest
  | _, _ => True

/-- The text is a written form of the tokens, the first of which stands at the place; names and
integers take all that belongs to them. -/
inductive WrittenAt : Nat → List (Nat × Token) → List Char → Prop
  | nil {place : Nat} {blanks : List Char} : (∀ c ∈ blanks, Text.isBlank c = true) →
      WrittenAt place [] blanks
  | cons {place : Nat} {token : Token} {found : List (Nat × Token)}
      {blanks spelling rest : List Char} : (∀ c ∈ blanks, Text.isBlank c = true) →
      WrittenToken token spelling → StandsApart token rest →
      WrittenAt (place + blanks.length + spelling.length) found rest →
      WrittenAt place ((place + blanks.length, token) :: found) (blanks ++ spelling ++ rest)

theorem tokens_blanks {blanks : List Char} (h : ∀ c ∈ blanks, Text.isBlank c = true) (place : Nat)
    (rest : List Char) : tokens place (blanks ++ rest) = tokens (place + blanks.length) rest := by
  induction blanks generalizing place with
  | nil => rfl
  | cons c blanks ih =>
    rw [List.cons_append, tokens, if_pos (h c List.mem_cons_self),
      ih (fun d hd => h d (List.mem_cons_of_mem _ hd)), List.length_cons]
    congr 1
    omega

/-- A character of a class to which no mark and no quote belongs is neither. -/
theorem ne_marks {isWanted : Char → Bool} {c : Char} (h : isWanted c = true)
    (hnone : ['(', ')', ',', '\'', '"'].all (!isWanted ·) = true) :
    c ≠ '(' ∧ c ≠ ')' ∧ c ≠ ',' ∧ ¬(c = '\'' || c = '"') = true := by
  have hne : ∀ d ∈ ['(', ')', ',', '\'', '"'], c ≠ d := by
    rintro d hd rfl
    have hunwanted := List.all_eq_true.1 hnone c hd
    rw [h] at hunwanted
    cases hunwanted
  refine ⟨hne _ (by decide), hne _ (by decide), hne _ (by decide), ?_⟩
  rw [Bool.or_eq_true, decide_eq_true_eq, decide_eq_true_eq, not_or]
  exact ⟨hne _ (by decide), hne _ (by decide)⟩

theorem tokens_name {c : Char} (h : startsName c = true) (place : Nat) (rest : List Char) :
    tokens place (c :: rest) =
      (tokens (place + (c :: rest.takeWhile continuesName).length)
        (rest.dropWhile continuesName)).map
          ((place, .name (String.ofList (c :: rest.takeWhile continuesName))) :: ·) := by
  obtain ⟨hopening, hclosing, hcomma, hquote⟩ := ne_marks h (by decide)
  rw [tokens, if_neg (Bool.eq_false_iff.1 (isBlank_of_startsName h)), if_neg hopening,
    if_neg hclosing, if_neg hcomma, if_neg hquote,
    if_neg (Bool.eq_false_iff.1 (isDigit_of_startsName h)), if_pos h]

theorem tokens_integer {c : Char} (h : c.isDigit = true) (place : Nat) (rest : List Char)
    (hbound : Text.decimalValue (c :: rest.takeWhile Char.isDigit) < integerBound) :
    tokens place (c :: rest) =
      (tokens (place + (c :: rest.takeWhile Char.isDigit).length) (rest.dropWhile Char.isDigit)).map
          ((place, .integer (Text.decimalValue (c :: rest.takeWhile Char.isDigit))) :: ·) := by
  obtain ⟨hopening, hclosing, hcomma, hquote⟩ := ne_marks h (by decide)
  rw [tokens, if_neg (Bool.eq_false_iff.1 (isBlank_startsName_of_isDigit h).1), if_neg hopening,
    if_neg hclosing, if_neg hcomma, if_neg hquote, if_pos h]
  exact if_pos hbound

theorem tokens_text {quote : Char} (hquote : IsQuote quote) {content rest left : List Char}
    {after : Nat} (place : Nat)
    (h : stringBody quote place (place + 1) rest = .ok (content, after, left)) :
    tokens place (quote :: rest) =
      (tokens after left).map ((place, .text (String.ofList content)) :: ·) := by
  have hguard : (quote = '\'' || quote = '"') = true := by
    rw [Bool.or_eq_true, decide_eq_true_eq, decide_eq_true_eq]
    exact hquote
  have hmarks : Text.isBlank quote = false ∧ quote ≠ '(' ∧ quote ≠ ')' ∧ quote ≠ ',' := by
    rcases hquote with rfl | rfl <;> decide
  rw [tokens, if_neg (Bool.eq_false_iff.1 hmarks.1), if_neg hmarks.2.1, if_neg hmarks.2.2.1,
    if_neg hmarks.2.2.2, if_pos hguard]
  split
  · rename_i problem hproblem
    rw [h] at hproblem
    cases hproblem
  · rename_i found hfound
    rw [h] at hfound
    cases hfound
    rfl

/-- A written token is read to its end, and no further. -/
theorem tokens_of_written {token : Token} {spelling rest : List Char}
    (h : WrittenToken token spelling) (hapart : StandsApart token rest) (place : Nat) :
    tokens place (spelling ++ rest) =
      (tokens (place + spelling.length) rest).map ((place, token) :: ·) := by
  cases h with
  | opening =>
    rw [List.singleton_append, tokens]
    rfl
  | closing =>
    rw [List.singleton_append, tokens]
    rfl
  | comma =>
    rw [List.singleton_append, tokens]
    rfl
  | name hstart hmore =>
    obtain ⟨htake, hdrop⟩ := takeWhile_append_of_stopsAt hmore hapart
    rw [List.cons_append, tokens_name hstart, htake, hdrop]
  | @text quote content body hquote hbody =>
    have hread := stringBody_of_written hquote hbody place (place + 1) rest
    have hlength : place + (quote :: body ++ [quote]).length = place + 1 + body.length + 1 := by
      simp
      omega
    rw [List.append_assoc, List.cons_append, List.singleton_append, tokens_text hquote place hread,
      hlength]
  | @integer digits hsome hdigits hbound =>
    obtain ⟨c, more, rfl⟩ := List.exists_cons_of_ne_nil hsome
    obtain ⟨htake, hdrop⟩ := takeWhile_append_of_stopsAt
      (fun d hd => hdigits d (List.mem_cons_of_mem _ hd)) hapart
    rw [List.cons_append, tokens_integer (hdigits c List.mem_cons_self) place _ (by rw [htake]; exact hbound),
      htake, hdrop]

/-- Tokens that are written as they should are read, each with its place. -/
theorem tokens_of_writtenAt {place : Nat} {found : List (Nat × Token)} {s : List Char}
    (h : WrittenAt place found s) : tokens place s = .ok found := by
  induction h with
  | @nil place blanks hblanks =>
    have hread := tokens_blanks hblanks place []
    rw [List.append_nil, tokens] at hread
    exact hread
  | cons hblanks hwritten hapart _ ih =>
    rw [List.append_assoc, tokens_blanks hblanks, tokens_of_written hwritten hapart, ih]
    rfl

theorem WrittenAt.blank {place : Nat} {found : List (Nat × Token)} {s : List Char} {c : Char}
    (hc : Text.isBlank c = true) (h : WrittenAt (place + 1) found s) :
    WrittenAt place found (c :: s) := by
  have hmore {blanks : List Char} (hblanks : ∀ d ∈ blanks, Text.isBlank d = true) :
      ∀ d ∈ c :: blanks, Text.isBlank d = true := List.forall_mem_cons.2 ⟨hc, hblanks⟩
  cases h with
  | nil hblanks => exact .nil (hmore hblanks)
  | @cons _ token found blanks spelling rest hblanks hwritten hapart hrest =>
    have hplace : place + 1 + blanks.length = place + (c :: blanks).length := by
      simp
      omega
    rw [hplace] at hrest ⊢
    exact .cons (hmore hblanks) hwritten hapart hrest

/-- A written token in front of what is read after it. -/
theorem writtenAt_of_map {place next : Nat} {token : Token} {found : List (Nat × Token)}
    {spelling rest : List Char} (hwritten : WrittenToken token spelling)
    (hapart : StandsApart token rest) (hnext : next = place + spelling.length)
    (hrest : ∀ {found}, tokens next rest = .ok found → WrittenAt next found rest)
    (h : (tokens next rest).map ((place, token) :: ·) = .ok found) :
    WrittenAt place found (spelling ++ rest) := by
  obtain ⟨more, hmore, rfl⟩ := map_eq_ok_iff.1 h
  subst hnext
  have hnone : ∀ c ∈ ([] : List Char), Text.isBlank c = true := nofun
  have hwhole := WrittenAt.cons hnone hwritten hapart (hrest hmore)
  exact hwhole

/-- What is read as tokens is written as it should be. -/
theorem writtenAt_of_tokens {place : Nat} {found : List (Nat × Token)} {s : List Char}
    (h : tokens place s = .ok found) : WrittenAt place found s := by
  fun_induction tokens place s generalizing found with
  | case1 place =>
    cases h
    exact .nil fun _ hc => by cases hc
  | case2 place c rest hblank ih => exact (ih h).blank hblank
  | case3 place rest _ ih => exact writtenAt_of_map .opening trivial rfl ih h
  | case4 place rest _ _ ih => exact writtenAt_of_map .closing trivial rfl ih h
  | case5 place rest _ _ _ ih => exact writtenAt_of_map .comma trivial rfl ih h
  | case6 => cases h
  | case7 place c rest _ _ _ _ hguard content after left hread _ ih =>
    have hquote : IsQuote c := by
      rwa [Bool.or_eq_true, decide_eq_true_eq, decide_eq_true_eq] at hguard
    obtain ⟨body, hbody, rfl, rfl⟩ := written_of_stringBody hquote hread
    have hspelling : c :: (body ++ c :: left) = (c :: body ++ [c]) ++ left := by simp
    rw [hspelling]
    exact writtenAt_of_map (.text hquote hbody) trivial (by simp; omega) ih h
  | case8 place c rest _ _ _ _ _ hdigit digits hbound =>
    rename_i ih
    have hdigits : ∀ d ∈ digits, d.isDigit = true :=
      List.forall_mem_cons.2 ⟨hdigit, forall_mem_takeWhile _ rest⟩
    have hwritten := writtenAt_of_map (.integer (List.cons_ne_nil _ _) hdigits hbound)
      (stopsAt_dropWhile _ rest) rfl ih h
    rwa [List.cons_append, List.takeWhile_append_dropWhile] at hwritten
  | case9 => cases h
  | case10 place c rest _ _ _ _ _ _ hstart word =>
    rename_i ih
    have hwritten := writtenAt_of_map (.name hstart (forall_mem_takeWhile _ rest))
      (stopsAt_dropWhile continuesName rest) rfl ih h
    rwa [List.cons_append, List.takeWhile_append_dropWhile] at hwritten
  | case11 => cases h

theorem tokens_eq_ok_iff {place : Nat} {found : List (Nat × Token)} {s : List Char} :
    tokens place s = .ok found ↔ WrittenAt place found s :=
  ⟨writtenAt_of_tokens, tokens_of_writtenAt⟩

/-- Each token is written at its place. -/
theorem WrittenAt.exists_spelling {first place : Nat} {found : List (Nat × Token)} {s : List Char}
    {token : Token} (h : WrittenAt first found s) (hmem : (place, token) ∈ found) :
    ∃ before spelling after, s = before ++ spelling ++ after ∧ place = first + before.length ∧
      WrittenToken token spelling := by
  induction h with
  | nil => cases hmem
  | @cons first _ found blanks spelling rest _ hwritten _ _ ih =>
    rcases List.mem_cons.1 hmem with heq | hlater
    · cases heq
      exact ⟨blanks, spelling, rest, rfl, rfl, hwritten⟩
    · obtain ⟨before, later, after, rfl, rfl, hfound⟩ := ih hlater
      refine ⟨blanks ++ spelling ++ before, later, after, by simp, ?_, hfound⟩
      simp
      omega

/-- The text is a written form of the tokens. -/
inductive WrittenTokens : List Token → List Char → Prop
  | nil {blanks : List Char} : (∀ c ∈ blanks, Text.isBlank c = true) → WrittenTokens [] blanks
  | cons {token : Token} {more : List Token} {blanks spelling rest : List Char} :
      (∀ c ∈ blanks, Text.isBlank c = true) → WrittenToken token spelling → WrittenTokens more rest →
      WrittenTokens (token :: more) (blanks ++ spelling ++ rest)

theorem WrittenAt.writtenTokens {place : Nat} {found : List (Nat × Token)} {s : List Char}
    (h : WrittenAt place found s) : WrittenTokens (found.map (·.2)) s := by
  induction h with
  | nil hblanks => exact .nil hblanks
  | cons hblanks hwritten _ _ ih => exact .cons hblanks hwritten ih

/-- Whether a token is a run of characters that may go on. -/
def Token.IsRun : Token → Prop
  | .name _ | .integer _ => True
  | _ => False

/-- Whether a token is one of the marks. -/
def Token.IsMark : Token → Prop
  | .opening | .closing | .comma => True
  | _ => False

/-- Whether a token may follow another with no blank between them. -/
def MayFollow (token next : Token) : Prop :=
  token.IsRun → next.IsMark

theorem stopsAt_blanks {isWanted : Char → Bool} {blanks rest : List Char}
    (hnone : ∀ c, Text.isBlank c = true → isWanted c = false)
    (hblanks : ∀ c ∈ blanks, Text.isBlank c = true) (hrest : StopsAt isWanted rest) :
    StopsAt isWanted (blanks ++ rest) := by
  cases blanks with
  | nil => exact hrest
  | cons first more =>
    intro c hc
    cases hc
    exact hnone _ (hblanks _ List.mem_cons_self)

/-- A class to which no blank and no mark belongs is stopped at by tokens that begin with a mark. -/
theorem stopsAt_of_writtenTokens {isWanted : Char → Bool} {ts : List Token} {s : List Char}
    (hnone : ∀ c, Text.isBlank c = true → isWanted c = false)
    (hmarks : ['(', ')', ','].all (!isWanted ·) = true)
    (hts : ∀ next, ts.head? = some next → next.IsMark) (h : WrittenTokens ts s) :
    StopsAt isWanted s := by
  cases h with
  | nil hblanks =>
    have hend : StopsAt isWanted [] := nofun
    have hstop := stopsAt_blanks hnone hblanks hend
    rwa [List.append_nil] at hstop
  | @cons token more blanks spelling rest hblanks hwritten _ =>
    rw [List.append_assoc]
    refine stopsAt_blanks hnone hblanks fun c hc => ?_
    have hmark := hts token rfl
    have hmem : c ∈ ['(', ')', ','] := by
      cases hwritten <;> cases hmark <;> cases hc <;> decide
    simpa using List.all_eq_true.1 hmarks c hmem

theorem standsApart_of_mayFollow {token : Token} {more : List Token} {s : List Char}
    (hmore : ∀ next, more.head? = some next → MayFollow token next) (h : WrittenTokens more s) :
    StandsApart token s := by
  cases token with
  | name word =>
    exact stopsAt_of_writtenTokens (fun _ => continuesName_of_isBlank) (by decide)
      (fun next hnext => hmore next hnext trivial) h
  | integer value =>
    exact stopsAt_of_writtenTokens (fun _ => isDigit_of_isBlank) (by decide)
      (fun next hnext => hmore next hnext trivial) h
  | opening | closing | comma | text content => trivial

/-- Written tokens, of which every name and integer is followed by a mark, are read. -/
theorem exists_tokens_of_writtenTokens {ts : List Token} {s : List Char} (hts : ts.IsChain MayFollow)
    (h : WrittenTokens ts s) (place : Nat) :
    ∃ found, tokens place s = .ok found ∧ found.map (·.2) = ts := by
  suffices hwritten : ∃ found, WrittenAt place found s ∧ found.map (·.2) = ts by
    obtain ⟨found, hfound, heq⟩ := hwritten
    exact ⟨found, tokens_of_writtenAt hfound, heq⟩
  induction h generalizing place with
  | nil hblanks => exact ⟨[], .nil hblanks, rfl⟩
  | @cons token more blanks spelling rest hblanks hwritten hrest ih =>
    obtain ⟨hfirst, hmore⟩ := List.isChain_cons.1 hts
    obtain ⟨found, hfound, rfl⟩ := ih hmore (place + blanks.length + spelling.length)
    exact ⟨_, .cons hblanks hwritten (standsApart_of_mayFollow hfirst hrest) hfound, rfl⟩

end KeepAlive.Script
