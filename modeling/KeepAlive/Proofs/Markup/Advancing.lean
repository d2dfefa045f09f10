import KeepAlive.Proofs.Markup.Cutting
import KeepAlive.Proofs.Markup.Heads
import KeepAlive.Proofs.Markup.Written

/-!
# Markup is read to its end

Whatever the markup, every cut falls between two of its characters, and every round of a loop that
begins before the end goes on.  So the loops are over some time, and what comes out of them are the
tokens of the markup.
-/

namespace KeepAlive.Markup.Cutting

open Text (Cursor byteLength offset? offsetOf? sliceFrom? sliceTo?)

/-! ## References -/

section References

variable {s before after : List Char}

theorem entity_eq (body : List Char) : entity body = some (denoted? body) := by
  unfold entity denoted?
  cases namedCharacters.lookup (String.ofList body) with
  | some c => rfl
  | none =>
    rcases body with - | ⟨c, body⟩
    · rfl
    by_cases hnumber : c = '#'
    · subst hnumber
      rcases body with - | ⟨c, digits⟩
      · rfl
      have hslice := Text.sliceFrom?_append ['#', c] digits
      have hdecimal : sliceFrom? ('#' :: c :: digits) 1 = some (c :: digits) :=
        Text.sliceFrom?_append ['#'] (c :: digits)
      by_cases hsmall : c = 'x'
      · subst hsmall
        exact congrArg (Option.map _) hslice
      by_cases hcapital : c = 'X'
      · subst hcapital
        exact congrArg (Option.map _) hslice
      have hletter : ¬('x' = c ∨ 'X' = c) := fun h => h.elim (Ne.symm hsmall) (Ne.symm hcapital)
      simp [hletter, hsmall, hcapital, hdecimal]
    · simp [hnumber, Ne.symm hnumber]

/-- A reference ends with the first semicolon, and that is near. -/
theorem exists_of_reference? (h : reference? s ≠ none) : ∃ body rest, s = body ++ ';' :: rest ∧
    ';' ∉ body ∧ byteLength body ≤ longestBody := by
  unfold reference? at h
  dsimp only at h
  generalize hbody : (s.take (longestBody + 1)).takeWhile (· ≠ ';') = body at h
  have hinside : ';' ∉ body := fun hmem => by
    rw [← hbody] at hmem
    simpa using List.all_eq_true.1 List.all_takeWhile _ hmem
  have hprefix : body <+: s := hbody ▸ (List.takeWhile_prefix _).trans (List.take_prefix _ _)
  obtain ⟨left, rfl⟩ := hprefix
  split at h
  · rename_i hends
    obtain ⟨hsemicolon, hfits⟩ := Bool.and_eq_true_iff.1 hends
    cases left with
    | nil => simp at hsemicolon
    | cons c rest =>
      obtain rfl : c = ';' := by simpa using hsemicolon
      exact ⟨body, rest, rfl, hinside, of_decide_eq_true hfits⟩
  · exact absurd rfl h

theorem resolve_append (hbefore : '&' ∉ before) (s : List Char) :
    resolve (before ++ s) = before ++ resolve s := by
  induction before with
  | nil => rfl
  | cons c before ih =>
    obtain ⟨hc, hbefore⟩ := not_or.1 (mt List.mem_cons.2 hbefore)
    rw [List.cons_append, resolve, if_neg (Ne.symm hc), ih hbefore, List.cons_append]

theorem resolve_ampersand (s : List Char) : resolve ('&' :: s) = match reference? s with
    | some (c, width) => c :: resolve (s.drop width)
    | none => '&' :: resolve s := by
  rw [resolve]
  exact if_pos rfl

/-- The first mark of a text, by its byte. -/
theorem offset?_mark {mark : Char} (hbefore : mark ∉ before) (after : List Char) :
    offset? (· = mark) (before ++ mark :: after) = some (byteLength before) := by
  have hrun : ∀ c ∈ before, (!decide (c = mark)) = true := fun c hc => by
    have hne : c ≠ mark := fun heq => hbefore (heq ▸ hc)
    simpa using hne
  rw [Text.offset?_eq, if_pos (by simp), Text.takeWhile_run hrun (Text.stopsAt_cons_iff.2 (by simp))]

theorem offset?_eq_none {mark : Char} (h : mark ∉ s) : offset? (· = mark) s = none := by
  have hany : ¬s.any (fun c => decide (c = mark)) = true := by simpa using h
  rw [Text.offset?_eq, if_neg hany]

/-- Either the first semicolon is near, or there is no reference. -/
theorem semicolon_near_or_none (s : List Char) :
    (∃ body rest, s = body ++ ';' :: rest ∧ ';' ∉ body ∧ byteLength body ≤ longestBody ∧
      (offset? (· = ';') s).filter (· ≤ longestBody) = some (byteLength body)) ∨
    (offset? (· = ';') s).filter (· ≤ longestBody) = none ∧ reference? s = none := by
  by_cases hmem : ';' ∈ s
  · obtain ⟨body, rest, rfl, hbody⟩ := List.eq_append_cons_of_mem hmem
    rw [offset?_mark hbody, Option.filter]
    by_cases hfits : byteLength body ≤ longestBody
    · exact .inl ⟨body, rest, rfl, hbody, hfits, if_pos (decide_eq_true hfits)⟩
    · refine .inr ⟨if_neg (by simpa using hfits), ?_⟩
      by_contra hsome
      obtain ⟨other, left, heq, hother, hnear⟩ := exists_of_reference? hsome
      have hsame := congrArg (List.takeWhile (· ≠ ';')) heq
      rw [Text.takeWhile_ne hbody, Text.takeWhile_ne hother] at hsame
      exact hfits (hsame ▸ hnear)
  · refine .inr ⟨by rw [offset?_eq_none hmem]; rfl, ?_⟩
    by_contra hsome
    obtain ⟨body, rest, rfl, -⟩ := exists_of_reference? hsome
    simp at hmem

/-- A round resolves the text up to what it leaves. -/
theorem exists_resolveRound (s : List Char) : ∃ found left, resolveRound s = some (found, left) ∧
    resolve s = found ++ (left.map resolve).getD [] ∧ ∀ rest ∈ left, rest.length < s.length := by
  by_cases hmem : '&' ∈ s
  · obtain ⟨before, after, rfl, hbefore⟩ := List.eq_append_cons_of_mem hmem
    have hafter : sliceFrom? (before ++ '&' :: after) (byteLength before + 1) = some after :=
      Text.sliceFrom?_add ['&'] (Text.sliceFrom?_append before ('&' :: after))
    rw [resolveRound, offset?_mark hbefore, resolve_append hbefore, resolve_ampersand]
    simp only [Text.sliceTo?_append, hafter, Option.bind_eq_bind, Option.bind_some]
    rcases semicolon_near_or_none after with
      ⟨body, rest, rfl, hbody, hfits, hbytes⟩ | ⟨hbytes, hnone⟩
    · have hrest : sliceFrom? (body ++ ';' :: rest) (byteLength body + 1) = some rest :=
        Text.sliceFrom?_add [';'] (Text.sliceFrom?_append body (';' :: rest))
      have hdrop : (body ++ ';' :: rest).drop (body.length + 1) = rest := by simp
      rw [reference?_of_fits hbody hfits]
      simp only [hbytes, Text.sliceTo?_append, entity_eq, hrest, Option.bind_some]
      cases denoted? body with
      | none => exact ⟨_, _, rfl, by simp, by simp; omega⟩
      | some c => exact ⟨_, _, rfl, by simp [hdrop], by simp; omega⟩
    · rw [hnone, hbytes]
      exact ⟨_, _, rfl, by simp, by simp; omega⟩
  · refine ⟨s, none, ?_, ?_, by simp⟩
    · rw [resolveRound, offset?_eq_none hmem]
    · have hresolve := resolve_append hmem []
      simpa [resolve] using hresolve

theorem resolved_eq (s : List Char) : resolved s = some (resolve s) := by
  obtain ⟨found, left, hround, hresolve, hless⟩ := exists_resolveRound s
  rw [resolved, hround, hresolve]
  cases left with
  | none => simp
  | some left =>
    have hshorter := hless left rfl
    simp only [if_pos hshorter, resolved_eq left]
    rfl
termination_by s.length

end References

/-! ## Pieces of markup -/

section Pieces

variable {s before rest : List Char}

theorem gives_skipPast (mark before : List Char) :
    (skipPast s mark).Gives s before () (Text.afterFirst mark before) := by
  refine Cursor.gives_rest.bind ?_
  rw [Text.offsetOf?_eq, Text.afterFirst]
  cases hsplit : Text.splitAtFirst mark before with
  | none => exact Cursor.gives_finish
  | some parts =>
    obtain ⟨front, after⟩ := parts
    exact Cursor.gives_advance (front ++ mark) (Text.splitAtFirst_eq hsplit)
      (Text.byteLength_append front mark)

/-- A run of characters of a class is cut off at its end. -/
theorem sliceTo?_run (isWanted : Char → Bool) (s : List Char) :
    sliceTo? s ((offset? (fun c => !isWanted c) s).getD (byteLength s)) =
      some (s.takeWhile isWanted) := by
  have hclass : (fun c => !!isWanted c) = isWanted := funext fun c => Bool.not_not (isWanted c)
  have hslice := Text.sliceTo?_append (s.takeWhile isWanted) (s.dropWhile isWanted)
  rw [List.takeWhile_append_dropWhile] at hslice
  rw [Text.offset?_getD, hclass, hslice]

theorem gives_advance_run (isWanted : Char → Bool) :
    (Cursor.advance ((offset? (fun c => !isWanted c) before).getD (byteLength before))).Gives s before
      () (before.dropWhile isWanted) := by
  have hclass : (fun c => !!isWanted c) = isWanted := funext fun c => Bool.not_not (isWanted c)
  rw [Text.offset?_getD, hclass]
  exact Cursor.gives_advance _ List.takeWhile_append_dropWhile.symm rfl

theorem gives_name (before : List Char) :
    (name s).Gives s before (Text.asciiLower (before.takeWhile inName)) (before.dropWhile inName) := by
  refine Cursor.gives_rest.bind ((Cursor.gives_lift (sliceTo?_run inName before)).bind ?_)
  exact (gives_advance_run inName).bind (Cursor.gives_pure _)

theorem gives_skipBlanks : (skipBlanks s).Gives s before () (Text.dropBlanks before) := by
  obtain ⟨blanks, -, hbefore⟩ := Text.exists_blanks_append before
  refine Cursor.gives_rest.bind (Cursor.gives_advance blanks hbefore ?_)
  have hbytes := congrArg byteLength hbefore
  rw [Text.byteLength_append] at hbytes
  omega

theorem gives_closing (rest : List Char) : (closing s).Gives s ('<' :: '/' :: rest)
    (.closing (Text.asciiLower (rest.takeWhile inName)))
    (Text.afterFirst ['>'] (rest.dropWhile inName)) :=
  (Cursor.gives_advance ['<', '/'] rfl rfl).bind
    ((gives_name rest).bind ((gives_skipPast ['>'] _).bind (Cursor.gives_pure _)))

theorem gives_value :
    (value s).Gives s before (attributeValue before).1 (attributeValue before).2 := by
  refine Cursor.gives_rest.bind ?_
  cases before with
  | nil =>
    have hnothing : resolved [] = some [] := by rw [resolved_eq, resolve]
    refine (Cursor.gives_lift (sliceTo?_run inBareValue [])).bind ?_
    exact (gives_advance_run inBareValue).bind (Cursor.gives_lift hnothing)
  | cons c rest =>
    rw [attributeValue]
    by_cases hquote : (decide (c = '"') || decide (c = '\'')) = true
    · have hbytes : byteLength [c] = 1 := by
        simp only [Bool.or_eq_true, decide_eq_true_eq] at hquote
        rcases hquote with rfl | rfl <;> rfl
      have hbody : sliceFrom? (c :: rest) 1 = some rest :=
        hbytes ▸ Text.sliceFrom?_append [c] rest
      rw [List.head?_cons, Option.filter, if_pos hquote, if_pos hquote]
      refine (Cursor.gives_lift hbody).bind ?_
      by_cases hmem : c ∈ rest
      · obtain ⟨content, after, rfl, hcontent⟩ := List.eq_append_cons_of_mem hmem
        rw [offset?_mark hcontent, Text.takeWhile_ne hcontent, Text.dropWhile_ne hcontent]
        refine (Cursor.gives_lift (Text.sliceTo?_append content (c :: after))).bind ?_
        refine (Cursor.gives_advance (c :: (content ++ [c])) (by simp) ?_).bind
          (Cursor.gives_lift (resolved_eq content))
        rw [Text.byteLength_cons, Text.byteLength_append]
        simp only [Text.byteLength_cons, Text.byteLength_nil] at hbytes ⊢
        omega
      · have hrun : ∀ d ∈ rest, decide (d ≠ c) = true := fun d hd =>
          decide_eq_true fun heq => hmem (heq ▸ hd)
        have htaken := Text.takeWhile_run hrun Text.stopsAt_nil
        have hdropped := Text.dropWhile_run hrun Text.stopsAt_nil
        rw [List.append_nil] at htaken hdropped
        rw [offset?_eq_none hmem, htaken, hdropped]
        exact Cursor.gives_finish.bind (Cursor.gives_lift (resolved_eq rest))
    · rw [List.head?_cons, Option.filter, if_neg hquote, if_neg hquote]
      refine (Cursor.gives_lift (sliceTo?_run inBareValue (c :: rest))).bind ?_
      exact (gives_advance_run inBareValue).bind (Cursor.gives_lift (resolved_eq _))

/-- The first character is part of a text whatever it is. -/
theorem gives_text (c : Char) (rest : List Char) : (text s).Gives s (c :: rest)
    (if (c :: rest.takeWhile (· ≠ '<')).all Text.isBlank then none
      else some (.text (resolve (c :: rest.takeWhile (· ≠ '<')))))
    (rest.dropWhile (· ≠ '<')) := by
  have hsplit := List.takeWhile_append_dropWhile (p := fun d => decide (d ≠ '<')) (l := rest)
  have hclass : (fun d : Char => !decide (d = '<')) = fun d => decide (d ≠ '<') :=
    funext fun d => (decide_not).symm
  have hfirst : byteLength [c] = c.utf8Size := rfl
  have hbytes : ((offset? (· = '<') rest).map (· + c.utf8Size)).getD (byteLength (c :: rest)) =
      byteLength (c :: rest.takeWhile (· ≠ '<')) := by
    have hgetD := Text.offset?_getD (fun d => decide (d = '<')) rest
    rw [hclass] at hgetD
    rw [Text.byteLength_cons, Text.byteLength_cons, ← hgetD, Nat.add_comm c.utf8Size,
      Nat.add_comm c.utf8Size]
    cases offset? (fun d => decide (d = '<')) rest <;> rfl
  have hwhole : c :: rest = c :: rest.takeWhile (· ≠ '<') ++ rest.dropWhile (· ≠ '<') := by
    rw [List.cons_append, hsplit]
  have hraw : sliceTo? (c :: rest) (byteLength (c :: rest.takeWhile (· ≠ '<'))) =
      some (c :: rest.takeWhile (· ≠ '<')) := by
    have hslice := Text.sliceTo?_append (c :: rest.takeWhile (· ≠ '<')) (rest.dropWhile (· ≠ '<'))
    rwa [← hwhole] at hslice
  refine Cursor.gives_rest.bind ((Cursor.gives_lift (hfirst ▸ Text.sliceFrom?_append [c] rest)).bind ?_)
  simp only [List.head?_cons, Option.map_some, Option.getD_some, hbytes]
  refine (Cursor.gives_lift hraw).bind ((Cursor.gives_advance _ hwhole rfl).bind ?_)
  split
  · exact Cursor.gives_pure _
  · exact (Cursor.gives_lift (resolved_eq _)).bind (Cursor.gives_pure _)

end Pieces

/-! ## Attributes -/

section Attributes

variable {s before rest : List Char}

theorem attributes_nil (h : Text.dropBlanks before = []) : attributes before = ([], false, []) := by
  rw [attributes]
  split
  · rfl
  · rename_i hcons
    rw [h] at hcons
    cases hcons

theorem attributes_cons {c : Char} (h : Text.dropBlanks before = c :: rest) :
    attributes before =
      if c = '>' then ([], false, rest)
      else if c = '/' then
        if rest.head? = some '>' then ([], true, rest.drop 1) else attributes rest
      else if c = '=' then attributes rest
      else
        let read := valueAfterName (rest.dropWhile inName)
        let more := attributes read.2
        ((Text.asciiLower (c :: rest.takeWhile inName), read.1) :: more.1, more.2) := by
  rw [attributes]
  split
  · rename_i hnil
    rw [h] at hnil
    cases hnil
  · rename_i d more hcons
    rw [h] at hcons
    cases hcons
    rfl

/-- Whether a round of the loop over attributes that finds this leaves the second text of the first,
and reads what it finds as it is read. -/
def Found.IsRead (before : List Char) : Found → List Char → Prop
  | .last closed, after => attributes before = ([], closed, after)
  | .one pair, after =>
    attributes before = (pair.toList ++ (attributes after).1, (attributes after).2) ∧
      after.length < before.length

theorem gives_valueAfter :
    (valueAfter s).Gives s before (valueAfterName before).1 (valueAfterName before).2 := by
  refine gives_skipBlanks.bind (Cursor.gives_rest.bind ?_)
  unfold valueAfterName
  by_cases hequal : (Text.dropBlanks before).head? = some '='
  · obtain ⟨rest, hrest⟩ := List.head?_eq_some_iff.1 hequal
    rw [hrest]
    exact (Cursor.gives_advance ['='] rfl rfl).bind (gives_skipBlanks.bind gives_value)
  · have hother : ¬['='].isPrefixOf (Text.dropBlanks before) = true := fun hprefix => by
      obtain ⟨rest, hrest⟩ := List.isPrefixOf_iff_prefix.1 hprefix
      exact hequal (hrest ▸ rfl)
    rw [if_neg hother]
    split
    · rename_i rest hrest
      exact absurd (hrest ▸ rfl) hequal
    · exact Cursor.gives_pure []

/-- What stands behind the blanks is read, and something of it in any case. -/
theorem exists_find {c : Char} (hdropped : Text.dropBlanks before = c :: rest) :
    ∃ found after, (find s).Gives s (c :: rest) found after ∧ found.IsRead before after ∧
      after.length < before.length := by
  have hless : rest.length < before.length := length_lt_of_dropBlanks hdropped
  have hblank : Text.isBlank c = false :=
    Text.stopsAt_cons_iff.1 (hdropped ▸ Text.stopsAt_dropBlanks before)
  have hread := attributes_cons hdropped
  have hfirst (mark : Char) (hmark : c ≠ mark) (more : List Char) :
      ¬(mark :: more).isPrefixOf (c :: rest) = true := by
    simp [hmark.symm]
  have hsome : ¬(c :: rest).isEmpty = true := Bool.false_ne_true
  by_cases hend : c = '>'
  · subst hend
    refine ⟨.last false, rest, Cursor.gives_rest.bind ?_, hread, hless⟩
    exact (Cursor.gives_advance ['>'] rfl rfl).bind (Cursor.gives_pure _)
  by_cases hslash : c = '/'
  · subst hslash
    by_cases hclosed : rest.head? = some '>'
    · obtain ⟨after, rfl⟩ := List.head?_eq_some_iff.1 hclosed
      refine ⟨.last true, after, Cursor.gives_rest.bind ?_, hread, ?_⟩
      · exact (Cursor.gives_advance ['/', '>'] rfl rfl).bind (Cursor.gives_pure _)
      · exact Nat.lt_of_succ_lt hless
    · refine ⟨.one none, rest, Cursor.gives_rest.bind ?_, ⟨?_, hless⟩, hless⟩
      · have hopen : ¬['/', '>'].isPrefixOf ('/' :: rest) = true := by
          cases rest with
          | nil => decide
          | cons d rest =>
            have hd : '>' ≠ d := fun heq => hclosed (heq ▸ rfl)
            simp [hd]
        rw [if_neg hsome, if_neg (hfirst _ hend _), if_neg hopen]
        exact (Cursor.gives_advance ['/'] rfl rfl).bind (Cursor.gives_pure _)
      · rw [hread, if_neg (by decide), if_pos rfl, if_neg hclosed]
        rfl
  have hstart {found : Found} {after : List Char} (h : Cursor.Gives s (do
      let found ← name s
      if found.isEmpty then
        let left ← Cursor.rest s
        Cursor.advance ((left.head?.map Char.utf8Size).getD 1)
        return .one none
      else return .one (some (found, ← valueAfter s))) (c :: rest) found after) :
      (find s).Gives s (c :: rest) found after := by
    refine Cursor.gives_rest.bind ?_
    rw [if_neg hsome, if_neg (hfirst _ hend _), if_neg (hfirst _ hslash _),
      if_neg (hfirst _ hslash _)]
    exact h
  by_cases hequal : c = '='
  · subst hequal
    refine ⟨.one none, rest, hstart ((gives_name _).bind ?_), ⟨?_, hless⟩, hless⟩
    · exact Cursor.gives_rest.bind ((Cursor.gives_advance ['='] rfl rfl).bind
        (Cursor.gives_pure _))
    · rw [hread, if_neg (by decide), if_neg (by decide), if_pos rfl]
      rfl
  · have hname : inName c = true := by simp [inName, hblank, hend, hslash, hequal]
    have hshorter : (valueAfterName (rest.dropWhile inName)).2.length < before.length :=
      Nat.lt_of_le_of_lt (length_left_le rest) hless
    have hfound := gives_name (s := s) (c :: rest)
    rw [List.takeWhile_cons_of_pos hname, List.dropWhile_cons_of_pos hname] at hfound
    refine ⟨.one (some (Text.asciiLower (c :: rest.takeWhile inName),
      (valueAfterName (rest.dropWhile inName)).1)), _, hstart (hfound.bind ?_), ⟨?_, hshorter⟩,
      hshorter⟩
    · exact gives_valueAfter.bind (Cursor.gives_pure _)
    · rw [hread, if_neg hend, if_neg hslash, if_neg hequal]
      rfl

/-- A round of the loop over attributes goes on unless there is nothing left. -/
theorem exists_attributeRound (s before : List Char) : ∃ found after,
    (attributeRound s).Gives s before found after ∧ found.IsRead before after ∧
      (before = [] → found = .last false) ∧ (before ≠ [] → after.length < before.length) := by
  cases hdropped : Text.dropBlanks before with
  | nil =>
    refine ⟨.last false, [], gives_skipBlanks.bind ?_, attributes_nil hdropped, fun _ => rfl,
      List.length_pos_iff.2⟩
    rw [hdropped]
    exact Cursor.gives_rest.bind (Cursor.gives_pure _)
  | cons c rest =>
    obtain ⟨found, after, hfound, hread, hless⟩ := exists_find (s := s) hdropped
    refine ⟨found, after, gives_skipBlanks.bind (hdropped ▸ hfound), hread, ?_, fun _ => hless⟩
    rintro rfl
    cases hless

/-- The loop over attributes reads them all, the first of each name is kept. -/
theorem gives_attributesFrom (s before : List Char) (kept : List (List Char × List Char)) :
    Cursor.Gives s (attributesFrom s kept) before
      (((attributes before).1.map some).foldl Cutting.kept kept, (attributes before).2.1)
      (attributes before).2.2 := by
  intro byte hbyte
  obtain ⟨found, after, hround, hread, -, -⟩ := exists_attributeRound s before
  obtain ⟨next, hnext, hafter⟩ := hround byte hbyte
  rw [attributesFrom, hnext]
  cases found with
  | last closed =>
    rw [hread]
    exact ⟨next, rfl, hafter⟩
  | one pair =>
    obtain ⟨hread, hless⟩ := hread
    have hforward : byte < next ∧ next ≤ byteLength s :=
      ⟨Text.lt_of_length_lt hbyte hafter hless,
        (Text.isBoundary_iff_exists_slice.2 ⟨after, hafter⟩).le⟩
    dsimp only
    rw [if_pos hforward, hread]
    have hmore := gives_attributesFrom s after (Cutting.kept kept pair) next hafter
    cases pair with
    | none => exact hmore
    | some pair => exact hmore
termination_by before.length

theorem foldl_kept (pairs : List (List Char × List Char)) :
    (pairs.map some).foldl kept [] = firstOfEachName pairs := by
  rw [List.foldl_map]
  rfl

end Attributes

/-! ## Markup -/

section Rounds

variable {s before rest : List Char}

/-- The mark that ends a tag ends its name as well. -/
theorem afterFirst_dropWhile (rest : List Char) :
    Text.afterFirst ['>'] (rest.dropWhile inName) = Text.afterFirst ['>'] rest := by
  induction rest with
  | nil => rfl
  | cons c rest ih =>
    by_cases hname : inName c = true
    · have hc : c ≠ '>' := fun heq => by
        rw [heq] at hname
        exact absurd hname (by decide)
      rw [List.dropWhile_cons_of_pos hname, ih, Text.afterFirst, Text.afterFirst, Text.splitAtFirst,
        if_neg (by simp [hc.symm]), Option.map_map]
      rfl
    · rw [List.dropWhile_cons_of_neg hname]

/-- The content of an element that is no markup is passed over. -/
theorem gives_afterRaw (tag : List Char) {a : Token} : Cursor.Gives s (do
    let rest ← Cursor.rest s
    match offsetOf? ('<' :: '/' :: tag) (Text.asciiLower rest) with
    | some bytes =>
      Cursor.advance bytes
      skipPast s ['>']
    | none => Cursor.finish s
    return a) before a (afterRaw tag before) := by
  refine Cursor.gives_rest.bind ?_
  rw [Text.offsetOf?_eq, afterRaw]
  cases hsplit : Text.splitAtFirst ('<' :: '/' :: tag) (Text.asciiLower before) with
  | none => exact Cursor.gives_finish.bind (Cursor.gives_pure a)
  | some parts =>
    obtain ⟨front, after⟩ := parts
    have hlower := Text.splitAtFirst_eq hsplit
    -- The small letters have as many bytes as the letters of the text, so one byte cuts both.
    have hfront : Text.asciiLower (before.take front.length) = front := by
      have htake := congrArg (List.take front.length) hlower
      rw [List.append_assoc, List.take_left] at htake
      rw [Text.asciiLower, List.map_take]
      exact htake
    have hbytes : byteLength (before.take front.length) = byteLength front := by
      rw [← Text.byteLength_asciiLower, hfront]
    exact (Cursor.gives_advance _ (List.take_append_drop front.length before).symm hbytes).bind
      ((gives_skipPast ['>'] _).bind (Cursor.gives_pure a))

/-- A start tag is read as one token, with the content of its element where that is no markup. -/
theorem exists_opening {first : Char} (hfirst : first.isAlpha = true) (rest : List Char) :
    ∃ token after, (opening s).Gives s ('<' :: first :: rest) token after ∧
      tokens ('<' :: first :: rest) = token :: tokens after ∧
      after.length ≤ (first :: rest).length := by
  have hname := gives_name (s := s) (first :: rest)
  have hattributes := gives_attributesFrom s ((first :: rest).dropWhile inName) []
  have hafterName := Text.length_dropWhile_le inName (first :: rest)
  have hafterAttributes := length_attributes_le ((first :: rest).dropWhile inName)
  rw [foldl_kept] at hattributes
  rw [tokens_open hfirst]
  generalize Text.asciiLower ((first :: rest).takeWhile inName) = tag at hname
  generalize attributes ((first :: rest).dropWhile inName) = read at hattributes hafterAttributes
  have hopen {token : Token} {after : List Char} (h : Cursor.Gives s (do
      if rawTags.contains (String.ofList tag) then
        let rest ← Cursor.rest s
        match offsetOf? ('<' :: '/' :: tag) (Text.asciiLower rest) with
        | some bytes =>
          Cursor.advance bytes
          skipPast s ['>']
        | none => Cursor.finish s
        return .opening tag (firstOfEachName read.1) true
      else pure (.opening tag (firstOfEachName read.1)
        (read.2.1 || voidTags.contains (String.ofList tag)))) read.2.2 token after) :
      (opening s).Gives s ('<' :: first :: rest) token after :=
    (Cursor.gives_advance ['<'] rfl rfl).bind (hname.bind (hattributes.bind h))
  dsimp only
  by_cases hraw : rawTags.contains (String.ofList tag) = true
  · refine ⟨_, _, hopen ?_, if_pos hraw, ?_⟩
    · rw [if_pos hraw]
      exact gives_afterRaw tag
    · have hafterContent := length_afterRaw_le tag read.2.2
      omega
  · refine ⟨_, _, hopen ?_, if_neg hraw, by omega⟩
    rw [if_neg hraw]
    exact Cursor.gives_pure _

theorem afterFirst_cons {mark c : Char} (hc : mark ≠ c) (more rest : List Char) :
    Text.afterFirst (mark :: more) (c :: rest) = Text.afterFirst (mark :: more) rest := by
  rw [Text.afterFirst, Text.afterFirst, Text.splitAtFirst, if_neg (by simp [hc]), Option.map_map]
  rfl

/-- What is skipped up to a mark goes without a token, the `<` that it begins with being none of the
mark. -/
theorem gives_skipped {first : Char} (hfirst : first ≠ '<') (mark rest : List Char) :
    Cursor.Gives s (do skipPast s (first :: mark); return (none : Option Token)) ('<' :: rest) none
      (Text.afterFirst (first :: mark) rest) := by
  have hskip := gives_skipPast (s := s) (first :: mark) ('<' :: rest)
  rw [afterFirst_cons hfirst] at hskip
  exact hskip.bind (Cursor.gives_pure none)

/-- Whether a `<` has something after it that makes more of it than text. -/
def StartsMarkup (c : Char) (rest : List Char) : Prop :=
  c = '<' ∧ ∃ d more, rest = d :: more ∧ (d = '!' ∨ d = '?' ∨ d = '/' ∨ d.isAlpha = true)

theorem not_startsMarkup_cons_iff {d : Char} {more : List Char} : ¬StartsMarkup '<' (d :: more) ↔
    d ≠ '!' ∧ d ≠ '?' ∧ d ≠ '/' ∧ ¬d.isAlpha = true := by
  simp [StartsMarkup]

theorem tokens_of_not_startsMarkup {c : Char} (h : ¬StartsMarkup c rest) :
    tokens (c :: rest) =
      if (c :: rest.takeWhile (· ≠ '<')).all Text.isBlank then tokens (rest.dropWhile (· ≠ '<'))
      else .text (resolve (c :: rest.takeWhile (· ≠ '<'))) :: tokens (rest.dropWhile (· ≠ '<')) := by
  by_cases hc : c = '<'
  · subst hc
    cases rest with
    | nil =>
      rw [tokens]
      simp
    | cons d more =>
      obtain ⟨hmark, hquestion, hslash, hletter⟩ := not_startsMarkup_cons_iff.1 h
      rw [tokens]
      simp [hmark, hquestion, hslash, hletter, Ne.symm hmark]
  · exact tokens_of_ne hc rest

theorem gives_round_of_not_startsMarkup {c : Char} (h : ¬StartsMarkup c rest) {token : Option Token}
    {after : List Char} (htext : (text s).Gives s (c :: rest) token after) :
    (round s).Gives s (c :: rest) token after := by
  refine Cursor.gives_rest.bind ?_
  by_cases hc : c = '<'
  · subst hc
    have hslice : sliceFrom? ('<' :: rest) 1 = some rest := Text.sliceFrom?_append ['<'] rest
    cases rest with
    | nil => exact htext
    | cons d more =>
      obtain ⟨hmark, hquestion, hslash, hletter⟩ := not_startsMarkup_cons_iff.1 h
      have hstarts : startsTag ('<' :: d :: more) = some false := by
        simp [startsTag, hslice, hletter]
      rw [if_neg (by simp [hmark.symm]), if_neg (by simp [hmark.symm, hquestion.symm]),
        if_neg (by simp [hslash.symm])]
      exact (Cursor.gives_lift hstarts).bind htext
  · have hstarts : startsTag (c :: rest) = some false := by
      simp [startsTag, Ne.symm hc]
    rw [if_neg (by simp [Ne.symm hc]), if_neg (by simp [Ne.symm hc]), if_neg (by simp [Ne.symm hc])]
    exact (Cursor.gives_lift hstarts).bind htext

/-- A round of the loop over the markup reads what comes first, and something in any case. -/
theorem exists_round (c : Char) (rest : List Char) : ∃ token after,
    (round s).Gives s (c :: rest) token after ∧
      tokens (c :: rest) = token.toList ++ tokens after ∧ after.length < (c :: rest).length := by
  by_cases hmarkup : StartsMarkup c rest
  · obtain ⟨rfl, d, more, rfl, rfl | rfl | rfl | hletter⟩ := hmarkup
    · by_cases hcomment : ['-', '-'].isPrefixOf more = true
      · refine ⟨none, _, Cursor.gives_rest.bind ?_, ?_,
          Nat.lt_succ_of_le (Text.length_afterFirst_le ['-', '-', '>'] ('!' :: more))⟩
        · rw [if_pos (by simpa using hcomment)]
          exact gives_skipped (by decide) ['-', '>'] ('!' :: more)
        · rw [tokens, if_pos (by simpa using hcomment)]
          rfl
      · refine ⟨none, _, Cursor.gives_rest.bind ?_, ?_,
          Nat.lt_succ_of_le (Text.length_afterFirst_le ['>'] ('!' :: more))⟩
        · rw [if_neg (by simpa using hcomment), if_pos (by simp)]
          exact gives_skipped (by decide) [] ('!' :: more)
        · rw [tokens, if_neg (by simpa using hcomment), if_pos (by simp)]
          rfl
    · refine ⟨none, _, Cursor.gives_rest.bind ?_, ?_,
        Nat.lt_succ_of_le (Text.length_afterFirst_le ['>'] ('?' :: more))⟩
      · rw [if_neg (by simp), if_pos (by simp)]
        exact gives_skipped (by decide) [] ('?' :: more)
      · rw [tokens, if_neg (by simp), if_pos (by simp)]
        rfl
    · have hclosing := gives_closing (s := s) more
      have hle := Text.length_afterFirst_le ['>'] more
      rw [afterFirst_dropWhile] at hclosing
      refine ⟨some (.closing (Text.asciiLower (more.takeWhile inName))), _,
        Cursor.gives_rest.bind ?_, tokens_close more, ?_⟩
      · rw [if_neg (by simp), if_neg (by simp), if_pos (by simp)]
        exact hclosing.bind (Cursor.gives_pure _)
      · exact Nat.lt_succ_of_le (Nat.le_succ_of_le hle)
    · obtain ⟨token, after, hopening, htokens, hle⟩ := exists_opening (s := s) hletter more
      refine ⟨some token, after, Cursor.gives_rest.bind ?_, htokens, Nat.lt_succ_of_le hle⟩
      have hmark : d ≠ '!' ∧ d ≠ '?' ∧ d ≠ '/' := by
        refine ⟨?_, ?_, ?_⟩ <;> rintro rfl <;> exact absurd hletter (by decide)
      have hslice : sliceFrom? ('<' :: d :: more) 1 = some (d :: more) :=
        Text.sliceFrom?_append ['<'] (d :: more)
      have hstarts : startsTag ('<' :: d :: more) = some true := by
        simp [startsTag, hslice, hletter]
      rw [if_neg (by simp [hmark.1.symm]), if_neg (by simp [hmark.1.symm, hmark.2.1.symm]),
        if_neg (by simp [hmark.2.2.symm])]
      refine (Cursor.gives_lift hstarts).bind ?_
      exact hopening.bind (Cursor.gives_pure _)
  · refine ⟨_, _, gives_round_of_not_startsMarkup hmarkup (gives_text c rest), ?_,
      Nat.lt_succ_of_le (Text.length_dropWhile_le _ rest)⟩
    rw [tokens_of_not_startsMarkup hmarkup]
    split <;> rfl

theorem run_eq {before : List Char} {byte : Nat} (h : sliceFrom? s byte = some before) :
    run s byte = some (tokens before) := by
  cases before with
  | nil =>
    have hend : ¬byte < byteLength s := fun hless => (Text.lt_byteLength_iff h).1 hless rfl
    rw [run, if_neg hend, tokens]
  | cons c rest =>
    obtain ⟨token, after, hround, htokens, hless⟩ := exists_round (s := s) c rest
    obtain ⟨next, hnext, hafter⟩ := hround byte h
    have hstart : byte < byteLength s := (Text.lt_byteLength_iff h).2 (List.cons_ne_nil c rest)
    have hforward : byte < next := Text.lt_of_length_lt h hafter hless
    rw [run, if_pos hstart, hnext]
    dsimp only
    rw [if_pos hforward, run_eq hafter, htokens]
    rfl
termination_by before.length

end Rounds

/-- In every markup each round of the loop over it that begins before the end, between two characters,
goes on to a later place of this kind, and so does each round of the loop over attributes, which is over
at the end.  The whole loop reads the tokens of the document, and that has at most one node for each
character and three more. -/
theorem advances_to_the_end (markup : String) :
    (∀ byte, Text.IsBoundary markup.toList byte → byte < byteLength markup.toList →
      ∃ token next, round markup.toList byte = some (token, next) ∧
        Text.IsBoundary markup.toList next ∧ byte < next ∧ next ≤ byteLength markup.toList) ∧
    (∀ byte, Text.IsBoundary markup.toList byte →
      ∃ found next, attributeRound markup.toList byte = some (found, next) ∧
        Text.IsBoundary markup.toList next ∧ next ≤ byteLength markup.toList ∧
          (byte < byteLength markup.toList → byte < next) ∧
            (byte = byteLength markup.toList → found = .last false)) ∧
    run markup.toList 0 = some (tokens markup.toList) ∧
    (Document.parse markup).size ≤ markup.length + 3 := by
  refine ⟨fun byte hboundary hstart => ?_, fun byte hboundary => ?_, ?_, size_parse_le markup⟩
  · obtain ⟨before, hbefore⟩ := Text.isBoundary_iff_exists_slice.1 hboundary
    obtain ⟨c, rest, rfl⟩ := List.exists_cons_of_ne_nil ((Text.lt_byteLength_iff hbefore).1 hstart)
    obtain ⟨token, after, hround, -, hless⟩ := exists_round (s := markup.toList) c rest
    obtain ⟨next, hnext, hafter⟩ := hround byte hbefore
    have hlands := Text.isBoundary_iff_exists_slice.2 ⟨after, hafter⟩
    exact ⟨token, next, hnext, hlands, Text.lt_of_length_lt hbefore hafter hless, hlands.le⟩
  · obtain ⟨before, hbefore⟩ := Text.isBoundary_iff_exists_slice.1 hboundary
    obtain ⟨found, after, hround, -, hover, hless⟩ := exists_attributeRound markup.toList before
    obtain ⟨next, hnext, hafter⟩ := hround byte hbefore
    have hlands := Text.isBoundary_iff_exists_slice.2 ⟨after, hafter⟩
    refine ⟨found, next, hnext, hlands, hlands.le, fun hstart => ?_, fun hend => hover ?_⟩
    · exact Text.lt_of_length_lt hbefore hafter (hless ((Text.lt_byteLength_iff hbefore).1 hstart))
    · by_contra hsome
      exact absurd ((Text.lt_byteLength_iff hbefore).2 hsome) (hend ▸ Nat.lt_irrefl _)
  · exact run_eq (by rw [sliceFrom?])

end KeepAlive.Markup.Cutting
