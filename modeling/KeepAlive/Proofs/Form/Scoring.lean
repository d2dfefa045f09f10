import KeepAlive.Form.Rank
import KeepAlive.Proofs.Form.Clues

/-!
# Scoring element by element

Counting the locators one after the other for all elements that they designate gives every element the
same score as counting for it alone the locators of the clues that speak for it, each once.
-/

namespace KeepAlive.Form

open Locator Markup

/-! ## One candidate -/

/-- Whether the candidate has collected these locators with these weights, and nothing else. -/
structure Candidate.Counts (candidate : Candidate) (counted : List (String × Nat)) : Prop where
  score_eq : candidate.score = (counted.map Prod.snd).sum
  evidence_eq : candidate.evidence = counted.map Prod.fst
  nodup : (counted.map Prod.fst).Nodup

/-- Counts the locator of a clue for a candidate if the clue speaks for it. -/
def Candidate.weigh (document : Document) (candidate : Candidate) (pair : Clue × Nat) : Candidate :=
  if pair.1.speaksFor document candidate.place then candidate.collect pair.1.locator pair.2
  else candidate

/-- Counts the path of a candidate that is inside a form. -/
def Candidate.weighForm (candidate : Candidate) : Candidate :=
  if isInForm candidate.place then candidate.collect candidate.place.absolutePath formBonus
  else candidate

section Candidate

variable {candidate : Candidate} {counted all : List (String × Nat)}

@[simp] theorem Candidate.place_collect (candidate : Candidate) (locator : String) (weight : Nat) :
    (candidate.collect locator weight).place = candidate.place := by
  unfold collect
  split <;> rfl

@[simp] theorem Candidate.place_weigh (document : Document) (candidate : Candidate)
    (pair : Clue × Nat) : (candidate.weigh document pair).place = candidate.place := by
  unfold weigh
  split
  · exact candidate.place_collect _ _
  · rfl

@[simp] theorem Candidate.place_weighForm (candidate : Candidate) :
    candidate.weighForm.place = candidate.place := by
  unfold weighForm
  split
  · exact candidate.place_collect _ _
  · rfl

@[simp] theorem Candidate.place_foldl_weigh (document : Document) (candidate : Candidate)
    (pairs : List (Clue × Nat)) :
    (pairs.foldl (Candidate.weigh document) candidate).place = candidate.place := by
  induction pairs generalizing candidate with
  | nil => rfl
  | cons pair pairs ih => rw [List.foldl_cons, ih, place_weigh]

theorem eq_of_mem_of_nodup_fst {α β : Type} {list : List (α × β)} (hnodup : (list.map Prod.fst).Nodup)
    {a : α} {b c : β} (hb : (a, b) ∈ list) (hc : (a, c) ∈ list) : b = c :=
  congrArg Prod.snd (List.inj_on_of_nodup_map hnodup hb hc rfl)

/-- A locator that is collected is one of those counted, whether or not it was before. -/
theorem Candidate.Counts.collect (h : candidate.Counts counted) (hall : (all.map Prod.fst).Nodup)
    (hcounted : counted ⊆ all) {locator : String} {weight : Nat} (hpair : (locator, weight) ∈ all) :
    ∃ more, (candidate.collect locator weight).Counts more ∧
      ∀ pair, pair ∈ more ↔ pair ∈ counted ∨ pair = (locator, weight) := by
  unfold Candidate.collect
  split
  · rename_i hknown
    rw [List.contains_iff_mem, h.evidence_eq] at hknown
    obtain ⟨⟨known, other⟩, hmem, rfl⟩ := List.mem_map.1 hknown
    obtain rfl : other = weight := eq_of_mem_of_nodup_fst hall (hcounted hmem) hpair
    refine ⟨counted, h, fun pair => ⟨.inl, ?_⟩⟩
    rintro (hpair | rfl)
    · exact hpair
    · exact hmem
  · rename_i hnew
    rw [List.contains_iff_mem, h.evidence_eq] at hnew
    refine ⟨counted ++ [(locator, weight)], ⟨?_, ?_, ?_⟩, fun pair => by simp⟩
    · simp [h.score_eq]
    · simp [h.evidence_eq]
    · rw [List.map_append]
      exact h.nodup.append (List.nodup_singleton _) (by simpa using hnew)

/-- Weighing clues counts the locators of those that speak for the candidate. -/
theorem Candidate.Counts.foldl_weigh {document : Document} {pairs : List (Clue × Nat)}
    (h : candidate.Counts counted) (hall : (all.map Prod.fst).Nodup) (hcounted : counted ⊆ all)
    (hpairs : ∀ pair ∈ pairs, pair.1.speaksFor document candidate.place = true →
      (pair.1.locator, pair.2) ∈ all) :
    ∃ more, (pairs.foldl (Candidate.weigh document) candidate).Counts more ∧
      ∀ entry, entry ∈ more ↔ entry ∈ counted ∨
        ∃ pair ∈ pairs, pair.1.speaksFor document candidate.place = true ∧
          entry = (pair.1.locator, pair.2) := by
  induction pairs generalizing candidate counted with
  | nil => exact ⟨counted, h, fun entry => by simp⟩
  | cons pair pairs ih =>
    obtain ⟨hpair, hrest⟩ := List.forall_mem_cons.1 hpairs
    have hplace := candidate.place_weigh document pair
    by_cases hspeaks : pair.1.speaksFor document candidate.place = true
    · obtain ⟨more, hmore, hmem⟩ := h.collect hall hcounted (hpair hspeaks)
      have hweigh : candidate.weigh document pair = candidate.collect pair.1.locator pair.2 :=
        if_pos hspeaks
      rw [← hweigh] at hmore
      have hsubset : more ⊆ all := fun entry hentry => by
        rcases (hmem entry).1 hentry with hentry | rfl
        · exact hcounted hentry
        · exact hpair hspeaks
      rw [← hplace] at hrest
      obtain ⟨last, hlast, hmem'⟩ := ih hmore hsubset hrest
      refine ⟨last, hlast, fun entry => ?_⟩
      rw [hmem', hmem, hplace, or_assoc]
      simp [hspeaks]
    · have hweigh : candidate.weigh document pair = candidate := if_neg hspeaks
      obtain ⟨last, hlast, hmem⟩ := ih h hcounted hrest
      refine ⟨last, by rwa [List.foldl_cons, hweigh], fun entry => ?_⟩
      rw [hmem]
      simp [hspeaks]

end Candidate

/-! ## All candidates -/

section Candidates

variable {document : Document} {candidates : List Candidate}

theorem add_of_any {place : Place} (hany : candidates.any (·.place.id = place.id) = true)
    (locator : String) (weight : Nat) :
    add locator weight candidates place = candidates.map fun candidate =>
      if candidate.place.id = place.id then candidate.collect locator weight else candidate :=
  if_pos hany

theorem map_place_of_collects {changed : Candidate → Candidate}
    (hchanged : ∀ candidate, (changed candidate).place = candidate.place) :
    (candidates.map changed).map Candidate.place = candidates.map Candidate.place := by
  rw [List.map_map]
  exact List.map_congr_left fun candidate _ => hchanged candidate

/-- An element of a document is among others when its number is. -/
theorem any_id_iff (h : IsNumbered document.size document.top.ids) {found : List Place}
    (hfound : found ⊆ document.places) {place : Place} (hplace : place ∈ document.places) :
    found.any (·.id = place.id) = true ↔ place ∈ found := by
  rw [List.any_eq_true]
  constructor
  · rintro ⟨other, hother, hid⟩
    rwa [← eq_of_place_id_eq h (hfound hother) hplace (of_decide_eq_true hid)]
  · exact fun hmem => ⟨place, hmem, by simp⟩

/-- Counting locators for elements that are candidates changes those and no others. -/
theorem foldl_add_of_present (h : IsNumbered document.size document.top.ids) {found : List Place}
    (hnodup : (found.map Place.id).Nodup)
    (hcandidates : candidates.map Candidate.place ⊆ document.places)
    (hfound : found ⊆ candidates.map Candidate.place) (locator : Place → String) (weight : Nat) :
    found.foldl (fun candidates place => add (locator place) weight candidates place) candidates =
      candidates.map fun candidate =>
        if found.any (·.id = candidate.place.id) then
          candidate.collect (locator candidate.place) weight
        else candidate := by
  -- Counting changes no place, so what is known of the candidates holds again after each element.
  induction found generalizing candidates with
  | nil => simp
  | cons first rest ih =>
    rw [List.map_cons, List.nodup_cons] at hnodup
    obtain ⟨hfirst, hrest⟩ := List.cons_subset.1 hfound
    have hany : candidates.any (·.place.id = first.id) = true := by
      obtain ⟨known, hknown, rfl⟩ := List.mem_map.1 hfirst
      exact List.any_eq_true.2 ⟨known, hknown, by simp⟩
    let changed : Candidate → Candidate := fun candidate =>
      if candidate.place.id = first.id then candidate.collect (locator first) weight else candidate
    have hchanged (candidate : Candidate) : (changed candidate).place = candidate.place := by
      simp only [changed]
      split
      · exact candidate.place_collect _ _
      · rfl
    have hplaces : (candidates.map changed).map Candidate.place = candidates.map Candidate.place :=
      map_place_of_collects hchanged
    rw [List.foldl_cons, add_of_any hany, ih hnodup.2 (by rwa [hplaces]) (by rwa [hplaces]),
      List.map_map]
    refine List.map_congr_left fun candidate hcandidate => ?_
    have hplace : candidate.place ∈ document.places :=
      hcandidates (List.mem_map_of_mem hcandidate)
    change (if rest.any (·.id = (changed candidate).place.id) then
      (changed candidate).collect (locator (changed candidate).place) weight
      else changed candidate) = _
    rw [hchanged]
    by_cases hsame : candidate.place.id = first.id
    · have hfirst' : candidate.place = first :=
        eq_of_place_id_eq h hplace (hcandidates hfirst) hsame
      have hlater : ¬rest.any (·.id = candidate.place.id) = true := by
        simpa [hsame] using hnodup.1
      have hnow : (first :: rest).any (·.id = candidate.place.id) = true := by
        simp [hsame]
      rw [if_neg hlater, if_pos hnow, hfirst']
      exact if_pos hsame
    · have hkept : changed candidate = candidate := if_neg hsame
      have hno : decide (first.id = candidate.place.id) = false :=
        decide_eq_false fun heq => hsame heq.symm
      rw [hkept, List.any_cons, hno, Bool.false_or]

/-- Counting a locator for elements that are no candidates makes them candidates. -/
theorem foldl_add_of_absent {found : List Place} (hnodup : (found.map Place.id).Nodup)
    (hfound : ∀ place ∈ found, ∀ candidate ∈ candidates, candidate.place.id ≠ place.id)
    (locator : String) (weight : Nat) :
    found.foldl (add locator weight) candidates =
      candidates ++ found.map (⟨·, weight, [locator]⟩) := by
  induction found generalizing candidates with
  | nil => simp
  | cons first rest ih =>
    rw [List.map_cons, List.nodup_cons] at hnodup
    obtain ⟨hfirst, hrest⟩ := List.forall_mem_cons.1 hfound
    have hnew : add locator weight candidates first = candidates ++ [⟨first, weight, [locator]⟩] :=
      if_neg (by simpa using hfirst)
    rw [List.foldl_cons, hnew, ih hnodup.2, List.append_assoc]
    · rfl
    · intro place hplace candidate hcandidate
      rcases List.mem_append.1 hcandidate with hcandidate | hcandidate
      · exact hrest place hplace candidate hcandidate
      · obtain rfl := List.mem_singleton.1 hcandidate
        exact fun heq => hnodup.1 (heq ▸ List.mem_map_of_mem hplace)

/-! ### Clues in turn -/

/-- The candidates that the tags give, in the order of the tags and of the document. -/
def begun (document : Document) (tags : List (String × Nat)) : List Candidate :=
  tags.flatMap fun (tag, weight) =>
    (document.places.filter (·.tag = tag)).map (⟨·, weight, [(Clue.hasTag tag).locator]⟩)

/-- Counts the locators of some clues for all elements that they designate. -/
def scoredFrom (document : Document) (candidates : List Candidate) (pairs : List (Clue × Nat)) :
    List Candidate :=
  pairs.foldl (fun candidates (clue, weight) =>
    addDesignated document candidates clue.locator weight) candidates

theorem addDesignated_eq {locator : String} {found : List Place}
    (hselect : select document locator = .ok found) (weight : Nat) :
    addDesignated document candidates locator weight = found.foldl (add locator weight) candidates := by
  unfold addDesignated
  split
  · rename_i places hplaces
    cases hselect.symm.trans hplaces
    rfl
  · rename_i hrefused
    cases hselect.symm.trans hrefused

/-- The clues of tags make candidates of the elements with the tags. -/
theorem scoredFrom_tags (h : IsNumbered document.size document.top.ids) {tags : List (String × Nat)}
    (hnames : ∀ entry ∈ tags, IsName entry.1) (hnodup : (tags.map Prod.fst).Nodup)
    (hcandidates : candidates.map Candidate.place ⊆ document.places)
    (hothers : ∀ candidate ∈ candidates, candidate.place.tag ∉ tags.map Prod.fst) :
    scoredFrom document candidates (tags.map fun (tag, weight) => (.hasTag tag, weight)) =
      candidates ++ begun document tags := by
  induction tags generalizing candidates with
  | nil => simp [scoredFrom, begun]
  | cons entry tags ih =>
    obtain ⟨tag, weight⟩ := entry
    obtain ⟨hname, hnames⟩ := List.forall_mem_cons.1 hnames
    rw [List.map_cons, List.nodup_cons] at hnodup
    have hselect := select_hasTag h hname
    have hadded : addDesignated document candidates (Clue.hasTag tag).locator weight =
        candidates ++ (document.places.filter (·.tag = tag)).map
          (⟨·, weight, [(Clue.hasTag tag).locator]⟩) := by
      rw [addDesignated_eq hselect]
      refine foldl_add_of_absent (nodup_map_id_filter (nodup_map_id_places h) _) ?_ _ _
      intro place hplace candidate hcandidate hid
      obtain ⟨hplace, htag⟩ := List.mem_filter.1 hplace
      have hsame : candidate.place = place :=
        eq_of_place_id_eq h (hcandidates (List.mem_map_of_mem hcandidate)) hplace hid
      refine hothers candidate hcandidate ?_
      rw [hsame, of_decide_eq_true htag]
      exact List.mem_cons_self
    have hfirst : scoredFrom document candidates
        (((tag, weight) :: tags).map fun (tag, weight) => (.hasTag tag, weight)) =
        scoredFrom document (addDesignated document candidates (Clue.hasTag tag).locator weight)
          (tags.map fun (tag, weight) => (.hasTag tag, weight)) := rfl
    rw [hfirst, hadded, ih hnames hnodup.2, List.append_assoc]
    · rfl
    · rw [List.map_append, List.map_map]
      exact List.append_subset.2 ⟨hcandidates, by simp [Function.comp_def]⟩
    · intro candidate hcandidate
      rcases List.mem_append.1 hcandidate with hcandidate | hcandidate
      · exact fun hmem => hothers candidate hcandidate (List.mem_cons_of_mem _ hmem)
      · obtain ⟨place, hplace, rfl⟩ := List.mem_map.1 hcandidate
        obtain rfl : place.tag = tag := of_decide_eq_true (List.mem_filter.1 hplace).2
        exact hnodup.1

/-- Clues that speak for candidates only change each candidate on its own. -/
theorem scoredFrom_eq_map (h : IsNumbered document.size document.top.ids)
    {pairs : List (Clue × Nat)} (hsound : ∀ pair ∈ pairs, pair.1.IsSound)
    (hcandidates : candidates.map Candidate.place ⊆ document.places)
    (hpresent : ∀ pair ∈ pairs, ∀ place ∈ document.places,
      pair.1.speaksFor document place = true → place ∈ candidates.map Candidate.place) :
    scoredFrom document candidates pairs =
      candidates.map fun candidate => pairs.foldl (Candidate.weigh document) candidate := by
  induction pairs generalizing candidates with
  | nil => simp [scoredFrom]
  | cons pair pairs ih =>
    obtain ⟨hpair, hsound⟩ := List.forall_mem_cons.1 hsound
    obtain ⟨hfirst, hpresent⟩ := List.forall_mem_cons.1 hpresent
    obtain ⟨found, hselect, hnodup, hmem⟩ := select_locator h hpair
    have hadded : addDesignated document candidates pair.1.locator pair.2 =
        candidates.map (Candidate.weigh document · pair) := by
      rw [addDesignated_eq hselect]
      refine (foldl_add_of_present h hnodup hcandidates ?_ (fun _ => pair.1.locator) pair.2).trans ?_
      · intro place hplace
        obtain ⟨hplace, hspeaks⟩ := (hmem place).1 hplace
        exact hfirst place hplace hspeaks
      · refine List.map_congr_left fun candidate hcandidate => ?_
        have hplace : candidate.place ∈ document.places :=
          hcandidates (List.mem_map_of_mem hcandidate)
        have hany : found.any (·.id = candidate.place.id) = true ↔
            pair.1.speaksFor document candidate.place = true := by
          rw [any_id_iff h (fun place hplace => ((hmem place).1 hplace).1) hplace, hmem,
            and_iff_right hplace]
        simp only [Candidate.weigh, hany]
    have hstep : scoredFrom document candidates (pair :: pairs) =
        scoredFrom document (addDesignated document candidates pair.1.locator pair.2) pairs := rfl
    have hplaces : (candidates.map (Candidate.weigh document · pair)).map Candidate.place =
        candidates.map Candidate.place :=
      map_place_of_collects fun candidate => candidate.place_weigh document pair
    rw [hstep, hadded, ih hsound (by rwa [hplaces]) (by rwa [hplaces]), List.map_map]
    rfl

/-- Being inside a form is counted for each candidate on its own. -/
theorem addForms_eq_map (h : IsNumbered document.size document.top.ids)
    (hcandidates : candidates.map Candidate.place ⊆ document.places)
    (hnodup : ((candidates.map Candidate.place).map Place.id).Nodup) :
    addForms candidates = candidates.map Candidate.weighForm := by
  have hinside : (candidates.map Candidate.place).filter isInForm ⊆ candidates.map Candidate.place :=
    List.filter_subset_self _
  have hdistinct : (((candidates.map Candidate.place).filter isInForm).map Place.id).Nodup :=
    nodup_map_id_filter hnodup isInForm
  refine (foldl_add_of_present h hdistinct hcandidates hinside Place.absolutePath formBonus).trans ?_
  refine List.map_congr_left fun candidate hcandidate => ?_
  have hplace : candidate.place ∈ candidates.map Candidate.place := List.mem_map_of_mem hcandidate
  simp only [any_id_iff h (List.Subset.trans hinside hcandidates) (hcandidates hplace),
    List.mem_filter, and_iff_right hplace, Candidate.weighForm]

end Candidates

end KeepAlive.Form
