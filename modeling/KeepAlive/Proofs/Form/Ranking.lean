import KeepAlive.Proofs.Form.Reasons
import KeepAlive.Proofs.Form.Scoring

/-!
# The ranking of a page

The ranking for a field holds the elements with a suitable tag that are not marked hidden, each once.
What an element scores is the sum of what speaks for it, and the best come first; elements of equal
score come in the order of the tag table and, within a tag, of the document.  Scores are small for any
page of moderate size (`score_lt_of_mem_rank`).
-/

namespace KeepAlive.Form

open Locator Markup

/-- Whether an element can be in the ranking for a field. -/
def isSuitable (field : Field) (place : Place) : Bool :=
  ((rules field).tags.map Prod.fst).contains place.tag && !isMarkedHidden place

/-- What an element scores for a field. -/
def scoreOf (field : Field) (document : Document) (place : Place) : Nat :=
  weightOf (rules field) document place + if isInForm place then formBonus else 0

/-- The locators that speak for an element, each with what it counts. -/
def contributions (field : Field) (document : Document) (place : Place) : List (String × Nat) :=
  ((reasons (rules field) document place).map fun (clue, weight) => (clue.locator, weight)) ++
    if isInForm place then [(place.absolutePath, formBonus)] else []

/-- The place of an element's tag in the tag table of a field. -/
def tagIndex (field : Field) (place : Place) : Nat :=
  ((rules field).tags.map Prod.fst).idxOf place.tag

/-- Whether an element is found before another: by the tag table, and then by the document. -/
def IsFoundBefore (field : Field) (document : Document) (place other : Place) : Prop :=
  tagIndex field place < tagIndex field other ∨
    tagIndex field place = tagIndex field other ∧ Precedes document place other

/-- Sorting by score keeps elements of equal score in the order in which they were. -/
theorem pairwise_mergeSort_score {α : Type} (score : α → Nat) {r : α → α → Prop} {list : List α}
    (hlist : list.Pairwise r) :
    (list.mergeSort fun a b => decide (score b ≤ score a)).Pairwise fun a b =>
      score b < score a ∨ score a = score b ∧ r a b := by
  -- The list is numbered first: sorting keeps equal scores in the order of their numbers.
  let le : α → α → Bool := fun a b => decide (score b ≤ score a)
  have htrans (a b c : α) (hab : le a b = true) (hbc : le b c = true) : le a c = true :=
    decide_eq_true (Nat.le_trans (of_decide_eq_true hbc) (of_decide_eq_true hab))
  have htotal (a b : α) : (le a b || le b a) = true := by
    simpa [le] using Nat.le_total (score b) (score a)
  have hsorted := List.pairwise_mergeSort (List.zipIdxLE_trans htrans) (List.zipIdxLE_total htotal)
    list.zipIdx
  have hperm := List.mergeSort_perm list.zipIdx (List.zipIdxLE le)
  have hdistinct : (list.zipIdx.mergeSort (List.zipIdxLE le)).Pairwise fun a b => a.2 ≠ b.2 := by
    rw [← List.pairwise_map]
    refine (hperm.map Prod.snd).nodup_iff.2 ?_
    rw [List.zipIdx_map_snd]
    exact List.nodup_range'
  change (list.mergeSort le).Pairwise _
  rw [← List.mergeSort_zipIdx, List.pairwise_map]
  refine (hsorted.and hdistinct).imp_of_mem ?_
  rintro ⟨a, i⟩ ⟨b, j⟩ ha hb ⟨hle, hne⟩
  rw [List.zipIdxLE] at hle
  dsimp only at hle hne ⊢
  split at hle
  · rename_i hab
    have hab : score b ≤ score a := of_decide_eq_true hab
    split at hle
    · rename_i hba
      have hba : score a ≤ score b := of_decide_eq_true hba
      have hlt : i < j := Nat.lt_of_le_of_ne (of_decide_eq_true hle) hne
      have hfirst : list[i]? = some a := List.mem_zipIdx_iff_getElem?.1 (hperm.mem_iff.1 ha)
      have hsecond : list[j]? = some b := List.mem_zipIdx_iff_getElem?.1 (hperm.mem_iff.1 hb)
      obtain ⟨hi, rfl⟩ := List.getElem?_eq_some_iff.1 hfirst
      obtain ⟨hj, rfl⟩ := List.getElem?_eq_some_iff.1 hsecond
      exact .inr ⟨Nat.le_antisymm hba hab, List.pairwise_iff_getElem.1 hlist i j hi hj hlt⟩
    · rename_i hba
      exact .inl (Nat.lt_of_not_le fun hle => hba (decide_eq_true hle))
  · cases hle

/-! ## Candidates -/

section Candidates

variable {document : Document} {field : Field}

/-- The elements with a tag of the table, in the order in which they are found. -/
def foundPlaces (field : Field) (document : Document) : List Place :=
  (rules field).tags.flatMap fun (tag, _) => document.places.filter (·.tag = tag)

theorem map_place_begun (field : Field) (document : Document) :
    (begun document (rules field).tags).map Candidate.place = foundPlaces field document := by
  rw [begun, List.map_flatMap, foundPlaces]
  simp [Function.comp_def]

theorem mem_foundPlaces_iff {place : Place} : place ∈ foundPlaces field document ↔
    place ∈ document.places ∧ place.tag ∈ (rules field).tags.map Prod.fst := by
  simp only [foundPlaces, List.mem_flatMap, List.mem_filter, List.mem_map, decide_eq_true_eq]
  constructor
  · rintro ⟨entry, hentry, hplace, htag⟩
    exact ⟨hplace, entry, hentry, htag.symm⟩
  · rintro ⟨hplace, entry, hentry, htag⟩
    exact ⟨entry, hentry, hplace, htag.symm⟩

theorem pairwise_foundPlaces (h : IsNumbered document.size document.top.ids) :
    (foundPlaces field document).Pairwise (IsFoundBefore field document) := by
  have hnodup := (isSound_rules field).nodup_tags
  rw [foundPlaces, List.pairwise_flatMap]
  constructor
  · intro entry hentry
    refine ((pairwise_places h).filter _).imp_of_mem fun {place other} hplace hother hprecedes => ?_
    have htag : place.tag = entry.1 := of_decide_eq_true (List.mem_filter.1 hplace).2
    have htag' : other.tag = entry.1 := of_decide_eq_true (List.mem_filter.1 hother).2
    exact .inr ⟨by rw [tagIndex, tagIndex, htag, htag'], hprecedes⟩
  · rw [List.pairwise_iff_getElem]
    intro i j hi hj hlt place hplace other hother
    have hindex (k : Nat) (hk : k < (rules field).tags.length) (place : Place)
        (hplace : place ∈ document.places.filter (·.tag = (rules field).tags[k].1)) :
        tagIndex field place = k := by
      have hk' : k < ((rules field).tags.map Prod.fst).length := by rwa [List.length_map]
      have htag : place.tag = ((rules field).tags.map Prod.fst)[k] := by
        rw [List.getElem_map]
        exact of_decide_eq_true (List.mem_filter.1 hplace).2
      rw [tagIndex, htag, hnodup.idxOf_getElem k hk']
    refine .inl ?_
    rw [hindex i hi place hplace, hindex j hj other hother]
    exact hlt

theorem nodup_map_id_foundPlaces (h : IsNumbered document.size document.top.ids) :
    ((foundPlaces field document).map Place.id).Nodup := by
  refine List.pairwise_map.2 ((pairwise_foundPlaces h).imp_of_mem ?_)
  rintro place other hplace hother (hindex | ⟨-, hprecedes⟩) hid
  · have hsame : place = other :=
      eq_of_place_id_eq h (mem_foundPlaces_iff.1 hplace).1 (mem_foundPlaces_iff.1 hother).1 hid
    exact Nat.ne_of_lt hindex (congrArg (tagIndex field) hsame)
  · exact Nat.ne_of_lt hprecedes (congrArg document.order hid)

/-! ### What they score -/

/-- The clues for a field beyond the tags. -/
def furtherClues (field : Field) (document : Document) : List (Clue × Nat) :=
  (rules field).tags.flatMap fun (tag, _) =>
    cluesAmong (rules field) tag (document.places.filter (·.tag = tag))

/-- Counts for one candidate all that speaks for it beyond its tag. -/
def finished (field : Field) (document : Document) (candidate : Candidate) : Candidate :=
  ((furtherClues field document).foldl (Candidate.weigh document) candidate).weighForm

theorem clues_eq (field : Field) (document : Document) : clues (rules field) document =
    ((rules field).tags.map fun (tag, weight) => (.hasTag tag, weight)) ++
      furtherClues field document :=
  rfl

@[simp] theorem place_finished (field : Field) (document : Document) (candidate : Candidate) :
    (finished field document candidate).place = candidate.place := by
  rw [finished, Candidate.place_weighForm, Candidate.place_foldl_weigh]

theorem scored_eq_map (h : IsNumbered document.size document.top.ids)
    (hcount : document.places.length + 1 < numberBound) :
    scored document field = (begun document (rules field).tags).map fun candidate =>
      (furtherClues field document).foldl (Candidate.weigh document) candidate := by
  have hrules := isSound_rules field
  have hsplit : scored document field = scoredFrom document (scoredFrom document []
      ((rules field).tags.map fun (tag, weight) => (.hasTag tag, weight)))
      (furtherClues field document) := by
    rw [scored, clues_eq, List.foldl_append]
    rfl
  rw [hsplit, scoredFrom_tags h hrules.isName_tag hrules.nodup_tags (List.nil_subset _)
    (fun _ hnone => absurd hnone List.not_mem_nil), List.nil_append]
  refine scoredFrom_eq_map h ?_ ?_ ?_
  · intro pair hpair
    exact isSound_of_mem_clues hrules hcount (List.mem_append_right _ hpair)
  · rw [map_place_begun]
    exact fun place hplace => (mem_foundPlaces_iff.1 hplace).1
  · intro pair hpair place hplace hspeaks
    rw [map_place_begun, mem_foundPlaces_iff]
    obtain ⟨entry, hentry, hclue⟩ := List.mem_flatMap.1 hpair
    refine ⟨hplace, List.mem_map.2 ⟨entry, hentry, ?_⟩⟩
    exact (tag_eq_of_speaksFor h hplace hclue hspeaks).symm

/-- The candidates before they are sorted, in the order in which they are found. -/
def foundCandidates (field : Field) (document : Document) : List Candidate :=
  ((begun document (rules field).tags).filter fun candidate =>
    !isMarkedHidden candidate.place).map (finished field document)

theorem map_place_foundCandidates (field : Field) (document : Document) :
    (foundCandidates field document).map Candidate.place =
      (foundPlaces field document).filter fun place => !isMarkedHidden place := by
  rw [foundCandidates, map_place_of_collects (place_finished field document), ← map_place_begun,
    List.filter_map]
  rfl

/-- The ranking is that of the candidates that the tags give, each finished on its own. -/
theorem rank_eq (h : IsNumbered document.size document.top.ids)
    (hcount : document.places.length + 1 < numberBound) :
    rank document field = (foundCandidates field document).mergeSort
      fun a b => decide (b.score ≤ a.score) := by
  have hshown : (scored document field).filter (fun candidate => !isMarkedHidden candidate.place) =
      ((begun document (rules field).tags).filter fun candidate =>
        !isMarkedHidden candidate.place).map fun candidate =>
          (furtherClues field document).foldl (Candidate.weigh document) candidate := by
    rw [scored_eq_map h hcount, List.filter_map]
    simp only [Function.comp_def, Candidate.place_foldl_weigh]
  have hplaces : (((begun document (rules field).tags).filter fun candidate =>
      !isMarkedHidden candidate.place).map fun candidate =>
        (furtherClues field document).foldl (Candidate.weigh document) candidate).map Candidate.place =
      (foundPlaces field document).filter fun place => !isMarkedHidden place := by
    rw [map_place_of_collects fun candidate => candidate.place_foldl_weigh document _,
      ← map_place_begun, List.filter_map]
    rfl
  rw [rank, hshown, addForms_eq_map h, List.map_map]
  · rfl
  · rw [hplaces]
    exact fun place hplace => (mem_foundPlaces_iff.1 (List.mem_filter.1 hplace).1).1
  · rw [hplaces]
    exact nodup_map_id_filter (nodup_map_id_foundPlaces h) _

theorem mem_begun_iff {candidate : Candidate} {tags : List (String × Nat)} :
    candidate ∈ begun document tags ↔ ∃ weight, (candidate.place.tag, weight) ∈ tags ∧
      candidate.place ∈ document.places ∧
      candidate = ⟨candidate.place, weight, [(Clue.hasTag candidate.place.tag).locator]⟩ := by
  simp only [begun, List.mem_flatMap, List.mem_map, List.mem_filter, decide_eq_true_eq]
  constructor
  · rintro ⟨⟨tag, weight⟩, hentry, place, ⟨hplace, rfl⟩, rfl⟩
    exact ⟨weight, hentry, hplace, rfl⟩
  · rintro ⟨weight, hentry, hplace, heq⟩
    exact ⟨_, hentry, candidate.place, ⟨hplace, rfl⟩, heq.symm⟩

end Candidates

section Parsed

variable {markup : String} {field : Field} {place : Place}

/-- No locator speaks for an element twice. -/
theorem nodup_map_fst_contributions (hmarkup : Text.byteLength markup.toList < 2 ^ 63)
    (hplace : place ∈ (Document.parse markup).places)
    (htag : place.tag ∈ (rules field).tags.map Prod.fst) :
    ((contributions field (.parse markup) place).map Prod.fst).Nodup := by
  have h := isNumbered_parse markup
  have hrules := isSound_rules field
  have hcount := length_places_lt hmarkup
  have hsound (clue : Clue)
      (hclue : clue ∈ (reasons (rules field) (.parse markup) place).map Prod.fst) : clue.IsSound := by
    obtain ⟨⟨_, weight⟩, hreason, rfl⟩ := List.mem_map.1 hclue
    exact isSound_of_mem_clues hrules hcount ((mem_reasons_iff h hplace htag).1 hreason).1
  have hlocators : (((reasons (rules field) (.parse markup) place).map Prod.fst).map
      Clue.locator).Nodup :=
    (nodup_map_fst_reasons hrules).map_on fun clue hclue other hother =>
      Clue.eq_of_locator_eq (hsound clue hclue) (hsound other hother)
  rw [contributions, List.map_append, List.map_map]
  rw [List.map_map] at hlocators
  refine hlocators.append ?_ ?_
  · split <;> simp
  · intro locator hlocator hpath
    obtain ⟨pair, -, rfl⟩ := List.mem_map.1 hlocator
    split at hpath
    · exact pair.1.locator_ne_absolutePath hplace (by simpa using hpath)
    · cases hpath

/-- What a candidate that its tag gives has counted after all clues is what speaks for its element. -/
theorem exists_counts_weighed (hmarkup : Text.byteLength markup.toList < 2 ^ 63)
    (hplace : place ∈ (Document.parse markup).places) {weight : Nat}
    (hentry : (place.tag, weight) ∈ (rules field).tags) :
    ∃ counted, ((furtherClues field (.parse markup)).foldl (Candidate.weigh (.parse markup))
        ⟨place, weight, [(Clue.hasTag place.tag).locator]⟩).Counts counted ∧
      ∀ entry, entry ∈ counted ↔
        entry ∈ (reasons (rules field) (.parse markup) place).map fun (clue, weight) =>
          (clue.locator, weight) := by
  have h := isNumbered_parse markup
  have htag : place.tag ∈ (rules field).tags.map Prod.fst := List.mem_map.2 ⟨_, hentry, rfl⟩
  have hfirst : (Clue.hasTag place.tag, weight) ∈ reasons (rules field) (.parse markup) place := by
    refine (mem_reasons_iff h hplace htag).2 ⟨List.mem_append_left _ ?_, by simp [Clue.speaksFor]⟩
    exact List.mem_map.2 ⟨_, hentry, rfl⟩
  have hcounts {pair : Clue × Nat} (hpair : pair ∈ reasons (rules field) (.parse markup) place) :
      (pair.1.locator, pair.2) ∈ contributions field (.parse markup) place :=
    List.mem_append_left _ (List.mem_map_of_mem hpair)
  have hfurther {pair : Clue × Nat} (hpair : pair ∈ furtherClues field (.parse markup))
      (hspeaks : pair.1.speaksFor (.parse markup) place = true) :
      pair ∈ reasons (rules field) (.parse markup) place :=
    (mem_reasons_iff h hplace htag).2 ⟨List.mem_append_right _ hpair, hspeaks⟩
  have hstart : Candidate.Counts ⟨place, weight, [(Clue.hasTag place.tag).locator]⟩
      [((Clue.hasTag place.tag).locator, weight)] := ⟨rfl, rfl, List.nodup_singleton _⟩
  obtain ⟨counted, hcounted, hmem⟩ := hstart.foldl_weigh
    (nodup_map_fst_contributions hmarkup hplace htag)
    (List.cons_subset.2 ⟨hcounts hfirst, List.nil_subset _⟩)
    fun pair hpair hspeaks => hcounts (hfurther hpair hspeaks)
  refine ⟨counted, hcounted, fun entry => ?_⟩
  rw [hmem, List.mem_singleton, List.mem_map]
  constructor
  · rintro (rfl | ⟨pair, hpair, hspeaks, rfl⟩)
    · exact ⟨_, hfirst, rfl⟩
    · exact ⟨pair, hfurther hpair hspeaks, rfl⟩
  · rintro ⟨⟨clue, other⟩, hreason, rfl⟩
    obtain ⟨hclue, hspeaks⟩ := (mem_reasons_iff h hplace htag).1 hreason
    rcases List.mem_append.1 hclue with htags | hfurther
    · obtain ⟨⟨tag, _⟩, hother, heq⟩ := List.mem_map.1 htags
      cases heq
      obtain rfl : place.tag = tag := of_decide_eq_true hspeaks
      rw [eq_of_mem_of_nodup_fst (isSound_rules field).nodup_tags hother hentry]
      exact .inl rfl
    · exact .inr ⟨_, hfurther, hspeaks, rfl⟩

/-- A finished candidate has counted what speaks for its element and being inside a form. -/
theorem exists_counts_finished (hmarkup : Text.byteLength markup.toList < 2 ^ 63)
    {candidate : Candidate} (hcandidate : candidate ∈ begun (.parse markup) (rules field).tags) :
    ∃ counted, (finished field (.parse markup) candidate).Counts counted ∧
      counted.Perm (contributions field (.parse markup) candidate.place) := by
  obtain ⟨weight, hentry, hplace, heq⟩ := mem_begun_iff.1 hcandidate
  generalize candidate.place = place at hentry hplace heq ⊢
  subst heq
  have hall := nodup_map_fst_contributions hmarkup hplace (List.mem_map.2 ⟨_, hentry, rfl⟩)
  obtain ⟨counted, hcounted, hmem⟩ := exists_counts_weighed hmarkup hplace hentry
  have hperm {more : List (String × Nat)} (hnodup : (more.map Prod.fst).Nodup)
      (hmore : ∀ entry, entry ∈ more ↔ entry ∈ contributions field (.parse markup) place) :
      more.Perm (contributions field (.parse markup) place) :=
    (List.perm_ext_iff_of_nodup (hnodup.of_map _) (hall.of_map _)).2 hmore
  have hweighed := Candidate.place_foldl_weigh (.parse markup)
    ⟨place, weight, [(Clue.hasTag place.tag).locator]⟩ (furtherClues field (.parse markup))
  rw [finished, Candidate.weighForm, hweighed]
  have hlast : contributions field (.parse markup) place =
      ((reasons (rules field) (.parse markup) place).map fun (clue, weight) =>
        (clue.locator, weight)) ++
      if isInForm place then [(place.absolutePath, formBonus)] else [] := rfl
  split
  · rename_i hform
    rw [if_pos hform] at hlast
    have hpath : (place.absolutePath, formBonus) ∈ contributions field (.parse markup) place := by
      simp [hlast]
    have hsubset : counted ⊆ contributions field (.parse markup) place := fun entry hentry =>
      List.mem_append_left _ ((hmem entry).1 hentry)
    obtain ⟨more, hmore, hmem'⟩ := hcounted.collect hall hsubset hpath
    refine ⟨more, hmore, hperm hmore.nodup fun entry => ?_⟩
    rw [hmem', hmem, hlast, List.mem_append, List.mem_singleton]
  · rename_i hform
    rw [if_neg hform, List.append_nil] at hlast
    refine ⟨counted, hcounted, hperm hcounted.nodup fun entry => ?_⟩
    rw [hmem, hlast]

theorem sum_contributions (field : Field) (document : Document) (place : Place) :
    ((contributions field document place).map Prod.snd).sum = scoreOf field document place := by
  have hform : ((if isInForm place then [(place.absolutePath, formBonus)] else []).map Prod.snd).sum =
      if isInForm place then formBonus else 0 := by
    split <;> rfl
  rw [contributions, List.map_append, List.map_map, List.sum_append, hform, scoreOf,
    ← sum_reasons (isSound_rules field)]
  rfl

theorem rank_perm (hmarkup : Text.byteLength markup.toList < 2 ^ 63) (field : Field) :
    (rank (.parse markup) field).Perm (foundCandidates field (.parse markup)) := by
  rw [rank_eq (isNumbered_parse markup) (length_places_lt hmarkup)]
  exact List.mergeSort_perm _ _

/-- A candidate of a page has a suitable tag, and each locator that speaks for it counts once. -/
theorem exists_counts_of_mem_rank (hmarkup : Text.byteLength markup.toList < 2 ^ 63)
    {candidate : Candidate} (hcandidate : candidate ∈ rank (.parse markup) field) :
    (candidate.place ∈ (Document.parse markup).places ∧
      candidate.place.tag ∈ (rules field).tags.map Prod.fst) ∧
    ∃ counted, candidate.Counts counted ∧
      counted.Perm (contributions field (.parse markup) candidate.place) := by
  obtain ⟨first, hfirst, rfl⟩ := List.mem_map.1 ((rank_perm hmarkup field).mem_iff.1 hcandidate)
  have hbegun := (List.mem_filter.1 hfirst).1
  have hplace : first.place ∈ foundPlaces field (.parse markup) := by
    rw [← map_place_begun]
    exact List.mem_map_of_mem hbegun
  rw [place_finished]
  exact ⟨mem_foundPlaces_iff.1 hplace, exists_counts_finished hmarkup hbegun⟩

theorem score_eq_of_mem_rank (hmarkup : Text.byteLength markup.toList < 2 ^ 63)
    {candidate : Candidate} (hcandidate : candidate ∈ rank (.parse markup) field) :
    candidate.score = scoreOf field (.parse markup) candidate.place := by
  obtain ⟨-, counted, hcounted, hsame⟩ := exists_counts_of_mem_rank hmarkup hcandidate
  rw [hcounted.score_eq, ← sum_contributions]
  exact (hsame.map Prod.snd).sum_nat

/-- The scores for a page of less than 64 MiB fit words of 32 bits. -/
theorem score_lt_of_mem_rank (hmarkup : Text.byteLength markup.toList < 2 ^ 26)
    {candidate : Candidate} (hcandidate : candidate ∈ rank (.parse markup) field) :
    candidate.score < 2 ^ 32 := by
  have hplaces : (Document.parse markup).places.length ≤ markup.length + 2 := length_places_le markup
  have hbytes := length_le_byteLength markup.toList
  rw [String.length_toList] at hbytes
  have hform : (if isInForm candidate.place then formBonus else 0) ≤ 100 := by
    split <;> decide
  have hweight : weightOf (rules field) (.parse markup) candidate.place ≤
      17 + 40 + 35 * ((Document.parse markup).places.length + 1) + 2 := by
    refine Nat.le_trans weightOf_le (Nat.add_le_add_right (Nat.add_le_add ?_ ?_) 2)
    · cases field <;> decide
    · exact Nat.mul_le_mul_right _ (by cases field <;> decide)
  rw [score_eq_of_mem_rank (Nat.lt_trans hmarkup (by decide)) hcandidate, scoreOf]
  omega

end Parsed

end KeepAlive.Form
