import KeepAlive.Proofs.Locator.Origins
import KeepAlive.Proofs.Markup.WellFormed

/-!
# What a path designates

A path is read step by step.  From each parent that a step reaches it keeps those of the children that
are left by the name test and then by one condition after the other, where a position counts in the
list that is left.  Testing the elements one by one, collecting them from all the nodes where the step
starts and sorting them gives the same elements, in document order and each once.
-/

namespace KeepAlive.Locator

open Markup

/-- The elements that a condition leaves of a list. -/
def Condition.keep : Condition → List Place → List Place
  | .position n, places => if n = 0 then [] else places[n - 1]?.toList
  | .hasAttribute name, places => places.filter fun place => (place.attribute? name).isSome
  | .attributeIs name value, places =>
    places.filter fun place => place.attribute? name = some value
  | .attributeContains name value, places =>
    places.filter fun place => (place.attribute? name).any (contains · value)
  | .textIs value, places => places.filter fun place => place.here.texts.contains value
  | .textContains value, places => places.filter fun place => place.here.texts.any (contains · value)

/-- The elements that conditions leave of a list, one after the other. -/
def keepAll (conditions : List Condition) (places : List Place) : List Place :=
  conditions.foldl (fun kept condition => condition.keep kept) places

/-- The elements that a step leaves of the element children of one parent. -/
def Step.survivors (step : Step) (children : List Place) : List Place :=
  keepAll step.conditions (children.filter step.names)

/-- Whether a step leads from a node to an element: its parent is the node or, if the step is deep, any
node below it, and the step leaves the element of its children. -/
def Step.Leads (step : Step) (origin : Origin) (place : Place) : Prop :=
  ∃ parent, (if step.deep then Relation.ReflTransGen Origin.IsInside origin parent
    else parent = origin) ∧ place ∈ step.survivors parent.children

/-- Whether a path leads from a node to an element. -/
inductive Reaches : Origin → List Step → Place → Prop
  | last {origin : Origin} {step : Step} {place : Place} : step.Leads origin place →
      Reaches origin [step] place
  | cons {origin : Origin} {step : Step} {more : List Step} {between place : Place} :
      step.Leads origin between → Reaches (.ofPlace between) more place →
      Reaches origin (step :: more) place

/-! ## Conditions -/

section Conditions

variable {places : List Place}

theorem filter_id_eq (hnodup : (places.map Place.id).Nodup) {k : Nat} (hk : k < places.length) :
    places.filter (fun place => place.id = places[k].id) = [places[k]] := by
  induction places generalizing k with
  | nil => cases hk
  | cons first rest ih =>
    rw [List.map_cons, List.nodup_cons] at hnodup
    have hnone (place : Place) (hplace : place ∈ rest) : place.id ≠ first.id := fun heq =>
      hnodup.1 (heq ▸ List.mem_map_of_mem hplace)
    cases k with
    | zero => simpa using hnone
    | succ k =>
      have hk : k < rest.length := Nat.lt_of_succ_lt_succ hk
      have hfirst : first.id ≠ rest[k].id := (hnone _ (List.getElem_mem hk)).symm
      simpa [hfirst] using ih hnodup.2 hk

theorem findIdx?_id_eq_some_iff (hnodup : (places.map Place.id).Nodup) {place : Place} {k : Nat} :
    places.findIdx? (·.id = place.id) = some k ↔ ∃ h : k < places.length, place.id = places[k].id := by
  rw [List.findIdx?_eq_some_iff_getElem]
  constructor
  · rintro ⟨hk, hid, -⟩
    exact ⟨hk, (of_decide_eq_true hid).symm⟩
  · rintro ⟨hk, hid⟩
    refine ⟨hk, decide_eq_true hid.symm, fun j hj hother => ?_⟩
    have hindex : k < (places.map Place.id).length := by rwa [List.length_map]
    have hbefore : j < (places.map Place.id).length := Nat.lt_trans hj hindex
    have hsame : (places.map Place.id)[j] = (places.map Place.id)[k] := by
      simpa [hid] using hother
    exact absurd ((hnodup.getElem_inj_iff).1 hsame) (Nat.ne_of_lt hj)

/-- The element with a position in a list is the one that is found there. -/
theorem filter_findIdx?_eq (hnodup : (places.map Place.id).Nodup) (n : Nat) :
    places.filter (fun place => (places.findIdx? (·.id = place.id)).map (· + 1) = some n) =
      if n = 0 then [] else places[n - 1]?.toList := by
  cases n with
  | zero => simp
  | succ k =>
    have hindex (place : Place) :
        (places.findIdx? (·.id = place.id)).map (· + 1) = some (k + 1) ↔
          ∃ h : k < places.length, place.id = places[k].id := by
      rw [← findIdx?_id_eq_some_iff hnodup]
      simp
    simp only [hindex, Nat.add_one_ne_zero, if_false, Nat.add_sub_cancel]
    by_cases hk : k < places.length
    · simpa [hk] using filter_id_eq hnodup hk
    · simp [hk]

theorem nodup_map_id_filter (hnodup : (places.map Place.id).Nodup) (test : Place → Bool) :
    ((places.filter test).map Place.id).Nodup :=
  hnodup.sublist (List.filter_sublist.map Place.id)

/-- Testing each of some siblings for a condition leaves what the condition leaves of the list. -/
theorem keep_filter (hnodup : (places.map Place.id).Nodup)
    (hsiblings : ∀ place ∈ places, siblings place = places) (test : Place → Bool)
    (condition : Condition) :
    condition.keep (places.filter test) =
      places.filter fun place => test place && condition.holds test place := by
  have hsplit : (places.filter fun place => test place && condition.holds test place) =
      (places.filter test).filter (condition.holds test) := by
    rw [List.filter_filter]
    exact List.filter_congr fun place _ => Bool.and_comm _ _
  rw [hsplit]
  cases condition with
  | position n =>
    have hcounted : (places.filter test).filter (Condition.holds test (.position n)) =
        (places.filter test).filter fun place =>
          ((places.filter test).findIdx? (·.id = place.id)).map (· + 1) = some n := by
      refine List.filter_congr fun place hplace => ?_
      rw [Condition.holds, hsiblings place (List.mem_filter.1 hplace).1]
    rw [hcounted, filter_findIdx?_eq (nodup_map_id_filter hnodup test)]
    rfl
  | hasAttribute | attributeIs | attributeContains | textIs | textContains => rfl

/-- An element passes conditions if and only if they leave it of its siblings. -/
theorem passes_iff_mem_keepAll (hnodup : (places.map Place.id).Nodup)
    (hsiblings : ∀ place ∈ places, siblings place = places) {place : Place} (hplace : place ∈ places)
    (conditions : List Condition) (test : Place → Bool) :
    passes test conditions place = true ↔ place ∈ keepAll conditions (places.filter test) := by
  induction conditions generalizing test with
  | nil => simp [passes, keepAll, hplace]
  | cons condition more ih =>
    rw [passes, ih, keepAll, keepAll, List.foldl_cons, keep_filter hnodup hsiblings]

theorem keepAll_subset (conditions : List Condition) : keepAll conditions places ⊆ places := by
  have hkeep (condition : Condition) (kept : List Place) : condition.keep kept ⊆ kept := by
    cases condition with
    | position n =>
      intro place hplace
      rw [Condition.keep] at hplace
      split at hplace
      · cases hplace
      · exact List.mem_of_getElem? (Option.mem_toList.1 hplace)
    | hasAttribute | attributeIs | attributeContains | textIs | textContains =>
      exact List.filter_subset_self _
  induction conditions generalizing places with
  | nil => exact List.Subset.refl _
  | cons condition more ih => exact List.Subset.trans ih (hkeep condition places)

end Conditions

/-! ## Steps -/

section Steps

variable {document : Document} {origin : Origin} {place : Place}

theorem Step.survivors_subset (step : Step) (children : List Place) :
    step.survivors children ⊆ children :=
  List.Subset.trans (keepAll_subset step.conditions) (List.filter_subset_self _)

/-- A step takes an element if and only if it leaves it of its siblings. -/
theorem Step.takes_iff (h : IsNumbered document.size document.top.ids) (horigin : origin.IsIn document)
    (hplace : place ∈ origin.children) (step : Step) :
    step.takes place = true ↔ place ∈ step.survivors origin.children := by
  have hnodup : (origin.children.map Place.id).Nodup :=
    (nodup_map_id_places h).sublist (horigin.children_sublist.map Place.id)
  have hsiblings (other : Place) (hother : other ∈ origin.children) :
      siblings other = origin.children := by
    rw [Origin.siblings_eq, Origin.parentOf_of_mem_children hother]
  exact passes_iff_mem_keepAll hnodup hsiblings hplace step.conditions step.names

/-- A step leads to those of its candidates that it takes. -/
theorem Step.leads_iff (h : IsNumbered document.size document.top.ids)
    (horigin : origin.IsIn document) (step : Step) :
    step.Leads origin place ↔ place ∈ step.candidates origin ∧ step.takes place = true := by
  unfold Step.Leads Step.candidates
  split
  · rw [Origin.mem_below_iff]
    constructor
    · rintro ⟨parent, hparent, hplace⟩
      have hchild := step.survivors_subset _ hplace
      exact ⟨⟨parent, hparent, hchild⟩, (step.takes_iff h (horigin.trans hparent) hchild).2 hplace⟩
    · rintro ⟨⟨parent, hparent, hchild⟩, htakes⟩
      exact ⟨parent, hparent, (step.takes_iff h (horigin.trans hparent) hchild).1 htakes⟩
  · constructor
    · rintro ⟨parent, rfl, hplace⟩
      have hchild := step.survivors_subset _ hplace
      exact ⟨hchild, (step.takes_iff h horigin hchild).2 hplace⟩
    · rintro ⟨hchild, htakes⟩
      exact ⟨origin, rfl, (step.takes_iff h horigin hchild).1 htakes⟩

theorem Step.candidates_sublist (horigin : origin.IsIn document) (step : Step) :
    (step.candidates origin).Sublist document.places := by
  unfold Step.candidates
  split
  · exact Origin.below_sublist horigin
  · exact horigin.children_sublist

end Steps

/-! ## Collecting -/

section Collecting

variable {document : Document}

/-- Elements that are collected are all there, each once. -/
theorem foldl_found (h : IsNumbered document.size document.top.ids) {places kept : List Place}
    (hplaces : places ⊆ document.places) (hkept : kept ⊆ document.places)
    (hnodup : (kept.map Place.id).Nodup) :
    (∀ place, place ∈ places.foldl found kept ↔ place ∈ kept ∨ place ∈ places) ∧
      ((places.foldl found kept).map Place.id).Nodup := by
  induction places generalizing kept with
  | nil => exact ⟨fun place => by simp, hnodup⟩
  | cons first rest ih =>
    obtain ⟨hfirst, hrest⟩ := List.cons_subset.1 hplaces
    rw [List.foldl_cons, found]
    split
    · rename_i hany
      obtain ⟨other, hother, hid⟩ := List.any_eq_true.1 hany
      have hsame : other = first :=
        eq_of_place_id_eq h (hkept hother) hfirst (of_decide_eq_true hid)
      subst hsame
      obtain ⟨hmem, hdistinct⟩ := ih hrest hkept hnodup
      refine ⟨fun place => ?_, hdistinct⟩
      rw [hmem, List.mem_cons]
      constructor
      · exact Or.imp_right Or.inr
      · rintro (hplace | rfl | hplace)
        · exact .inl hplace
        · exact .inl hother
        · exact .inr hplace
    · rename_i hnew
      have hfresh : first.id ∉ kept.map Place.id := by
        simpa using hnew
      have hboth : kept ++ [first] ⊆ document.places :=
        List.append_subset.2 ⟨hkept, List.cons_subset.2 ⟨hfirst, List.nil_subset _⟩⟩
      obtain ⟨hmem, hdistinct⟩ := ih hrest hboth (by
        rw [List.map_append]
        exact hnodup.append (List.nodup_singleton _) (by simpa using hfresh))
      refine ⟨fun place => ?_, hdistinct⟩
      rw [hmem, List.mem_append, List.mem_singleton, List.mem_cons, or_assoc]

/-- What a step finds is all that it leads to, each element once. -/
theorem Step.mem_finds_iff (h : IsNumbered document.size document.top.ids) {origins : List Origin}
    (horigins : ∀ origin ∈ origins, origin.IsIn document) (step : Step) :
    (∀ place, place ∈ step.finds origins ↔ ∃ origin ∈ origins, step.Leads origin place) ∧
      ((step.finds origins).map Place.id).Nodup ∧ step.finds origins ⊆ document.places := by
  have hfinds : step.finds origins =
      (origins.flatMap fun origin => (step.candidates origin).filter step.takes).foldl found [] :=
    List.foldl_flatMap.symm
  have hall : (origins.flatMap fun origin => (step.candidates origin).filter step.takes) ⊆
      document.places := by
    intro place hplace
    obtain ⟨origin, horigin, hcandidate⟩ := List.mem_flatMap.1 hplace
    exact (step.candidates_sublist (horigins origin horigin)).mem (List.mem_filter.1 hcandidate).1
  obtain ⟨hmem, hnodup⟩ := foldl_found h hall (List.nil_subset _) List.nodup_nil
  rw [← hfinds] at hmem hnodup
  refine ⟨fun place => ?_, hnodup, fun place hplace => ?_⟩
  · rw [hmem, List.mem_flatMap]
    simp only [List.not_mem_nil, false_or, List.mem_filter]
    refine exists_congr fun origin => and_congr_right fun horigin => ?_
    exact (step.leads_iff h (horigins origin horigin)).symm
  · rcases (hmem place).1 hplace with hnil | hplace
    · cases hnil
    · exact hall hplace

/-- Whether one element comes before another in document order. -/
def Precedes (document : Document) (place other : Place) : Prop :=
  document.order place.id < document.order other.id

theorem pairwise_places (h : IsNumbered document.size document.top.ids) :
    document.places.Pairwise (Precedes document) := by
  have hpairwise := Document.descendants_zero_pairwise h
  rwa [Document.descendants_zero_eq_places h, List.pairwise_map] at hpairwise

/-- Some elements of a document in document order are a part of all its elements. -/
theorem eq_filter_of_pairwise (h : IsNumbered document.size document.top.ids) {places : List Place}
    (hpairwise : places.Pairwise (Precedes document)) {wanted : Place → Bool}
    (hmem : ∀ place, place ∈ places ↔ place ∈ document.places ∧ wanted place = true) :
    places = document.places.filter wanted := by
  have hall := (pairwise_places h).filter wanted
  have hnodup {list : List Place} (hlist : list.Pairwise (Precedes document)) : list.Nodup :=
    hlist.imp fun {place other} (hlt : Precedes document place other) (heq : place = other) =>
      Nat.ne_of_lt hlt (congrArg (document.order ·.id) heq)
  refine List.Perm.eq_of_pairwise ?_ hpairwise hall ?_
  · intro place other _ _ hlt hgt
    exact absurd hgt (Nat.lt_asymm hlt)
  · rw [List.perm_ext_iff_of_nodup (hnodup hpairwise) (hnodup hall)]
    intro place
    rw [hmem, List.mem_filter]

/-- How many elements stand before an element in document order. -/
def placeIndex (document : Document) (place : Place) : Nat :=
  document.places.findIdx (·.id = place.id)

theorem getElem?_placeIndex (h : IsNumbered document.size document.top.ids) {place : Place}
    (hplace : place ∈ document.places) :
    document.places[placeIndex document place]? = some place :=
  getElem?_findIdx_id h (List.Subset.refl _) hplace

theorem precedes_of_placeIndex_le (h : IsNumbered document.size document.top.ids)
    {place other : Place} (hplace : place ∈ document.places) (hother : other ∈ document.places)
    (hne : place.id ≠ other.id) (hle : placeIndex document place ≤ placeIndex document other) :
    Precedes document place other := by
  have hfirst := getElem?_placeIndex h hplace
  have hsecond := getElem?_placeIndex h hother
  have hlt : placeIndex document place < placeIndex document other := by
    refine Nat.lt_of_le_of_ne hle fun heq => hne ?_
    rw [heq, hsecond] at hfirst
    exact congrArg Place.id (Option.some.inj hfirst).symm
  obtain ⟨hindex, hplace⟩ := List.getElem?_eq_some_iff.1 hfirst
  obtain ⟨hindex', hother⟩ := List.getElem?_eq_some_iff.1 hsecond
  have hprecedes := List.pairwise_iff_getElem.1 (pairwise_places h) _ _ hindex hindex' hlt
  rwa [hplace, hother] at hprecedes

theorem inOrder_eq (document : Document) (places : List Place) :
    inOrder document places = ((places.map fun place => (placeIndex document place, place)).mergeSort
      fun a b => decide (a.1 ≤ b.1)).map (·.2) :=
  rfl

theorem inOrder_perm (document : Document) (places : List Place) :
    (inOrder document places).Perm places := by
  rw [inOrder_eq]
  refine ((List.mergeSort_perm _ _).map _).trans ?_
  rw [List.map_map]
  exact List.Perm.of_eq (List.map_id' places)

theorem pairwise_placeIndex_inOrder (document : Document) (places : List Place) :
    (inOrder document places).Pairwise fun place other =>
      placeIndex document place ≤ placeIndex document other := by
  have hsorted : ((places.map fun place => (placeIndex document place, place)).mergeSort
      fun a b => decide (a.1 ≤ b.1)).Pairwise fun a b => decide (a.1 ≤ b.1) = true := by
    refine List.pairwise_mergeSort (fun a b c hab hbc => ?_) (fun a b => ?_) _
    · exact decide_eq_true (Nat.le_trans (of_decide_eq_true hab) (of_decide_eq_true hbc))
    · simpa using Nat.le_total a.1 b.1
  have hindex (pair : Nat × Place) (hpair : pair ∈ (places.map fun place =>
      (placeIndex document place, place)).mergeSort fun a b => decide (a.1 ≤ b.1)) :
      pair.1 = placeIndex document pair.2 := by
    rw [List.mem_mergeSort] at hpair
    obtain ⟨place, -, rfl⟩ := List.mem_map.1 hpair
    rfl
  rw [inOrder_eq, List.pairwise_map]
  refine hsorted.imp_of_mem fun {a b} ha hb hle => ?_
  rw [← hindex a ha, ← hindex b hb]
  exact of_decide_eq_true hle

/-- Sorting puts distinct elements in document order. -/
theorem pairwise_inOrder (h : IsNumbered document.size document.top.ids) {places : List Place}
    (hplaces : places ⊆ document.places) (hnodup : (places.map Place.id).Nodup) :
    (inOrder document places).Pairwise (Precedes document) := by
  have hperm := inOrder_perm document places
  have hdistinct : (inOrder document places).Pairwise fun place other => place.id ≠ other.id := by
    rw [← List.pairwise_map]
    exact (hperm.map Place.id).nodup_iff.2 hnodup
  refine ((pairwise_placeIndex_inOrder document places).and hdistinct).imp_of_mem ?_
  rintro place other hplace hother ⟨hle, hne⟩
  exact precedes_of_placeIndex_le h (hplaces (hperm.mem_iff.1 hplace))
    (hplaces (hperm.mem_iff.1 hother)) hne hle

end Collecting

/-! ## Paths -/

section Paths

variable {document : Document} {origins : List Origin}

theorem not_reaches_nil {origin : Origin} {place : Place} : ¬Reaches origin [] place :=
  nofun

theorem reaches_singleton_iff {origin : Origin} {step : Step} {place : Place} :
    Reaches origin [step] place ↔ step.Leads origin place := by
  constructor
  · rintro (hleads | ⟨-, hreaches⟩)
    · exact hleads
    · exact absurd hreaches not_reaches_nil
  · exact .last

theorem reaches_cons_cons_iff {origin : Origin} {step next : Step} {more : List Step}
    {place : Place} : Reaches origin (step :: next :: more) place ↔
      ∃ between, step.Leads origin between ∧ Reaches (.ofPlace between) (next :: more) place := by
  constructor
  · rintro (_ | ⟨hleads, hreaches⟩)
    exact ⟨_, hleads, hreaches⟩
  · rintro ⟨between, hleads, hreaches⟩
    exact .cons hleads hreaches

/-- The elements that a step finds, in document order. -/
theorem Step.inOrder_finds_eq (h : IsNumbered document.size document.top.ids)
    (horigins : ∀ origin ∈ origins, origin.IsIn document) (step : Step) {wanted : Place → Bool}
    (hwanted : ∀ place ∈ document.places,
      wanted place = true ↔ ∃ origin ∈ origins, step.Leads origin place) :
    inOrder document (step.finds origins) = document.places.filter wanted := by
  obtain ⟨hmem, hnodup, hplaces⟩ := step.mem_finds_iff h horigins
  refine eq_filter_of_pairwise h (pairwise_inOrder h hplaces hnodup) fun place => ?_
  rw [(inOrder_perm document _).mem_iff]
  constructor
  · intro hplace
    exact ⟨hplaces hplace, (hwanted place (hplaces hplace)).2 ((hmem place).1 hplace)⟩
  · rintro ⟨hplace, hwant⟩
    exact (hmem place).2 ((hwanted place hplace).1 hwant)

/-- Following a path gives the elements that it leads to, in document order and each once. -/
theorem follow_eq (h : IsNumbered document.size document.top.ids) (steps : List Step)
    (horigins : ∀ origin ∈ origins, origin.IsIn document) {wanted : Place → Bool}
    (hwanted : ∀ place ∈ document.places,
      wanted place = true ↔ ∃ origin ∈ origins, Reaches origin steps place) :
    follow document origins steps = document.places.filter wanted := by
  induction steps generalizing origins with
  | nil =>
    refine (List.filter_eq_nil_iff.2 fun place hplace hwant => ?_).symm
    obtain ⟨origin, -, hreaches⟩ := (hwanted place hplace).1 hwant
    exact not_reaches_nil hreaches
  | cons step more ih =>
    cases more with
    | nil =>
      refine step.inOrder_finds_eq h horigins fun place hplace => ?_
      simp only [hwanted place hplace, reaches_singleton_iff]
    | cons next more =>
      obtain ⟨hmem, -, hplaces⟩ := step.mem_finds_iff h horigins
      have hbetween (place : Place) : place ∈ inOrder document (step.finds origins) ↔
          ∃ origin ∈ origins, step.Leads origin place := by
        rw [(inOrder_perm document _).mem_iff, hmem]
      refine ih (fun origin horigin => ?_) fun place hplace => ?_
      · obtain ⟨between, hfound, rfl⟩ := List.mem_map.1 horigin
        exact Origin.IsIn.ofPlace (hplaces ((inOrder_perm document _).mem_iff.1 hfound))
      · rw [hwanted place hplace]
        simp only [reaches_cons_cons_iff, List.mem_map, exists_exists_and_eq_and, hbetween]
        constructor
        · rintro ⟨origin, horigin, between, hleads, hreaches⟩
          exact ⟨between, ⟨origin, horigin, hleads⟩, hreaches⟩
        · rintro ⟨between, ⟨origin, horigin, hleads⟩, hreaches⟩
          exact ⟨origin, horigin, between, hleads, hreaches⟩

theorem Step.Leads.mem_places (h : IsNumbered document.size document.top.ids) {origin : Origin}
    (horigin : origin.IsIn document) {step : Step} {place : Place} (hleads : step.Leads origin place) :
    place ∈ document.places :=
  (step.candidates_sublist horigin).mem ((step.leads_iff h horigin).1 hleads).1

theorem Reaches.mem_places (h : IsNumbered document.size document.top.ids) {origin : Origin}
    (horigin : origin.IsIn document) {steps : List Step} {place : Place}
    (hreaches : Reaches origin steps place) : place ∈ document.places := by
  induction hreaches with
  | last hleads => exact hleads.mem_places h horigin
  | cons hleads _ ih => exact ih (.ofPlace (hleads.mem_places h horigin))

end Paths

/-- An accepted locator designates the elements that its path leads to from the document, in document
order and each once; with an index it designates the one of them that has this position, if any. -/
theorem select_eq_reading (markup : String) {locator : String} {expression : Expression}
    (hparse : parse locator = .ok expression) :
    ∃ reading : List Place,
      (∀ place, place ∈ reading ↔
        Reaches (.ofDocument (.parse markup)) expression.steps place) ∧
      (reading.map Place.id).Nodup ∧ reading.Pairwise (Precedes (.parse markup)) ∧
      select (.parse markup) locator = .ok (match expression.index with
        | none => reading
        | some n => if n = 0 then [] else reading[n - 1]?.toList) := by
  classical
  have h := isNumbered_parse markup
  have hroot := Origin.isIn_ofDocument (.parse markup)
  obtain ⟨wanted, hwanted⟩ : ∃ wanted : Place → Bool, ∀ place, wanted place = true ↔
      Reaches (.ofDocument (.parse markup)) expression.steps place :=
    ⟨fun place => decide _, fun place => decide_eq_true_iff⟩
  have hfollow : follow (.parse markup) [.ofDocument (.parse markup)] expression.steps =
      (Document.parse markup).places.filter wanted :=
    follow_eq h expression.steps (List.forall_mem_singleton.2 hroot) fun place _ => by simp [hwanted]
  refine ⟨(Document.parse markup).places.filter wanted, fun place => ?_,
    nodup_map_id_filter (nodup_map_id_places h) wanted, (pairwise_places h).filter wanted, ?_⟩
  · rw [List.mem_filter, hwanted]
    exact and_iff_right_of_imp (Reaches.mem_places h hroot)
  · unfold select
    rw [hparse]
    dsimp only
    rw [Expression.select, hfollow]
    cases expression.index with
    | none => rfl
    | some n =>
      cases n with
      | zero => rfl
      | succ k => rfl

/-- The second item of a class is the second of those that have the class. -/
theorem select_second_of_class :
    parse "//li[@class='x'][2]" =
      .ok ⟨[⟨true, some "li", [.attributeIs "class" "x", .position 2]⟩], none⟩ ∧
    ∃ reading : List Place,
      (∀ place, place ∈ reading ↔
        Reaches (.ofDocument (.parse "<li class=x>a</li><li>b</li><li class=x>c</li>"))
          [⟨true, some "li", [.attributeIs "class" "x", .position 2]⟩] place) ∧
      (reading.map Place.id).Nodup ∧
      reading.Pairwise (Precedes (.parse "<li class=x>a</li><li>b</li><li class=x>c</li>")) ∧
      select (.parse "<li class=x>a</li><li>b</li><li class=x>c</li>") "//li[@class='x'][2]" =
        .ok reading := by
  have hparse : parse "//li[@class='x'][2]" =
      .ok ⟨[⟨true, some "li", [.attributeIs "class" "x", .position 2]⟩], none⟩ := by
    decide +kernel
  exact ⟨hparse, select_eq_reading "<li class=x>a</li><li>b</li><li class=x>c</li>" hparse⟩

end KeepAlive.Locator
