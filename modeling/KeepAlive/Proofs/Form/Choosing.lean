import KeepAlive.Proofs.Form.Ranking
import KeepAlive.Proofs.Form.Searching

/-!
# The element that is chosen for a field

On a page that holds nothing back from the browser and whose elements locators can name, the search
gives for each field the best of the seen elements with a tag of the field's table.  What says of
itself that it is hidden is left out of the ranking; the browser would not have shown it either.
-/

namespace KeepAlive.Form

open Browser Locator Markup
open Page (IsSeen)

/-- Whether an element comes before another in the ranking for a field: by its score, then by the
tag table, then by the document. -/
def ComesBefore (field : Field) (document : Document) (place other : Place) : Prop :=
  scoreOf field document other < scoreOf field document place ∨
    scoreOf field document place = scoreOf field document other ∧
      IsFoundBefore field document place other

/-- Whether a place is that of another element that scores lower, or the same one. -/
def ScoresBelow (field : Field) (document : Document) (other place : Place) : Prop :=
  other.id = place.id ∨ scoreOf field document other < scoreOf field document place

instance (field : Field) (document : Document) (other place : Place) :
    Decidable (ScoresBelow field document other place) :=
  inferInstanceAs (Decidable (_ ∨ _))

/-- Whether an element is the best of those with a tag of the field's table that are seen. -/
structure IsBest (field : Field) (document : Document) (place : Place) : Prop where
  mem_places : place ∈ document.places
  tag_mem : place.tag ∈ (rules field).tags.map Prod.fst
  isSeen : IsSeen place
  comesBefore : ∀ other ∈ document.places, other.tag ∈ (rules field).tags.map Prod.fst →
    IsSeen other → other = place ∨ ComesBefore field document place other

/-- Whether a window shows a page of which nothing is held back: no locator is missing or broken, and
all tags consist of characters of names.  The page is one that memory can hold. -/
structure IsPlain (page : Page) : Prop where
  arises : page.Arises
  missing_eq : page.fixture.missing = []
  broken_eq : page.fixture.broken = []
  byteLength_lt : Text.byteLength page.markup.toList < 2 ^ 63
  inName_tag : ∀ place ∈ (Document.parse page.markup).places, ∀ c ∈ place.tag.toList,
    Locator.inName c = true

section Order

variable {field : Field} {document : Document} {place other : Place}

theorem ComesBefore.asymm (h : ComesBefore field document place other) :
    ¬ComesBefore field document other place := by
  unfold ComesBefore IsFoundBefore Precedes at *
  omega

/-- There is one best element at most. -/
theorem IsBest.unique (h : IsBest field document place) (hother : IsBest field document other) :
    place = other := by
  rcases h.comesBefore other hother.mem_places hother.tag_mem hother.isSeen with rfl | hfirst
  · rfl
  rcases hother.comesBefore place h.mem_places h.tag_mem h.isSeen with rfl | hsecond
  · rfl
  · exact absurd hsecond hfirst.asymm

theorem ScoresBelow.eq_or_comesBefore (hbelow : ScoresBelow field document other place)
    (h : IsNumbered document.size document.top.ids) (hother : other ∈ document.places)
    (hplace : place ∈ document.places) : other = place ∨ ComesBefore field document place other := by
  rcases hbelow with hsame | hlower
  · exact .inl (eq_of_place_id_eq h hother hplace hsame)
  · exact .inr (.inl hlower)

/-- What is seen does not say of itself that it is hidden. -/
theorem isMarkedHidden_of_isSeen (h : IsSeen place) : isMarkedHidden place = false := by
  have hattribute : place.attribute? "hidden" = none := h.attribute_eq _ List.mem_cons_self
  have htype : place.attribute? "type" ≠ some "hidden" := fun htype =>
    h.type_ne _ htype (by decide)
  simp [isMarkedHidden, hattribute, htype]

theorem isSuitable_of_isSeen (htag : place.tag ∈ (rules field).tags.map Prod.fst)
    (h : IsSeen place) : isSuitable field place = true := by
  rw [isSuitable, isMarkedHidden_of_isSeen h, Bool.not_false, Bool.and_true]
  exact List.contains_iff_mem.2 htag

variable {markup : String}

theorem mem_map_place_rank_iff (hmarkup : Text.byteLength markup.toList < 2 ^ 63) :
    place ∈ (rank (.parse markup) field).map Candidate.place ↔
      place ∈ (Document.parse markup).places ∧ isSuitable field place = true := by
  rw [((rank_perm hmarkup field).map Candidate.place).mem_iff, map_place_foundCandidates,
    List.mem_filter, mem_foundPlaces_iff, isSuitable, Bool.and_eq_true, List.contains_iff_mem,
    and_assoc]

theorem pairwise_rank (hmarkup : Text.byteLength markup.toList < 2 ^ 63) (field : Field) :
    (rank (.parse markup) field).Pairwise fun candidate other =>
      ComesBefore field (.parse markup) candidate.place other.place := by
  have h := isNumbered_parse markup
  have hfound : (foundCandidates field (.parse markup)).Pairwise fun candidate other =>
      IsFoundBefore field (.parse markup) candidate.place other.place := by
    refine List.pairwise_map.1 ?_
    rw [map_place_foundCandidates]
    exact (pairwise_foundPlaces h).filter _
  have hsorted := pairwise_mergeSort_score Candidate.score hfound
  rw [← rank_eq h (length_places_lt hmarkup)] at hsorted
  refine hsorted.imp_of_mem fun {candidate other} hcandidate hother hpair => ?_
  rwa [score_eq_of_mem_rank hmarkup hcandidate, score_eq_of_mem_rank hmarkup hother] at hpair

/-- The ranking starts with the element that comes before all others. -/
theorem exists_rank_eq_cons (hmarkup : Text.byteLength markup.toList < 2 ^ 63)
    (hplace : place ∈ (Document.parse markup).places) (hsuitable : isSuitable field place = true)
    (hfirst : ∀ other ∈ (Document.parse markup).places, isSuitable field other = true →
      other = place ∨ ComesBefore field (.parse markup) place other) :
    ∃ candidate rest, rank (.parse markup) field = candidate :: rest ∧ candidate.place = place := by
  have hmem := (mem_map_place_rank_iff hmarkup).2 ⟨hplace, hsuitable⟩
  have hsorted := pairwise_rank hmarkup field
  rcases hrank : rank (.parse markup) field with _ | ⟨candidate, rest⟩
  · rw [hrank] at hmem
    cases hmem
  refine ⟨candidate, rest, rfl, ?_⟩
  have hcandidate : candidate.place ∈ (rank (.parse markup) field).map Candidate.place := by
    simp [hrank]
  obtain ⟨hother, hothers⟩ := (mem_map_place_rank_iff hmarkup).1 hcandidate
  rcases hfirst _ hother hothers with heq | hbefore
  · exact heq
  rw [hrank, List.map_cons, List.mem_cons, List.mem_map] at hmem
  rw [hrank, List.pairwise_cons] at hsorted
  rcases hmem with heq | ⟨later, hlater, rfl⟩
  · exact heq.symm
  · exact absurd (hsorted.1 later hlater) hbefore.asymm

end Order

/-! ## Looking at plain pages -/

/-- The browser finds an element that locators can name by its path, and says whether it is visible. -/
theorem sight_eq_visible {page : Page} (harises : page.Arises) (hmissing : page.fixture.missing = [])
    (hbroken : page.fixture.broken = []) (hmarkup : Text.byteLength page.markup.toList < 2 ^ 63)
    {place : Place} (hplace : place ∈ (Document.parse page.markup).places)
    (hnames : IsAddressable place) :
    page.sight place.absolutePath = .ok (Page.visible place) := by
  have hselect := select_absolutePath_eq hmarkup hplace hnames
  rw [← harises.document_eq] at hselect
  rw [Page.sight, Page.resolve, hbroken, hmissing, hselect]
  rfl

namespace IsPlain

variable {page : Page} {field : Field} {place : Place} {path : String}

theorem isAddressable (h : IsPlain page) (hplace : place ∈ (Document.parse page.markup).places) :
    IsAddressable place := by
  intro level hlevel
  obtain ⟨other, hother, rfl⟩ := exists_place_of_level hplace level hlevel
  exact h.inName_tag other hother

theorem sight_absolutePath (h : IsPlain page)
    (hplace : place ∈ (Document.parse page.markup).places) :
    page.sight place.absolutePath = .ok (Page.visible place) :=
  sight_eq_visible h.arises h.missing_eq h.broken_eq h.byteLength_lt hplace (h.isAddressable hplace)

theorem sight_eq_true_iff (h : IsPlain page)
    (hplace : place ∈ (Document.parse page.markup).places) :
    page.sight place.absolutePath = .ok true ↔ IsSeen place := by
  rw [h.sight_absolutePath hplace, Except.ok.injEq, Page.visible_iff]

theorem sight_eq_false_iff (h : IsPlain page)
    (hplace : place ∈ (Document.parse page.markup).places) :
    page.sight place.absolutePath = .ok false ↔ ¬IsSeen place := by
  rw [h.sight_absolutePath hplace, Except.ok.injEq, ← Bool.not_eq_true, Page.visible_iff]

theorem mem_places_of_mem_rank (h : IsPlain page) {candidate : Candidate}
    (hcandidate : candidate ∈ rank (.parse page.markup) field) :
    candidate.place ∈ (Document.parse page.markup).places ∧
      candidate.place.tag ∈ (rules field).tags.map Prod.fst := by
  obtain ⟨hplace, hsuitable⟩ :=
    (mem_map_place_rank_iff h.byteLength_lt).1 (List.mem_map_of_mem hcandidate)
  exact ⟨hplace, List.contains_iff_mem.1 (Bool.and_eq_true_iff.1 hsuitable).1⟩

/-- What is seen and has a tag of the table is in the ranking. -/
theorem exists_candidate (h : IsPlain page) (hplace : place ∈ (Document.parse page.markup).places)
    (htag : place.tag ∈ (rules field).tags.map Prod.fst) (hseen : IsSeen place) :
    ∃ candidate ∈ rank (.parse page.markup) field, candidate.place = place := by
  have hsuitable := isSuitable_of_isSeen htag hseen
  exact List.mem_map.1 ((mem_map_place_rank_iff h.byteLength_lt).2 ⟨hplace, hsuitable⟩)

theorem exists_locate_eq_ok (h : IsPlain page) (field : Field) :
    ∃ locator, locate page field = .ok locator := by
  rcases hlocate : locate page field with stop | locator
  · obtain ⟨before, path, after, hpaths, -, hsight⟩ := Page.seek_eq_error_iff.1 hlocate
    have hpath : path ∈ paths page field := by simp [hpaths]
    obtain ⟨candidate, hcandidate, rfl⟩ := List.mem_map.1 hpath
    rw [h.sight_absolutePath (h.mem_places_of_mem_rank hcandidate).1] at hsight
    cases hsight
  · exact ⟨locator, rfl⟩

/-- Nothing is found for a field when nothing with a tag of its table is seen. -/
theorem locate_eq_none_iff (h : IsPlain page) : locate page field = .ok none ↔
    ¬∃ place ∈ (Document.parse page.markup).places,
      place.tag ∈ (rules field).tags.map Prod.fst ∧ IsSeen place := by
  rw [locate, Page.seek_eq_none_iff, paths, List.forall_mem_map]
  constructor
  · rintro hall ⟨place, hplace, htag, hseen⟩
    obtain ⟨candidate, hcandidate, rfl⟩ := h.exists_candidate hplace htag hseen
    exact (h.sight_eq_false_iff hplace).1 (hall candidate hcandidate) hseen
  · intro hnone candidate hcandidate
    obtain ⟨hplace, htag⟩ := h.mem_places_of_mem_rank hcandidate
    exact (h.sight_eq_false_iff hplace).2 fun hseen =>
      hnone ⟨candidate.place, hplace, htag, hseen⟩

/-- What is found for a field is the best of what is seen: all that would be better comes before it in
the ranking and is not visible. -/
theorem exists_isBest_of_locate (h : IsPlain page) (hlocate : locate page field = .ok (some path)) :
    ∃ place, IsBest field (.parse page.markup) place ∧ place.absolutePath = path := by
  obtain ⟨before, after, hpaths, hbefore, hsight⟩ := Page.seek_eq_some_iff.1 hlocate
  obtain ⟨first, rest, hrank, rfl, hrest⟩ := List.map_eq_append_iff.1 hpaths
  obtain ⟨candidate, last, rfl, rfl, -⟩ := List.map_eq_cons_iff.1 hrest
  have hcandidate : candidate ∈ rank (.parse page.markup) field := by simp [hrank]
  obtain ⟨hplace, htag⟩ := h.mem_places_of_mem_rank hcandidate
  have hsorted := pairwise_rank h.byteLength_lt field
  rw [hrank] at hsorted
  have hlast := (List.pairwise_cons.1 (List.pairwise_append.1 hsorted).2.1).1
  refine ⟨candidate.place, ⟨hplace, htag, (h.sight_eq_true_iff hplace).1 hsight, ?_⟩, rfl⟩
  intro place hother htag' hseen
  obtain ⟨other, hmem, rfl⟩ := h.exists_candidate hother htag' hseen
  rw [hrank, List.mem_append, List.mem_cons] at hmem
  rcases hmem with hearlier | rfl | hlater
  · have hconcealed := hbefore _ (List.mem_map_of_mem hearlier)
    exact absurd hseen ((h.sight_eq_false_iff hother).1 hconcealed)
  · exact .inl rfl
  · exact .inr (hlast other hlater)

theorem locate_eq_some_iff (h : IsPlain page) : locate page field = .ok (some path) ↔
    ∃ place, IsBest field (.parse page.markup) place ∧ place.absolutePath = path := by
  refine ⟨h.exists_isBest_of_locate, ?_⟩
  rintro ⟨place, hbest, rfl⟩
  obtain ⟨_ | path, hlocate⟩ := h.exists_locate_eq_ok field
  · exact absurd ⟨place, hbest.mem_places, hbest.tag_mem, hbest.isSeen⟩
      (h.locate_eq_none_iff.1 hlocate)
  · obtain ⟨other, hother, rfl⟩ := h.exists_isBest_of_locate hlocate
    rw [hbest.unique hother, hlocate]

/-- The path of the one seen element that scores highest is found. -/
theorem locate_eq_of_highest (h : IsPlain page)
    (hbest : ∃ place ∈ (Document.parse page.markup).places,
      place.tag ∈ (rules field).tags.map Prod.fst ∧ Page.visible place = true ∧
        place.absolutePath = path ∧ ∀ other ∈ (Document.parse page.markup).places,
          other.tag ∈ (rules field).tags.map Prod.fst → Page.visible other = true →
            ScoresBelow field (.parse page.markup) other place) :
    locate page field = .ok (some path) := by
  obtain ⟨place, hplace, htag, hvisible, hpath, hbelow⟩ := hbest
  refine h.locate_eq_some_iff.2 ⟨place, ⟨hplace, htag, Page.visible_iff.1 hvisible, ?_⟩, hpath⟩
  intro other hother htag' hseen
  exact (hbelow other hother htag' (Page.visible_iff.2 hseen)).eq_or_comesBefore
    (isNumbered_parse _) hother hplace

end IsPlain

theorem isPlain_showing {markup : String} (hmarkup : Text.byteLength markup.toList < 2 ^ 63)
    (hnames : ∀ place ∈ (Document.parse markup).places, IsAddressable place) :
    IsPlain (.showing markup) where
  arises := Page.arises_showing markup
  missing_eq := rfl
  broken_eq := rfl
  byteLength_lt := by rwa [Page.markup_showing]
  inName_tag := by
    rw [Page.markup_showing]
    exact fun place hplace => hnames place hplace _ List.mem_cons_self

/-- On a plain page the search comes to a result, and it does so for each field by itself: nothing is
found if and only if nothing with a tag of the field's table is seen, and otherwise the path of the best
such element.  The browser reports just what is seen, so nothing that it would report is left out of
the ranking as hidden. -/
theorem find_chooses_best {page : Page} (h : IsPlain page) (now : Nat) :
    (∃ found, find.Yields Page.handle ⟨page, now⟩ found ⟨page, now⟩ ∧
      ∀ field,
        (found.get field = none ↔ ¬∃ place ∈ (Document.parse page.markup).places,
          place.tag ∈ (rules field).tags.map Prod.fst ∧ IsSeen place) ∧
        ∀ path, found.get field = some path ↔
          ∃ place, IsBest field (.parse page.markup) place ∧ place.absolutePath = path) ∧
    ∀ place ∈ (Document.parse page.markup).places,
      ((Page.handle (.isVisible place.absolutePath) page).reply = .ok true ↔ IsSeen place) ∧
      (isMarkedHidden place = true →
        (Page.handle (.isVisible place.absolutePath) page).reply = .ok false) := by
  constructor
  · obtain ⟨username, husername⟩ := h.exists_locate_eq_ok .username
    obtain ⟨password, hpassword⟩ := h.exists_locate_eq_ok .password
    obtain ⟨submitButton, hsubmit⟩ := h.exists_locate_eq_ok .submitButton
    have hlocate (field : Field) :
        locate page field = .ok (Locators.get ⟨username, password, submitButton⟩ field) := by
      cases field
      · exact husername
      · exact hpassword
      · exact hsubmit
    refine ⟨⟨username, password, submitButton⟩, find_yields_iff.2 ⟨rfl, hlocate⟩, fun field => ?_⟩
    constructor
    · rw [← h.locate_eq_none_iff, hlocate, Except.ok.injEq]
    · intro path
      rw [← h.locate_eq_some_iff, hlocate, Except.ok.injEq]
  · intro place hplace
    refine ⟨h.sight_eq_true_iff hplace, fun hmarked => ?_⟩
    refine (h.sight_eq_false_iff hplace).2 fun hseen => ?_
    rw [isMarkedHidden_of_isSeen hseen] at hmarked
    cases hmarked

/-- Of the fields for a name one is marked hidden, one is hidden by what is around it, and one is
found. -/
theorem find_chooses_shown_field :
    let page : Page := .showing
      "<form><input name=user hidden><p style='Display: None'><input name=user></p><input name=uid></form>"
    IsPlain page ∧ ∃ found, find.Yields Page.handle ⟨page, 0⟩ found ⟨page, 0⟩ ∧
      found.get .username = some "/html/body/form/input[2]" := by
  intro page
  have hmarkup : page.markup =
      "<form><input name=user hidden><p style='Display: None'><input name=user></p><input name=uid></form>" :=
    Page.markup_showing _
  have hplain : IsPlain page := isPlain_showing (by decide +kernel) (by decide +kernel)
  obtain ⟨⟨found, hyields, -⟩, -⟩ := find_chooses_best hplain 0
  have hlocate : locate page .username = .ok (some "/html/body/form/input[2]") := by
    refine hplain.locate_eq_of_highest ?_
    rw [hmarkup]
    decide +kernel
  refine ⟨hplain, found, hyields, ?_⟩
  rw [(find_yields_iff.1 hyields).2 .username] at hlocate
  exact Except.ok.inj hlocate

end KeepAlive.Form
