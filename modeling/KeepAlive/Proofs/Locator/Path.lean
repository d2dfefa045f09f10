import KeepAlive.Proofs.Locator.Reading
import KeepAlive.Proofs.Locator.Written
import KeepAlive.Proofs.Markup.Heads

/-!
# Absolute paths

The absolute path of an element names each element from the top of the document down to it, with its
position where its parent has others of the tag.  Read as a locator it designates this element only.
-/

namespace KeepAlive.Locator

open Markup
open Text (areBlank_nil)

/-- The step of an absolute path that leads to an element from its parent. -/
def stepTo (level : Level) : Step :=
  ⟨false, some level.head.tag,
    if level.namesakes.length > 1 then
      [.position (level.namesakes.findIdx (·.id = level.id) + 1)] else []⟩

/-- The steps of the absolute path of an element. -/
def stepsTo (place : Place) : List Step :=
  ((place.here :: place.above).map stepTo).reverse

/-- Whether a locator can name the element and those around it. -/
def IsAddressable (place : Place) : Prop :=
  ∀ level ∈ place.here :: place.above, ∀ c ∈ level.head.tag.toList, inName c = true

instance (place : Place) : Decidable (IsAddressable place) :=
  decidable_of_iff (((place.here :: place.above).all fun level =>
    level.head.tag.toList.all inName) = true) (by simp only [List.all_eq_true, IsAddressable])

/-! ## Places and their parents -/

section Parents

variable {document : Document} {place : Place}

theorem parentOf_cases (hplace : place ∈ document.places) :
    Origin.parentOf place = Origin.ofDocument document ∨
      ∃ parent ∈ document.places, Origin.parentOf place = Origin.ofPlace parent := by
  obtain ⟨hparent, -⟩ := mem_places_iff.1 hplace
  rcases hparent.cases_tail with hroot | ⟨origin, horigin, parent, hchild, heq⟩
  · exact .inl hroot
  · exact .inr ⟨parent, (Origin.IsIn.children_sublist horigin).mem hchild, heq⟩

/-- What holds of the elements at the top of a document, and of an element whenever it holds of its
parent, holds of all elements. -/
theorem places_induction {motive : Place → Prop}
    (top : ∀ place ∈ document.places, Origin.parentOf place = Origin.ofDocument document →
      motive place)
    (inside : ∀ place ∈ document.places, ∀ parent ∈ document.places,
      Origin.parentOf place = Origin.ofPlace parent → motive parent → motive place) :
    ∀ place ∈ document.places, motive place := by
  rintro ⟨here, above⟩ hplace
  induction above generalizing here with
  | nil =>
    rcases parentOf_cases hplace with hroot | ⟨parent, -, hparent⟩
    · exact top _ hplace hroot
    · cases hparent
  | cons level above ih =>
    rcases parentOf_cases hplace with hroot | ⟨parent, hparent, heq⟩
    · cases hroot
    · have habove : level :: above = parent.here :: parent.above := congrArg Origin.around heq
      cases habove
      exact inside _ hplace parent hparent heq (ih parent.here hparent)

/-- The elements around an element of a document are elements of the document. -/
theorem exists_place_of_level (hplace : place ∈ document.places) :
    ∀ level ∈ place.here :: place.above, ∃ other ∈ document.places, other.here = level := by
  refine places_induction (motive := fun place => ∀ level ∈ place.here :: place.above,
    ∃ other ∈ document.places, other.here = level) ?_ ?_ place hplace
  · intro place hplace hroot level hlevel
    have habove : place.above = [] := congrArg Origin.around hroot
    rw [habove, List.mem_singleton] at hlevel
    exact ⟨place, hplace, hlevel.symm⟩
  · intro place hplace parent _ heq ih level hlevel
    have habove : place.above = parent.here :: parent.above := congrArg Origin.around heq
    rcases List.mem_cons.1 hlevel with rfl | hlevel
    · exact ⟨place, hplace, rfl⟩
    · exact ih level (habove ▸ hlevel)

theorem map_head_placesAmong (above : List Level) (siblings forest : Forest) :
    (placesAmong above siblings forest).map (·.here.head) = forest.heads := by
  induction forest generalizing above siblings with
  | nil => rfl
  | text id content next ih => exact ih above siblings
  | element id head children next ihc ihn =>
    rw [placesAmong, List.map_cons, List.map_append, ihc, ihn]
    rfl

end Parents

/-! ## Namesakes -/

section Namesakes

variable {document : Document} {place : Place}

/-- The elements with the tag of an element among the children of its parent. -/
def namesakesOf (place : Place) : List Place :=
  (siblings place).filter (·.tag = place.tag)

theorem map_id_filter_tag (origin : Origin) (tag : String) (nodes : List Node) :
    ((nodes.filterMap origin.place?).filter (·.tag = tag)).map Place.id =
      (nodes.filter (·.tag? = some tag)).map Node.id := by
  induction nodes with
  | nil => rfl
  | cons node rest ih =>
    cases node with
    | text id content => exact ih
    | element id head children =>
      change List.map Place.id (List.filter _ (⟨⟨id, head, children, origin.inside⟩, origin.around⟩ ::
        rest.filterMap origin.place?)) = _
      rw [List.filter_cons, List.filter_cons]
      by_cases htag : head.tag = tag
      · simpa [Place.tag, Node.tag?, htag, Place.id, Node.id] using ih
      · simpa [Place.tag, Node.tag?, htag] using ih

theorem map_id_namesakesOf (place : Place) :
    (namesakesOf place).map Place.id = place.here.namesakes.map Node.id :=
  map_id_filter_tag (Origin.parentOf place) place.tag place.here.siblings.toList

theorem length_namesakesOf (place : Place) :
    (namesakesOf place).length = place.here.namesakes.length := by
  simpa using congrArg List.length (map_id_namesakesOf place)

theorem findIdx_namesakesOf (place : Place) :
    (namesakesOf place).findIdx (·.id = place.id) =
      place.here.namesakes.findIdx (·.id = place.here.id) := by
  have hplaces := List.findIdx_map (namesakesOf place) Place.id (fun id => decide (id = place.id))
  have hnodes := List.findIdx_map place.here.namesakes Node.id (fun id => decide (id = place.id))
  rw [map_id_namesakesOf] at hplaces
  exact hplaces.symm.trans hnodes

theorem mem_namesakesOf (hplace : place ∈ document.places) : place ∈ namesakesOf place :=
  List.mem_filter.2 ⟨(mem_places_iff.1 hplace).2, by simp⟩

theorem namesakesOf_sublist (hplace : place ∈ document.places) :
    (namesakesOf place).Sublist document.places :=
  List.filter_sublist.trans (mem_places_iff.1 hplace).1.children_sublist

/-- The step that leads to an element leaves it alone of the children of its parent. -/
theorem survivors_stepTo (h : IsNumbered document.size document.top.ids)
    (hplace : place ∈ document.places) :
    (stepTo place.here).survivors (siblings place) = [place] := by
  have hmem := mem_namesakesOf hplace
  have hnamed : (siblings place).filter (stepTo place.here).names = namesakesOf place :=
    List.filter_congr fun other _ => by
      rw [Step.names, stepTo, Option.all_some]
      exact decide_eq_decide.2 eq_comm
  rw [Step.survivors, hnamed, stepTo]
  dsimp only
  split
  · have hfound := getElem?_findIdx_id h (namesakesOf_sublist hplace).subset hmem
    rw [findIdx_namesakesOf] at hfound
    rw [keepAll, List.foldl_cons, List.foldl_nil, Condition.keep, if_neg (Nat.succ_ne_zero _),
      Nat.add_sub_cancel, hfound]
    rfl
  · rename_i hfew
    rw [← length_namesakesOf] at hfew
    obtain ⟨only, honly⟩ := List.length_eq_one_iff.1
      (Nat.le_antisymm (Nat.le_of_not_lt hfew) (List.length_pos_of_mem hmem))
    rw [honly, List.mem_singleton] at hmem
    rw [honly, hmem]
    rfl

end Namesakes

/-! ## Designating -/

section Designating

variable {document : Document} {place other : Place}

/-- A path with one more step goes on from where the path ends. -/
theorem reaches_append_singleton_iff {origin : Origin} {steps : List Step} {last : Step}
    (hsteps : steps ≠ []) : Reaches origin (steps ++ [last]) place ↔
      ∃ between, Reaches origin steps between ∧ last.Leads (.ofPlace between) place := by
  induction steps generalizing origin with
  | nil => exact absurd rfl hsteps
  | cons step more ih =>
    cases more with
    | nil => simp only [List.singleton_append, reaches_cons_cons_iff, reaches_singleton_iff]
    | cons next more =>
      have hmore : next :: more ≠ [] := List.cons_ne_nil next more
      simp only [List.cons_append, reaches_cons_cons_iff] at ih ⊢
      simp only [ih hmore]
      constructor
      · rintro ⟨first, hfirst, between, hbetween, hlast⟩
        exact ⟨between, ⟨first, hfirst, hbetween⟩, hlast⟩
      · rintro ⟨between, ⟨first, hfirst, hbetween⟩, hlast⟩
        exact ⟨first, hfirst, between, hbetween, hlast⟩

theorem leads_stepTo_iff (h : IsNumbered document.size document.top.ids)
    (hplace : place ∈ document.places) :
    (stepTo place.here).Leads (Origin.parentOf place) other ↔ other = place := by
  have hsurvivors := survivors_stepTo h hplace
  rw [Origin.siblings_eq] at hsurvivors
  rw [← List.mem_singleton, ← hsurvivors]
  constructor
  · rintro ⟨parent, rfl, hother⟩
    exact hother
  · exact fun hother => ⟨_, rfl, hother⟩

/-- The steps of an absolute path lead to the element and nowhere else. -/
theorem reaches_stepsTo_iff (h : IsNumbered document.size document.top.ids)
    (hplace : place ∈ document.places) :
    Reaches (Origin.ofDocument document) (stepsTo place) other ↔ other = place := by
  refine places_induction (motive := fun place => ∀ other,
    Reaches (Origin.ofDocument document) (stepsTo place) other ↔ other = place) ?_ ?_ place hplace other
  · intro place hplace hroot other
    have habove : place.above = [] := congrArg Origin.around hroot
    have hsteps : stepsTo place = [stepTo place.here] := by
      rw [stepsTo, habove]
      rfl
    rw [hsteps, reaches_singleton_iff, ← hroot, leads_stepTo_iff h hplace]
  · intro place hplace parent _ heq ih other
    have habove : place.above = parent.here :: parent.above := congrArg Origin.around heq
    have hsteps : stepsTo place = stepsTo parent ++ [stepTo place.here] := by
      rw [stepsTo, habove, List.map_cons, List.reverse_cons]
      rfl
    have hsome : stepsTo parent ≠ [] := by simp [stepsTo]
    rw [hsteps, reaches_append_singleton_iff hsome]
    simp only [ih, exists_eq_left]
    rw [← heq, leads_stepTo_iff h hplace]

end Designating

/-! ## Writing -/

section Writing

variable {document : Document} {place : Place}

/-- Whether a locator can name the element of a level and count its namesakes. -/
def IsWritable (level : Level) : Prop :=
  WrittenName level.head.tag level.head.tag.toList ∧ level.namesakes.length + 1 < numberBound

/-- Names with their positions, a slash in front of each, write the steps to some elements. -/
theorem writtenSteps_flatMap_segment {levels : List Level}
    (h : ∀ level ∈ levels, IsWritable level) :
    WrittenSteps (levels.map stepTo) (levels.flatMap fun level => '/' :: level.segment.toList) := by
  induction levels with
  | nil => exact .nil
  | cons level levels ih =>
    obtain ⟨⟨hname, hcount⟩, hrest⟩ := List.forall_mem_cons.1 h
    obtain ⟨inside, hinside, hsegment⟩ : ∃ inside, WrittenConditions (stepTo level).conditions inside ∧
        level.segment.toList = level.head.tag.toList ++ inside := by
      rw [stepTo, Level.segment]
      split
      · have hindex : level.namesakes.findIdx (·.id = level.id) ≤ level.namesakes.length :=
          List.findIdx_le_length
        have hnumber : WrittenNumber (level.namesakes.findIdx (·.id = level.id) + 1) _ :=
          writtenNumber_toString (by omega)
        refine ⟨_, .cons areBlank_nil areBlank_nil (.position hnumber) areBlank_nil .nil, ?_⟩
        simp
      · exact ⟨[], .nil, (List.append_nil _).symm⟩
    have hwritten : WrittenSteps (stepTo level :: levels.map stepTo) ([] ++ (slashes false ++
        ([] ++ (level.head.tag.toList ++ (inside ++ _))))) :=
      .cons areBlank_nil areBlank_nil (.named hname) hinside (ih hrest)
    simpa [hsegment, slashes] using hwritten

theorem slash_intercalate {parts : List (List Char)} (hparts : parts ≠ []) :
    '/' :: ['/'].intercalate parts = parts.flatMap ('/' :: ·) := by
  induction parts with
  | nil => exact absurd rfl hparts
  | cons first more ih =>
    cases more with
    | nil => simp
    | cons next more =>
      rw [List.intercalate_cons_cons, List.flatMap_cons, ← ih (List.cons_ne_nil next more)]
      simp

theorem toList_absolutePath (place : Place) :
    place.absolutePath.toList =
      (place.here :: place.above).reverse.flatMap fun level => '/' :: level.segment.toList := by
  have hsome : ((place.here :: place.above).map Level.segment).reverse.map String.toList ≠ [] := by
    simp
  rw [Place.absolutePath, String.toList_append, String.toList_intercalate]
  refine (slash_intercalate hsome).trans ?_
  rw [← List.map_reverse, List.map_map, List.flatMap_map]
  rfl

/-- The absolute path of an element is written for its steps. -/
theorem writtenExpression_absolutePath
    (h : ∀ level ∈ place.here :: place.above, IsWritable level) :
    WrittenExpression ⟨stepsTo place, none⟩ place.absolutePath.toList := by
  have hlevels : ∀ level ∈ (place.here :: place.above).reverse, IsWritable level :=
    fun level hlevel => h level (List.mem_reverse.1 hlevel)
  have hsteps := writtenSteps_flatMap_segment hlevels
  rw [List.map_reverse, ← toList_absolutePath] at hsteps
  have hpath : WrittenExpression ⟨stepsTo place, none⟩ (place.absolutePath.toList ++ []) :=
    .path (by simp [stepsTo]) hsteps areBlank_nil
  rwa [List.append_nil] at hpath

theorem length_le_byteLength (s : List Char) : s.length ≤ Text.byteLength s := by
  induction s with
  | nil => exact Nat.le_refl 0
  | cons c rest ih =>
    have hpos := c.utf8Size_pos
    rw [List.length_cons, Text.byteLength_cons]
    omega

variable {markup : String}

theorem length_places_le (markup : String) :
    (Document.parse markup).places.length ≤ markup.length + 2 := by
  have h := isNumbered_parse markup
  have hplaces := (map_id_places h).length_le
  rw [List.length_map, Forest.length_ids] at hplaces
  have hsize := size_parse_le markup
  have htop := Document.size_eq h
  omega

/-- The elements of a document can be counted if it has been made from a text that memory can hold. -/
theorem length_places_lt (hmarkup : Text.byteLength markup.toList < 2 ^ 63) :
    (Document.parse markup).places.length + 1 < numberBound := by
  have hplaces := length_places_le markup
  have hbytes := length_le_byteLength markup.toList
  rw [String.length_toList] at hbytes
  unfold numberBound
  omega

theorem tag_of_mem_places (hplace : place ∈ (Document.parse markup).places) :
    place.tag ≠ "" ∧ Text.asciiLower place.tag.toList = place.tag.toList ∧
      '/' ∉ place.tag.toList := by
  have hhead : place.here.head ∈ (Document.parse markup).top.heads := by
    rw [← map_head_placesAmong [] (Document.parse markup).top]
    exact List.mem_map_of_mem hplace
  exact tag_of_mem_heads hhead

/-- A path has a single slash in front. -/
theorem exists_absolutePath_eq (hplace : place ∈ (Document.parse markup).places) :
    ∃ c rest, place.absolutePath.toList = '/' :: c :: rest ∧ c ≠ '/' := by
  obtain ⟨level, more, hlevels⟩ : ∃ level more, (place.here :: place.above).reverse = level :: more :=
    List.exists_cons_of_ne_nil (by simp)
  have hlevel : level ∈ place.here :: place.above := by
    rw [← List.mem_reverse, hlevels]
    exact List.mem_cons_self
  obtain ⟨other, hother, rfl⟩ := exists_place_of_level hplace level hlevel
  obtain ⟨hsome, -, hslash⟩ := tag_of_mem_places hother
  obtain ⟨c, rest, htag⟩ := List.exists_cons_of_ne_nil fun hnil =>
    hsome (String.toList_eq_nil_iff.1 hnil)
  obtain ⟨after, hsegment⟩ : ∃ after, other.here.segment.toList = c :: after := by
    rw [Level.segment]
    split
    · rw [String.toList_append, String.toList_append, String.toList_append]
      exact ⟨_, congrArg (· ++ _ ++ _ ++ _) htag⟩
    · exact ⟨rest, htag⟩
  have hc : c ≠ '/' := by
    rintro rfl
    exact hslash (htag ▸ List.mem_cons_self)
  rw [toList_absolutePath, hlevels, List.flatMap_cons, hsegment]
  exact ⟨c, _, rfl, hc⟩

/-- A locator can name an element whose tag consists of characters of names, and count its namesakes. -/
theorem isWritable_of_inName (hmarkup : Text.byteLength markup.toList < 2 ^ 63)
    (hplace : place ∈ (Document.parse markup).places)
    (hname : ∀ c ∈ place.tag.toList, inName c = true) : IsWritable place.here := by
  obtain ⟨hsome, hlower, -⟩ := tag_of_mem_places hplace
  have hcount := (namesakesOf_sublist hplace).length_le
  have hplaces := length_places_lt hmarkup
  rw [length_namesakesOf] at hcount
  exact ⟨⟨fun hnil => hsome (String.toList_eq_nil_iff.1 hnil), hname, hlower⟩, by omega⟩

theorem select_absolutePath_eq (hmarkup : Text.byteLength markup.toList < 2 ^ 63)
    (hplace : place ∈ (Document.parse markup).places) (hnames : IsAddressable place) :
    select (.parse markup) place.absolutePath = .ok [place] := by
  have h := isNumbered_parse markup
  have hlevels (level : Level) (hlevel : level ∈ place.here :: place.above) : IsWritable level := by
    obtain ⟨other, hother, rfl⟩ := exists_place_of_level hplace level hlevel
    exact isWritable_of_inName hmarkup hother (hnames _ hlevel)
  have hroot (origin : Origin) (horigin : origin ∈ [Origin.ofDocument (.parse markup)]) :
      origin.IsIn (.parse markup) := by
    obtain rfl := List.mem_singleton.1 horigin
    exact Origin.isIn_ofDocument _
  have hfollow : follow (.parse markup) [.ofDocument (.parse markup)] (stepsTo place) =
      (Document.parse markup).places.filter (·.id = place.id) := by
    refine follow_eq h (stepsTo place) hroot fun other hother => ?_
    simp only [List.mem_singleton, exists_eq_left, decide_eq_true_iff, reaches_stepsTo_iff h hplace]
    exact ⟨eq_of_place_id_eq h hother hplace, congrArg Place.id⟩
  obtain ⟨k, hk, hplace⟩ := List.getElem_of_mem hplace
  have hone := filter_id_eq (nodup_map_id_places h) hk
  rw [hplace] at hone
  rw [select, parse_of_writtenExpression (writtenExpression_absolutePath hlevels)]
  dsimp only
  rw [Expression.select, hfollow, hone]

end Writing

/-- The absolute path of an element whose tag and those around it consist of characters of names
designates this element only, so no other element of the kind has the path.  The text is one that
memory can hold, so that positions stay within machine words. -/
theorem select_absolutePath {markup : String} (hmarkup : Text.byteLength markup.toList < 2 ^ 63)
    {place : Place} (hplace : place ∈ (Document.parse markup).places) (hnames : IsAddressable place) :
    select (.parse markup) place.absolutePath = .ok [place] ∧
      ∀ other ∈ (Document.parse markup).places, IsAddressable other →
        other.absolutePath = place.absolutePath → other = place := by
  refine ⟨select_absolutePath_eq hmarkup hplace hnames, fun other hother hothers hsame => ?_⟩
  have hselect := select_absolutePath_eq hmarkup hother hothers
  rw [hsame, select_absolutePath_eq hmarkup hplace hnames] at hselect
  cases hselect
  rfl

/-- The second of two paragraphs, in added elements, has its position in its path. -/
theorem select_absolutePath_second_paragraph :
    ∃ place ∈ (Document.parse "<p>a</p><p>b</p>").places,
      Text.byteLength "<p>a</p><p>b</p>".toList < 2 ^ 63 ∧ IsAddressable place ∧
        place.absolutePath = "/html/body/p[2]" ∧
        select (.parse "<p>a</p><p>b</p>") place.absolutePath = .ok [place] ∧
        ∀ other ∈ (Document.parse "<p>a</p><p>b</p>").places, IsAddressable other →
          other.absolutePath = place.absolutePath → other = place := by
  have hbytes : Text.byteLength "<p>a</p><p>b</p>".toList < 2 ^ 63 := by decide +kernel
  have hnames : ∀ place ∈ (Document.parse "<p>a</p><p>b</p>").places, IsAddressable place := by
    decide +kernel
  have hpath : ∃ place ∈ (Document.parse "<p>a</p><p>b</p>").places,
      place.absolutePath = "/html/body/p[2]" := by
    decide +kernel
  obtain ⟨place, hplace, hpath⟩ := hpath
  have hdesignates := select_absolutePath hbytes hplace (hnames place hplace)
  exact ⟨place, hplace, hbytes, hnames place hplace, hpath, hdesignates⟩

end KeepAlive.Locator
