import KeepAlive.Proofs.Form.Clues
import Mathlib.Data.List.Dedup

/-!
# What speaks for one element

The clues that speak for an element depend on the element itself: on its tag, its attributes, its texts
and its label.  They are listed here element by element, and so their weights can be added up.
-/

namespace KeepAlive.Form

open Locator Markup

/-! ## Rules -/

/-- The name of the attribute that a property is. -/
def Property.name? : Property → Option String
  | .attribute name => some name
  | .text => none

/-- Whether locators can be written for the rules, and no rule is given twice. -/
structure Rules.IsSound (rules : Rules) : Prop where
  isName_tag : ∀ entry ∈ rules.tags, IsName entry.1
  quote_notMem : ∀ entry ∈ rules.types, '\'' ∉ entry.1.toList
  isName_attribute : ∀ entry ∈ rules.properties, ∀ name ∈ entry.1.name?, IsName name ∧ name ≠ "type"
  nodup_tags : (rules.tags.map Prod.fst).Nodup
  nodup_types : (rules.types.map Prod.fst).Nodup
  nodup_properties : (rules.properties.map Prod.fst).Nodup

theorem isSound_rules (field : Field) : (rules field).IsSound := by
  cases field <;> constructor <;> decide

/-! ## Reasons -/

/-- Whether a text names the field and can be quoted. -/
def isTelling (rules : Rules) (value : String) : Bool :=
  mentionsAny rules.aliases value && isQuotable value

/-- The different texts of an element that name the field, as far as an element with its tag starts
with them. -/
def tellingTexts (rules : Rules) (document : Document) (place : Place) : List String :=
  place.here.texts.dedup.filter fun value => isTelling rules value &&
    document.places.any fun other => other.tag = place.tag && other.here.ownText = some value

/-- The position of an element among those of its tag, from 1. -/
def positionOf (document : Document) (place : Place) : Nat :=
  (document.places.filter (·.tag = place.tag)).findIdx (·.id = place.id) + 1

/-- What a property of an element says. -/
def Property.valueOf (place : Place) : Property → Option String
  | .attribute name => place.attribute? name
  | .text => place.here.ownText

/-- The clue that a property with a value gives. -/
def Property.clue (tag value : String) : Property → Clue
  | .attribute name => .hasAttribute tag name value
  | .text => .hasText tag value

/-- What a property says for an element. -/
def propertyReasons (rules : Rules) (document : Document) (place : Place) : Property → List Clue
  | .attribute name =>
    ((place.attribute? name).toList.filter (isTelling rules)).map (.hasAttribute place.tag name)
  | .text => (tellingTexts rules document place).map (.hasText place.tag)

/-- What speaks for an element, each clue with its weight. -/
def reasons (rules : Rules) (document : Document) (place : Place) : List (Clue × Nat) :=
  ((rules.tags.filter (·.1 = place.tag)).map fun (tag, weight) => (.hasTag tag, weight)) ++
    ((rules.types.filter fun (kind, _) => place.attribute? "type" = some kind).map
      fun (kind, weight) => (.hasType place.tag kind, weight)) ++
    (rules.properties.flatMap fun (property, weight) =>
      (propertyReasons rules document place property).map (·, weight)) ++
    if isLabelled rules place.tag place then
      [(.isLabelled place.tag (positionOf document place), labelBonus)] else []

/-! ### Properties -/

section Reasons

variable {document : Document} {rules : Rules} {place : Place}

theorem mentionsAny_eq_true_iff {words : List String} {text : String} :
    mentionsAny words text = true ↔ ∃ word ∈ words, Text.mentions text word = true :=
  List.any_eq_true

theorem clueOf_eq_some_iff {tag word : String} {property : Property} {clue : Clue} :
    clueOf tag word property place = some clue ↔
      ∃ value, property.valueOf place = some value ∧ Text.mentions value word = true ∧
        isQuotable value = true ∧ property.clue tag value = clue := by
  unfold clueOf
  rcases property with name | -
  · cases hvalue : place.attribute? name <;> simp [Property.valueOf, Property.clue, hvalue, and_assoc]
  · cases hvalue : place.here.ownText <;> simp [Property.valueOf, Property.clue, hvalue, and_assoc]

/-- The clues from properties: each element that has a telling value gives one. -/
theorem mem_propertyClues_iff {tag : String} {places : List Place} {clue : Clue} {weight : Nat} :
    (clue, weight) ∈ propertyClues rules tag places ↔
      ∃ property, (property, weight) ∈ rules.properties ∧ ∃ place ∈ places, ∃ value,
        property.valueOf place = some value ∧ isTelling rules value = true ∧
          property.clue tag value = clue := by
  simp only [propertyClues, List.mem_flatMap, List.mem_filterMap, Option.map_eq_some_iff,
    clueOf_eq_some_iff, isTelling, mentionsAny_eq_true_iff, Bool.and_eq_true]
  constructor
  · rintro ⟨word, hword, ⟨property, _⟩, hproperty, place, hplace, _,
      ⟨value, hvalue, hmentions, hquotable, rfl⟩, heq⟩
    cases heq
    exact ⟨property, hproperty, place, hplace, value, hvalue, ⟨⟨word, hword, hmentions⟩, hquotable⟩, rfl⟩
  · rintro ⟨property, hproperty, place, hplace, value, hvalue, ⟨⟨word, hword, hmentions⟩, hquotable⟩,
      rfl⟩
    exact ⟨word, hword, (property, weight), hproperty, place, hplace, _,
      ⟨value, hvalue, hmentions, hquotable, rfl⟩, rfl⟩

/-- What a property says for an element is what it says for some element of the tag and speaks for this
one. -/
theorem mem_propertyReasons_iff (hplace : place ∈ document.places) {property : Property}
    {clue : Clue} : clue ∈ propertyReasons rules document place property ↔
      (∃ other ∈ document.places.filter (·.tag = place.tag), ∃ value,
        property.valueOf other = some value ∧ isTelling rules value = true ∧
          property.clue place.tag value = clue) ∧ clue.speaksFor document place = true := by
  rcases property with name | -
  · simp only [propertyReasons, List.mem_map, List.mem_filter, Option.mem_toList]
    constructor
    · rintro ⟨value, ⟨hvalue, htelling⟩, rfl⟩
      refine ⟨⟨place, ⟨hplace, by simp⟩, value, hvalue, htelling, rfl⟩, ?_⟩
      simp [Clue.speaksFor, Option.mem_def.1 hvalue]
    · rintro ⟨⟨other, -, value, -, htelling, rfl⟩, hspeaks⟩
      have hvalue : place.attribute? name = some value := by
        simpa [Property.clue, Clue.speaksFor] using hspeaks
      exact ⟨value, ⟨hvalue, htelling⟩, rfl⟩
  · simp only [propertyReasons, tellingTexts, List.mem_map, List.mem_filter, List.mem_dedup,
      Bool.and_eq_true, List.any_eq_true, decide_eq_true_eq]
    constructor
    · rintro ⟨value, ⟨hvalue, htelling, other, hother, htag, htext⟩, rfl⟩
      refine ⟨⟨other, ⟨hother, htag⟩, value, htext, htelling, rfl⟩, ?_⟩
      simpa [Clue.speaksFor] using hvalue
    · rintro ⟨⟨other, ⟨hother, htag⟩, value, htext, htelling, rfl⟩, hspeaks⟩
      have hvalue : value ∈ place.here.texts := by
        simpa [Property.clue, Clue.speaksFor] using hspeaks
      exact ⟨value, ⟨hvalue, htelling, other, hother, htag, htext⟩, rfl⟩

theorem mem_flatMap_propertyReasons_iff (hplace : place ∈ document.places) {clue : Clue}
    {weight : Nat} :
    (clue, weight) ∈ (rules.properties.flatMap fun (property, weight) =>
      (propertyReasons rules document place property).map (·, weight)) ↔
    (clue, weight) ∈ propertyClues rules place.tag (document.places.filter (·.tag = place.tag)) ∧
      clue.speaksFor document place = true := by
  rw [mem_propertyClues_iff]
  simp only [List.mem_flatMap, List.mem_map]
  constructor
  · rintro ⟨⟨property, _⟩, hproperty, _, hclue, heq⟩
    cases heq
    obtain ⟨hgiven, hspeaks⟩ := (mem_propertyReasons_iff hplace).1 hclue
    exact ⟨⟨property, hproperty, hgiven⟩, hspeaks⟩
  · rintro ⟨⟨property, hproperty, hgiven⟩, hspeaks⟩
    exact ⟨(property, weight), hproperty, clue, (mem_propertyReasons_iff hplace).2 ⟨hgiven, hspeaks⟩,
      rfl⟩

/-! ### Labels -/

theorem mem_labelClues_iff {tag : String} {places : List Place} {clue : Clue} {weight : Nat} :
    (clue, weight) ∈ labelClues rules tag places ↔
      ∃ index place, places[index]? = some place ∧ isLabelled rules tag place = true ∧
        clue = .isLabelled tag (index + 1) ∧ weight = labelBonus := by
  simp only [labelClues, List.mem_map, List.mem_filter, Prod.exists, List.mem_zipIdx_iff_getElem?,
    Prod.mk.injEq]
  constructor
  · rintro ⟨place, index, ⟨hplace, hlabelled⟩, rfl, rfl⟩
    exact ⟨index, place, hplace, hlabelled, rfl, rfl⟩
  · rintro ⟨index, place, hplace, hlabelled, rfl, rfl⟩
    exact ⟨place, index, ⟨hplace, hlabelled⟩, rfl, rfl⟩

theorem getElem?_filter_tag_eq_iff (h : IsNumbered document.size document.top.ids)
    (hplace : place ∈ document.places) {index : Nat} :
    (document.places.filter (·.tag = place.tag))[index]? = some place ↔
      index + 1 = positionOf document place := by
  have hmem : place ∈ document.places.filter (·.tag = place.tag) :=
    List.mem_filter.2 ⟨hplace, by simp⟩
  have hfound := getElem?_findIdx_id h (List.filter_subset_self _) hmem
  rw [positionOf, Nat.add_right_cancel_iff]
  constructor
  · intro hother
    have hnodup : (document.places.filter (·.tag = place.tag)).Nodup :=
      (List.Nodup.of_map Place.id (nodup_map_id_places h)).filter _
    have hindex := (List.getElem?_eq_some_iff.1 hother).1
    exact (List.getElem?_inj hindex hnodup).1 (hother.trans hfound.symm)
  · rintro rfl
    exact hfound

/-! ### All reasons -/

/-- A clue that speaks for an element comes from the elements with its tag. -/
theorem tag_eq_of_speaksFor (h : IsNumbered document.size document.top.ids)
    (hplace : place ∈ document.places) {tag : String} {clue : Clue} {weight : Nat}
    (hclue : (clue, weight) ∈ cluesAmong rules tag (document.places.filter (·.tag = tag)))
    (hspeaks : clue.speaksFor document place = true) : place.tag = tag := by
  rw [cluesAmong, List.mem_append, List.mem_append] at hclue
  rcases hclue with (htype | hproperty) | hlabel
  · obtain ⟨⟨kind, _⟩, -, heq⟩ := List.mem_map.1 htype
    cases heq
    exact of_decide_eq_true (Bool.and_eq_true_iff.1 hspeaks).1
  · obtain ⟨property, -, -, -, value, -, -, rfl⟩ := mem_propertyClues_iff.1 hproperty
    rcases property with name | -
    · exact of_decide_eq_true (Bool.and_eq_true_iff.1 hspeaks).1
    · exact of_decide_eq_true (Bool.and_eq_true_iff.1 hspeaks).1
  · obtain ⟨index, _, -, -, rfl, -⟩ := mem_labelClues_iff.1 hlabel
    have hfound := (speaksFor_isLabelled_iff h hplace).1 hspeaks
    exact of_decide_eq_true (List.mem_filter.1 (List.mem_of_getElem? hfound)).2

theorem mem_labelReason_iff (h : IsNumbered document.size document.top.ids)
    (hplace : place ∈ document.places) {clue : Clue} {weight : Nat} :
    (clue, weight) ∈ (if isLabelled rules place.tag place then
      [(Clue.isLabelled place.tag (positionOf document place), labelBonus)] else []) ↔
    (clue, weight) ∈ labelClues rules place.tag (document.places.filter (·.tag = place.tag)) ∧
      clue.speaksFor document place = true := by
  rw [mem_labelClues_iff]
  constructor
  · intro hmem
    split at hmem
    · rename_i hlabelled
      obtain ⟨rfl, rfl⟩ := Prod.mk.inj (List.mem_singleton.1 hmem)
      have hfound := (getElem?_filter_tag_eq_iff h hplace).2 rfl
      exact ⟨⟨_, place, hfound, hlabelled, rfl, rfl⟩, (speaksFor_isLabelled_iff h hplace).2 hfound⟩
    · cases hmem
  · rintro ⟨⟨index, other, hother, hlabelled, rfl, rfl⟩, hspeaks⟩
    have hfound := (speaksFor_isLabelled_iff h hplace).1 hspeaks
    obtain rfl : other = place := Option.some.inj (hother.symm.trans hfound)
    rw [if_pos hlabelled, (getElem?_filter_tag_eq_iff h hplace).1 hfound]
    exact List.mem_singleton_self _

theorem mem_map_filter_iff {entries : List (String × Nat)} {make : String → Clue}
    {wanted : String → Bool} (hwanted : ∀ key, (make key).speaksFor document place = wanted key)
    {clue : Clue} {weight : Nat} :
    (clue, weight) ∈ ((entries.filter fun (key, _) => wanted key).map fun (key, weight) =>
        (make key, weight)) ↔
      (clue, weight) ∈ (entries.map fun (key, weight) => (make key, weight)) ∧
        clue.speaksFor document place = true := by
  simp only [List.mem_map, List.mem_filter]
  constructor
  · rintro ⟨⟨key, _⟩, ⟨hentry, hkey⟩, heq⟩
    cases heq
    exact ⟨⟨_, hentry, rfl⟩, (hwanted key).trans hkey⟩
  · rintro ⟨⟨⟨key, _⟩, hentry, heq⟩, hspeaks⟩
    cases heq
    exact ⟨_, ⟨hentry, (hwanted key).symm.trans hspeaks⟩, rfl⟩

/-- What speaks for an element is what does so of all the clues. -/
theorem mem_reasons_iff (h : IsNumbered document.size document.top.ids)
    (hplace : place ∈ document.places) (htag : place.tag ∈ rules.tags.map Prod.fst) {clue : Clue}
    {weight : Nat} : (clue, weight) ∈ reasons rules document place ↔
      (clue, weight) ∈ clues rules document ∧ clue.speaksFor document place = true := by
  have hamong : (∃ entry ∈ rules.tags, (clue, weight) ∈ cluesAmong rules entry.1
        (document.places.filter (·.tag = entry.1))) ∧ clue.speaksFor document place = true ↔
      (clue, weight) ∈ cluesAmong rules place.tag (document.places.filter (·.tag = place.tag)) ∧
        clue.speaksFor document place = true := by
    constructor
    · rintro ⟨⟨entry, -, hclue⟩, hspeaks⟩
      rw [tag_eq_of_speaksFor h hplace hclue hspeaks]
      exact ⟨hclue, hspeaks⟩
    · rintro ⟨hclue, hspeaks⟩
      obtain ⟨entry, hentry, heq⟩ := List.mem_map.1 htag
      exact ⟨⟨entry, hentry, heq ▸ hclue⟩, hspeaks⟩
  have htag' (tag : String) :
      (Clue.hasTag tag).speaksFor document place = decide (tag = place.tag) :=
    decide_eq_decide.2 eq_comm
  have htype (kind : String) : (Clue.hasType place.tag kind).speaksFor document place =
      decide (place.attribute? "type" = some kind) := by
    simp [Clue.speaksFor]
  rw [clues, List.mem_append, or_and_right, List.mem_flatMap, hamong, cluesAmong, List.mem_append,
    List.mem_append, reasons, List.mem_append, List.mem_append, List.mem_append, mem_map_filter_iff htag',
    mem_map_filter_iff htype, mem_flatMap_propertyReasons_iff hplace, mem_labelReason_iff h hplace]
  simp only [or_and_right, or_assoc]

theorem quote_notMem_of_isTelling {value : String} (h : isTelling rules value = true) :
    '\'' ∉ value.toList := by
  have hquotable := (Bool.and_eq_true_iff.1 h).2
  rw [isQuotable, Bool.and_eq_true] at hquotable
  simpa using hquotable.1

/-- Locators can be written for all clues of a document whose elements can be counted. -/
theorem isSound_of_mem_clues (hrules : rules.IsSound) (hcount : document.places.length + 1 < numberBound)
    {clue : Clue} {weight : Nat} (hclue : (clue, weight) ∈ clues rules document) : clue.IsSound := by
  rw [clues, List.mem_append] at hclue
  rcases hclue with htag | hamong
  · obtain ⟨entry, hentry, heq⟩ := List.mem_map.1 htag
    cases heq
    exact hrules.isName_tag entry hentry
  obtain ⟨⟨tag, _⟩, hentry, hamong⟩ := List.mem_flatMap.1 hamong
  have htag : IsName tag := hrules.isName_tag _ hentry
  dsimp only at hamong
  rw [cluesAmong, List.mem_append, List.mem_append] at hamong
  rcases hamong with (htype | hproperty) | hlabel
  · obtain ⟨entry, hentry, heq⟩ := List.mem_map.1 htype
    cases heq
    exact ⟨htag, hrules.quote_notMem entry hentry⟩
  · obtain ⟨property, hrule, _, -, value, -, htelling, rfl⟩ := mem_propertyClues_iff.1 hproperty
    have hvalue := quote_notMem_of_isTelling htelling
    rcases property with name | -
    · obtain ⟨hname, hne⟩ := hrules.isName_attribute (.attribute name, weight) hrule name rfl
      exact ⟨htag, hname, hvalue, hne⟩
    · exact ⟨htag, hvalue⟩
  · obtain ⟨index, place, hplace, -, rfl, -⟩ := mem_labelClues_iff.1 hlabel
    have hindex := (List.getElem?_eq_some_iff.1 hplace).1
    have hlength := List.length_filter_le (·.tag = tag) document.places
    exact ⟨htag, by omega⟩

theorem Property.eq_of_clue_eq {property other : Property} {tag value value' : String}
    (h : property.clue tag value = other.clue tag value') : property = other := by
  rcases property with name | - <;> rcases other with name' | - <;> cases h <;> rfl

theorem exists_value_of_mem_propertyReasons {property : Property} {clue : Clue}
    (h : clue ∈ propertyReasons rules document place property) :
    ∃ value, clue = property.clue place.tag value := by
  rcases property with name | -
  · obtain ⟨value, -, rfl⟩ := List.mem_map.1 h
    exact ⟨value, rfl⟩
  · obtain ⟨value, -, rfl⟩ := List.mem_map.1 h
    exact ⟨value, rfl⟩

theorem nodup_propertyReasons (property : Property) :
    (propertyReasons rules document place property).Nodup := by
  rcases property with name | -
  · refine List.Nodup.map (fun _ _ heq => (Clue.hasAttribute.inj heq).2.2) (List.Nodup.filter _ ?_)
    cases place.attribute? name <;> simp
  · refine List.Nodup.map (fun _ _ heq => (Clue.hasText.inj heq).2) (List.Nodup.filter _ ?_)
    exact List.nodup_dedup _

theorem nodup_flatMap_propertyReasons (hrules : rules.IsSound) :
    (rules.properties.flatMap fun (property, _) =>
      propertyReasons rules document place property).Nodup := by
  refine List.nodup_flatMap.2 ⟨fun entry _ => nodup_propertyReasons entry.1, ?_⟩
  refine (List.pairwise_map.1 hrules.nodup_properties).imp fun {entry other} hne clue hclue hother => ?_
  obtain ⟨value, rfl⟩ := exists_value_of_mem_propertyReasons hclue
  obtain ⟨value', heq⟩ := exists_value_of_mem_propertyReasons hother
  exact hne (Property.eq_of_clue_eq heq)

theorem nodup_map_filter {entries : List (String × Nat)} (hnodup : (entries.map Prod.fst).Nodup)
    (wanted : String × Nat → Bool) {make : String → Clue} (hmake : Function.Injective make) :
    ((entries.filter wanted).map fun entry => make entry.1).Nodup := by
  have hkeys : ((entries.filter wanted).map Prod.fst).Nodup :=
    hnodup.sublist (List.filter_sublist.map Prod.fst)
  have hclues := hkeys.map hmake
  rwa [List.map_map] at hclues

/-- No clue speaks for an element twice. -/
theorem nodup_map_fst_reasons (hrules : rules.IsSound) :
    ((reasons rules document place).map Prod.fst).Nodup := by
  have htags := nodup_map_filter hrules.nodup_tags (fun entry => entry.1 = place.tag)
    fun _ _ => Clue.hasTag.inj
  have hinjective : Function.Injective (Clue.hasType place.tag) :=
    fun _ _ heq => (Clue.hasType.inj heq).2
  have htypes := nodup_map_filter hrules.nodup_types
    (fun entry => place.attribute? "type" = some entry.1) hinjective
  have hproperty {clue : Clue} (hclue : clue ∈ rules.properties.flatMap fun entry =>
      propertyReasons rules document place entry.1) :
      ∃ property value, clue = Property.clue place.tag value property := by
    obtain ⟨entry, -, hreason⟩ := List.mem_flatMap.1 hclue
    exact ⟨entry.1, exists_value_of_mem_propertyReasons hreason⟩
  -- The kinds of reasons are clues of different kinds, so only clues of one kind have to be compared.
  simp only [reasons, List.map_append, List.map_map, List.map_flatMap, Function.comp_def, List.map_id']
  refine ((htags.append htypes ?_).append (nodup_flatMap_propertyReasons hrules) ?_).append ?_ ?_
  · intro clue htag htype
    obtain ⟨_, -, rfl⟩ := List.mem_map.1 htag
    obtain ⟨_, -, heq⟩ := List.mem_map.1 htype
    cases heq
  · intro clue hclue hother
    obtain ⟨property, value, rfl⟩ := hproperty hother
    rcases List.mem_append.1 hclue with htag | htype
    · obtain ⟨_, -, heq⟩ := List.mem_map.1 htag
      rcases property with name | - <;> cases heq
    · obtain ⟨_, -, heq⟩ := List.mem_map.1 htype
      rcases property with name | - <;> cases heq
  · split <;> simp
  · intro clue hclue hlabel
    have hlabel : clue = .isLabelled place.tag (positionOf document place) := by
      split at hlabel
      · simpa using hlabel
      · cases hlabel
    rcases List.mem_append.1 hclue with hclue | hother
    · rcases List.mem_append.1 hclue with htag | htype
      · obtain ⟨_, -, rfl⟩ := List.mem_map.1 htag
        cases hlabel
      · obtain ⟨_, -, rfl⟩ := List.mem_map.1 htype
        cases hlabel
    · obtain ⟨property, value, rfl⟩ := hproperty hother
      rcases property with name | - <;> cases hlabel

/-! ## Weights -/

theorem sum_filter_eq_lookup {entries : List (String × Nat)} (hnodup : (entries.map Prod.fst).Nodup)
    (key : String) :
    ((entries.filter (·.1 = key)).map Prod.snd).sum = (entries.lookup key).getD 0 := by
  induction entries with
  | nil => rfl
  | cons entry entries ih =>
    obtain ⟨first, weight⟩ := entry
    rw [List.map_cons, List.nodup_cons] at hnodup
    rw [List.filter_cons, List.lookup_cons]
    by_cases hfirst : first = key
    · subst hfirst
      have hnone : entries.filter (·.1 = first) = [] := by
        refine List.filter_eq_nil_iff.2 fun entry hentry hkey => hnodup.1 ?_
        exact List.mem_map.2 ⟨entry, hentry, of_decide_eq_true hkey⟩
      simp [hnone]
    · have hkey : (key == first) = false := by simpa using fun heq => hfirst heq.symm
      simpa [hfirst, hkey] using ih hnodup.2

/-- What an element scores by its tag, its type, its telling properties and its label. -/
def weightOf (rules : Rules) (document : Document) (place : Place) : Nat :=
  (rules.tags.lookup place.tag).getD 0 +
    ((place.attribute? "type").bind fun kind => rules.types.lookup kind).getD 0 +
    (rules.properties.map fun (property, weight) => match property with
      | .attribute name => if (place.attribute? name).any (isTelling rules) then weight else 0
      | .text => weight * (tellingTexts rules document place).length).sum +
    if isLabelled rules place.tag place then labelBonus else 0

theorem length_propertyReasons_attribute (name : String) :
    (propertyReasons rules document place (.attribute name)).length =
      if (place.attribute? name).any (isTelling rules) then 1 else 0 := by
  rw [propertyReasons, List.length_map]
  cases place.attribute? name with
  | none => rfl
  | some value => by_cases htelling : isTelling rules value = true <;> simp [htelling]

theorem length_propertyReasons_text :
    (propertyReasons rules document place .text).length = (tellingTexts rules document place).length :=
  List.length_map _

theorem sum_propertyReasons (properties : List (Property × Nat)) :
    ((properties.flatMap fun (property, weight) =>
      (propertyReasons rules document place property).map (·, weight)).map Prod.snd).sum =
      (properties.map fun (property, weight) => match property with
        | .attribute name => if (place.attribute? name).any (isTelling rules) then weight else 0
        | .text => weight * (tellingTexts rules document place).length).sum := by
  rw [List.map_flatMap, List.flatMap_def, List.sum_flatten, List.map_map]
  refine congrArg List.sum (List.map_congr_left fun entry _ => ?_)
  obtain ⟨property, weight⟩ := entry
  have hsum : (((propertyReasons rules document place property).map (·, weight)).map Prod.snd).sum =
      (propertyReasons rules document place property).length * weight := by
    rw [List.map_map, ← List.sum_replicate_nat, ← List.map_const']
    rfl
  refine hsum.trans ?_
  rcases property with name | -
  · rw [length_propertyReasons_attribute]
    by_cases htelling : (place.attribute? name).any (isTelling rules) = true <;> simp [htelling]
  · rw [length_propertyReasons_text, Nat.mul_comm]

theorem sum_reasons (hrules : rules.IsSound) :
    ((reasons rules document place).map Prod.snd).sum = weightOf rules document place := by
  have htag : (((rules.tags.filter (·.1 = place.tag)).map fun (tag, weight) =>
      (Clue.hasTag tag, weight)).map Prod.snd).sum = (rules.tags.lookup place.tag).getD 0 := by
    rw [List.map_map, ← sum_filter_eq_lookup hrules.nodup_tags]
    rfl
  have htype : (((rules.types.filter fun (kind, _) => place.attribute? "type" = some kind).map
      fun (kind, weight) => (Clue.hasType place.tag kind, weight)).map Prod.snd).sum =
      ((place.attribute? "type").bind fun kind => rules.types.lookup kind).getD 0 := by
    rw [List.map_map]
    cases place.attribute? "type" with
    | none => simp
    | some kind =>
      rw [Option.bind_some, ← sum_filter_eq_lookup hrules.nodup_types]
      simp only [Option.some.injEq, eq_comm]
      rfl
  have hlabel : ((if isLabelled rules place.tag place then
      [(Clue.isLabelled place.tag (positionOf document place), labelBonus)] else []).map Prod.snd).sum =
      if isLabelled rules place.tag place then labelBonus else 0 := by
    split <;> rfl
  rw [reasons, List.map_append, List.map_append, List.map_append, List.sum_append, List.sum_append,
    List.sum_append, htag, htype, sum_propertyReasons, hlabel]
  rfl

/-! ### Bounds -/

/-- There are no more telling texts than elements that start with one. -/
theorem length_tellingTexts_le :
    (tellingTexts rules document place).length ≤ document.places.length := by
  have hnodup : (tellingTexts rules document place).Nodup := (List.nodup_dedup _).filter _
  have hsubset : tellingTexts rules document place ⊆
      document.places.filterMap (·.here.ownText) := by
    intro value hvalue
    obtain ⟨-, htelling⟩ := List.mem_filter.1 hvalue
    obtain ⟨other, hother, hstarts⟩ := List.any_eq_true.1 (Bool.and_eq_true_iff.1 htelling).2
    have htext := of_decide_eq_true (Bool.and_eq_true_iff.1 hstarts).2
    exact List.mem_filterMap.2 ⟨other, hother, htext⟩
  exact Nat.le_trans (hnodup.subperm hsubset).length_le (List.length_filterMap_le _ _)

theorem lookup_le_sum (entries : List (String × Nat)) (key : String) :
    (entries.lookup key).getD 0 ≤ (entries.map Prod.snd).sum := by
  induction entries with
  | nil => exact Nat.le_refl 0
  | cons entry entries ih =>
    obtain ⟨first, weight⟩ := entry
    rw [List.lookup_cons, List.map_cons, List.sum_cons]
    split
    · exact Nat.le_add_right _ _
    · exact Nat.le_trans ih (Nat.le_add_left _ _)

/-- Each rule counts at most once, except that the texts of an element count once for each element. -/
theorem weightOf_le : weightOf rules document place ≤
    (rules.tags.map Prod.snd).sum + (rules.types.map Prod.snd).sum +
      (rules.properties.map Prod.snd).sum * (document.places.length + 1) + labelBonus := by
  have htag := lookup_le_sum rules.tags place.tag
  have htype : ((place.attribute? "type").bind fun kind => rules.types.lookup kind).getD 0 ≤
      (rules.types.map Prod.snd).sum := by
    cases place.attribute? "type" with
    | none => exact Nat.zero_le _
    | some kind => exact lookup_le_sum rules.types kind
  have hproperties : (rules.properties.map fun (property, weight) => match property with
      | .attribute name => if (place.attribute? name).any (isTelling rules) then weight else 0
      | .text => weight * (tellingTexts rules document place).length).sum ≤
      (rules.properties.map Prod.snd).sum * (document.places.length + 1) := by
    rw [← List.sum_map_mul_right]
    refine List.sum_le_sum fun entry _ => ?_
    obtain ⟨property, weight⟩ := entry
    rcases property with name | -
    · dsimp only
      split
      · exact Nat.le_mul_of_pos_right weight (Nat.succ_pos _)
      · exact Nat.zero_le _
    · exact Nat.mul_le_mul_left weight (Nat.le_succ_of_le length_tellingTexts_le)
  have hlabel : (if isLabelled rules place.tag place then labelBonus else 0) ≤ labelBonus := by
    split
    · exact Nat.le_refl _
    · exact Nat.zero_le _
  exact Nat.add_le_add (Nat.add_le_add (Nat.add_le_add htag htype) hproperties) hlabel

end Reasons

end KeepAlive.Form
