import KeepAlive.Locator.Select
import KeepAlive.Proofs.Markup.Order

/-!
# Where steps start

The nodes where a step may start make up a tree of their own: a node leads to each child that is an
element.  The elements below a node are the children of the nodes that it leads to, and an element is
the child of one node only.
-/

namespace KeepAlive.Locator

open Markup

namespace Origin

/-- Whether a node is a child of another, and an element. -/
def IsInside (origin inner : Origin) : Prop :=
  ∃ place ∈ origin.children, inner = ofPlace place

/-- The node with an element among its children. -/
def parentOf (place : Place) : Origin :=
  ⟨place.above, place.here.siblings⟩

/-! ### Children -/

theorem siblings_eq (place : Place) : siblings place = (parentOf place).children :=
  rfl

theorem parentOf_of_mem_children {origin : Origin} {place : Place}
    (h : place ∈ origin.children) : parentOf place = origin := by
  obtain ⟨node, -, hnode⟩ := List.mem_filterMap.1 h
  cases node with
  | text => cases hnode
  | element id head children =>
    cases hnode
    rfl

theorem filterMap_place?_element (origin : Origin) (id : Nat) (head : Element)
    (children next : Forest) :
    (Forest.element id head children next).toList.filterMap origin.place? =
      ⟨⟨id, head, children, origin.inside⟩, origin.around⟩ ::
        next.toList.filterMap origin.place? :=
  rfl

/-! ### What is below -/

theorem filterMap_place?_sublist (origin : Origin) (forest : Forest) :
    (forest.toList.filterMap origin.place?).Sublist
      (placesAmong origin.around origin.inside forest) := by
  induction forest with
  | nil => exact List.Sublist.refl []
  | text id content next ih => exact ih
  | element id head children next _ ih =>
    exact (ih.trans (List.sublist_append_right _ _)).cons_cons _

theorem children_sublist_below (origin : Origin) : origin.children.Sublist origin.below :=
  filterMap_place?_sublist origin origin.inside

theorem below_ofPlace_sublist_placesAmong (origin : Origin) {forest : Forest} {place : Place}
    (h : place ∈ forest.toList.filterMap origin.place?) :
    (ofPlace place).below.Sublist (placesAmong origin.around origin.inside forest) := by
  induction forest with
  | nil => exact absurd h List.not_mem_nil
  | text id content next ih => exact ih h
  | element id head children next _ ih =>
    rw [filterMap_place?_element, List.mem_cons] at h
    rcases h with rfl | h
    · exact (List.sublist_append_left _ _).cons _
    · exact ((ih h).trans (List.sublist_append_right _ _)).cons _

theorem below_sublist_of_isInside {origin inner : Origin} (h : origin.IsInside inner) :
    inner.below.Sublist origin.below := by
  obtain ⟨place, hplace, rfl⟩ := h
  exact below_ofPlace_sublist_placesAmong origin hplace

theorem below_sublist {origin inner : Origin} (h : Relation.ReflTransGen IsInside origin inner) :
    inner.below.Sublist origin.below := by
  induction h with
  | refl => exact List.Sublist.refl _
  | tail _ hinside ih => exact (below_sublist_of_isInside hinside).trans ih

theorem exists_parent_among {around : List Level} {inside forest : Forest}
    (hforest : forest.toList ⊆ inside.toList) {place : Place}
    (h : place ∈ placesAmong around inside forest) :
    ∃ parent, Relation.ReflTransGen IsInside ⟨around, inside⟩ parent ∧ place ∈ parent.children := by
  -- The walk goes on below an element with all of its children, so `inside` changes with it.
  induction forest generalizing around inside with
  | nil => exact absurd h List.not_mem_nil
  | text id content next ih => exact ih (List.subset_of_cons_subset hforest) h
  | element id head children next ihc ihn =>
    have hnode : Node.element id head children ∈ inside.toList := hforest List.mem_cons_self
    have hplace : (⟨⟨id, head, children, inside⟩, around⟩ : Place) ∈
        Origin.children ⟨around, inside⟩ := List.mem_filterMap.2 ⟨_, hnode, rfl⟩
    rw [placesAmong, List.mem_cons, List.mem_append] at h
    rcases h with rfl | h | h
    · exact ⟨_, .refl, hplace⟩
    · obtain ⟨parent, hparent, hchild⟩ := ihc (List.Subset.refl _) h
      exact ⟨parent, .head ⟨_, hplace, rfl⟩ hparent, hchild⟩
    · exact ihn (List.subset_of_cons_subset hforest) h

/-- The elements below a node are the children of the nodes that it leads to. -/
theorem mem_below_iff {origin : Origin} {place : Place} :
    place ∈ origin.below ↔
      ∃ parent, Relation.ReflTransGen IsInside origin parent ∧ place ∈ parent.children := by
  constructor
  · exact exists_parent_among (List.Subset.refl _)
  · rintro ⟨parent, hparent, hchild⟩
    exact (below_sublist hparent).mem ((children_sublist_below parent).mem hchild)

end Origin

/-! ### Nodes of a document -/

/-- Whether a node is the document or one of its elements. -/
def Origin.IsIn (origin : Origin) (document : Document) : Prop :=
  Relation.ReflTransGen Origin.IsInside (Origin.ofDocument document) origin

section Document

variable {document : Document} {origin : Origin} {place : Place}

theorem Origin.isIn_ofDocument (document : Document) : (ofDocument document).IsIn document :=
  .refl

/-- An element is in a document if the node is that it is a child of. -/
theorem mem_places_iff : place ∈ document.places ↔
    (Origin.parentOf place).IsIn document ∧ place ∈ siblings place := by
  have hplaces : document.places = (Origin.ofDocument document).below := rfl
  rw [hplaces, Origin.mem_below_iff]
  constructor
  · rintro ⟨parent, hparent, hchild⟩
    rw [Origin.siblings_eq, Origin.parentOf_of_mem_children hchild]
    exact ⟨hparent, hchild⟩
  · rintro ⟨hparent, hchild⟩
    exact ⟨_, hparent, hchild⟩

theorem Origin.IsIn.children_sublist (h : origin.IsIn document) :
    origin.children.Sublist document.places :=
  (children_sublist_below origin).trans (below_sublist h)

theorem Origin.IsIn.ofPlace (h : place ∈ document.places) : (ofPlace place).IsIn document := by
  obtain ⟨hparent, hchild⟩ := mem_places_iff.1 h
  exact hparent.tail ⟨place, hchild, rfl⟩

theorem map_id_places (h : IsNumbered document.size document.top.ids) :
    (document.places.map Place.id).Sublist document.top.ids := by
  rw [← Document.descendants_zero_eq_places h, Document.descendants_zero h]
  exact List.filter_sublist

/-- No two elements of a document have the same number. -/
theorem nodup_map_id_places (h : IsNumbered document.size document.top.ids) :
    (document.places.map Place.id).Nodup :=
  (List.nodup_cons.1 h.nodup).2.sublist (map_id_places h)

theorem eq_of_place_id_eq (h : IsNumbered document.size document.top.ids) {other : Place}
    (hplace : place ∈ document.places) (hother : other ∈ document.places)
    (hid : place.id = other.id) : place = other :=
  List.inj_on_of_nodup_map (nodup_map_id_places h) hplace hother hid

/-- Among elements of a document an element stands where its number is found. -/
theorem getElem?_findIdx_id (h : IsNumbered document.size document.top.ids) {places : List Place}
    (hplaces : places ⊆ document.places) (hplace : place ∈ places) :
    places[places.findIdx (·.id = place.id)]? = some place := by
  have hindex : places.findIdx (·.id = place.id) < places.length :=
    List.findIdx_lt_length_of_exists ⟨place, hplace, by simp⟩
  have hid : places[places.findIdx (·.id = place.id)].id = place.id :=
    of_decide_eq_true (List.findIdx_getElem (w := hindex))
  rw [List.getElem?_eq_getElem hindex,
    eq_of_place_id_eq h (hplaces (List.getElem_mem hindex)) (hplaces hplace) hid]

end Document

end KeepAlive.Locator
