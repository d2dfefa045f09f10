import KeepAlive.Proofs.Form.Choosing

/-!
# Elements inside forms come first

What an element scores outside of forms is bounded by the rules, except for its texts, each of which
counts.  So being inside a form outweighs everything else where texts do not count at all, and for
buttons as long as no element outside has more than three texts that count.
-/

namespace KeepAlive.Form

open Locator Markup

/-- Whether in a ranking nothing outside of forms comes before something inside of one. -/
def FormsFirst (ranking : List Candidate) : Prop :=
  ranking.Pairwise fun candidate other =>
    isInForm other.place = true → isInForm candidate.place = true

/-- The highest of the weights that keys have. -/
def highest (entries : List (String × Nat)) : Nat :=
  (entries.map Prod.snd).foldr max 0

/-- The most that an element scores by the rules if so many of its texts count, being inside a form
apart. -/
def Rules.most (rules : Rules) (texts : Nat) : Nat :=
  highest rules.tags + highest rules.types +
    (rules.properties.map fun (property, weight) => match property with
      | .attribute _ => weight
      | .text => weight * texts).sum + labelBonus

/-! ## What elements can score -/

section Bounds

variable {rules : Rules} {document : Document} {place : Place}

theorem lookup_le_highest (entries : List (String × Nat)) (key : String) :
    (entries.lookup key).getD 0 ≤ highest entries := by
  induction entries with
  | nil => exact Nat.le_refl 0
  | cons entry entries ih =>
    obtain ⟨first, weight⟩ := entry
    have hhighest : highest ((first, weight) :: entries) = max weight (highest entries) := rfl
    rw [List.lookup_cons, hhighest]
    split
    · exact Nat.le_max_left _ _
    · exact Nat.le_trans ih (Nat.le_max_right _ _)

/-- An element has one tag and one type at most, and each of its properties counts once, its texts
each. -/
theorem weightOf_le_most {texts : Nat}
    (htexts : (tellingTexts rules document place).length ≤ texts) :
    weightOf rules document place ≤ rules.most texts := by
  have htag := lookup_le_highest rules.tags place.tag
  have htype : ((place.attribute? "type").bind fun kind => rules.types.lookup kind).getD 0 ≤
      highest rules.types := by
    cases place.attribute? "type" with
    | none => exact Nat.zero_le _
    | some kind => exact lookup_le_highest rules.types kind
  have hproperties : (rules.properties.map fun (property, weight) => match property with
      | .attribute name => if (place.attribute? name).any (isTelling rules) then weight else 0
      | .text => weight * (tellingTexts rules document place).length).sum ≤
      (rules.properties.map fun (property, weight) => match property with
        | .attribute _ => weight
        | .text => weight * texts).sum := by
    refine List.sum_le_sum fun entry _ => ?_
    obtain ⟨property, weight⟩ := entry
    rcases property with name | -
    · dsimp only
      split
      · exact Nat.le_refl _
      · exact Nat.zero_le _
    · exact Nat.mul_le_mul_left weight htexts
  have hlabel : (if isLabelled rules place.tag place then labelBonus else 0) ≤ labelBonus := by
    split
    · exact Nat.le_refl _
    · exact Nat.zero_le _
  exact Nat.add_le_add (Nat.add_le_add (Nat.add_le_add htag htype) hproperties) hlabel

/-- Three texts are not enough to make up for a form. -/
theorem most_lt_formBonus (field : Field) : (Form.rules field).most 3 < formBonus := by
  cases field <;> decide

/-- The texts of an element count for nothing but the button. -/
theorem most_eq_of_ne {field : Field} (hfield : field ≠ .submitButton) (texts fewer : Nat) :
    (Form.rules field).most texts = (Form.rules field).most fewer := by
  cases field with
  | username | password => rfl
  | submitButton => exact absurd rfl hfield

end Bounds

/-! ## Where they come -/

section Order

variable {markup : String} {field : Field}

/-- Elements inside forms come first exactly when each of them comes before all those outside. -/
theorem formsFirst_rank_iff (hmarkup : Text.byteLength markup.toList < 2 ^ 63) :
    FormsFirst (rank (.parse markup) field) ↔
      ∀ inside ∈ rank (.parse markup) field, ∀ outside ∈ rank (.parse markup) field,
        isInForm inside.place = true → isInForm outside.place = false →
          ComesBefore field (.parse markup) inside.place outside.place := by
  have hsorted := pairwise_rank hmarkup field
  constructor
  · intro hforms inside hinside outside houtside
    -- Of the two one stands earlier in the ranking, so what is shown has to be symmetric in them.
    let Ordered (candidate other : Candidate) : Prop :=
      isInForm candidate.place = true → isInForm other.place = false →
        ComesBefore field (.parse markup) candidate.place other.place
    have hordered : (rank (.parse markup) field).Pairwise fun candidate other =>
        Ordered candidate other ∧ Ordered other candidate := by
      refine (hsorted.and hforms).imp fun {candidate other} ⟨hbefore, hform⟩ => ?_
      refine ⟨fun _ _ => hbefore, fun hother hcandidate => ?_⟩
      rw [hform hother] at hcandidate
      cases hcandidate
    have hself (candidate : Candidate) : Ordered candidate candidate := fun hin hout => by
      rw [hin] at hout
      cases hout
    have : Std.Symm fun candidate other => Ordered candidate other ∧ Ordered other candidate :=
      ⟨fun _ _ hpair => hpair.symm⟩
    have hall := hordered.forall_of_forall fun candidate _ => ⟨hself candidate, hself candidate⟩
    exact (hall hinside houtside).1
  · intro hbefore
    refine hsorted.imp_of_mem fun {candidate other} hcandidate hother hfirst hform => ?_
    by_contra hout
    exact hfirst.asymm
      (hbefore other hother candidate hcandidate hform (Bool.eq_false_iff.2 hout))

/-- An element inside of a form comes before one outside if what speaks for that counts less than a
form. -/
theorem comesBefore_of_weightOf_lt {document : Document} {inside outside : Place}
    (hin : isInForm inside = true) (hout : isInForm outside = false)
    (hless : weightOf (rules field) document outside < formBonus) :
    ComesBefore field document inside outside := by
  refine .inl ?_
  rw [scoreOf, scoreOf, if_pos hin, if_neg (by simp [hout])]
  omega

end Order

/-! ## A page with four texts that count -/

/-- A button outside of the form with four texts that count, three of them as other buttons start
with them, and something inside of the form. -/
def crowdedMarkup : String :=
  "<button type=submit name=login id=login class=login value=login>Log in<br>Login<br>Sign in<br>Submit</button><button>Login</button><button>Sign in</button><button>Submit</button><form><div>Go</div></form>"

-- The letters are read off the literal before anything is evaluated: decoding them from the bytes
-- takes far longer than all the rest.
set_option maxRecDepth 4000 in
theorem byteLength_crowdedMarkup : Text.byteLength crowdedMarkup.toList < 2 ^ 63 := by
  have hletters : crowdedMarkup.toList = _ := String.toList_ofList
  rw [hletters]
  decide +kernel

set_option maxRecDepth 4000 in
theorem length_tellingTexts_crowdedMarkup : ∀ place ∈ (Document.parse crowdedMarkup).places,
    (tellingTexts (rules .submitButton) (.parse crowdedMarkup) place).length ≤ 4 := by
  have hletters : crowdedMarkup.toList = _ := String.toList_ofList
  rw [Document.parse, hletters]
  decide +kernel

set_option maxRecDepth 4000 in
/-- The button outscores what is inside of the form. -/
theorem not_formsFirst_crowdedMarkup :
    ¬FormsFirst (rank (.parse crowdedMarkup) .submitButton) := by
  have hpair : ∃ inside ∈ (Document.parse crowdedMarkup).places,
      ∃ outside ∈ (Document.parse crowdedMarkup).places,
        isSuitable .submitButton inside = true ∧ isSuitable .submitButton outside = true ∧
          isInForm inside = true ∧ isInForm outside = false ∧
            scoreOf .submitButton (.parse crowdedMarkup) inside <
              scoreOf .submitButton (.parse crowdedMarkup) outside := by
    have hletters : crowdedMarkup.toList = _ := String.toList_ofList
    rw [Document.parse, hletters]
    decide +kernel
  obtain ⟨inside, hinside, outside, houtside, hsuitable, hsuitable', hin, hout, hscore⟩ := hpair
  obtain ⟨first, hfirst, rfl⟩ := List.mem_map.1
    ((mem_map_place_rank_iff byteLength_crowdedMarkup).2 ⟨hinside, hsuitable⟩)
  obtain ⟨second, hsecond, rfl⟩ := List.mem_map.1
    ((mem_map_place_rank_iff byteLength_crowdedMarkup).2 ⟨houtside, hsuitable'⟩)
  intro hforms
  have hbefore :=
    (formsFirst_rank_iff byteLength_crowdedMarkup).1 hforms first hfirst second hsecond hin hout
  exact hbefore.asymm (.inl hscore)

/-- On any page the elements inside forms come first in the rankings for the name and the password.
In that for the button they do so exactly if each of them comes before all those outside that have
more than three texts that count. -/
theorem forms_first_unless_texts_outweigh (markup : String) (field : Field)
    (hmarkup : Text.byteLength markup.toList < 2 ^ 63) :
    FormsFirst (rank (.parse markup) field) ↔ (field = .submitButton →
      ∀ inside ∈ rank (.parse markup) field, ∀ outside ∈ rank (.parse markup) field,
        isInForm inside.place = true → isInForm outside.place = false →
          3 < (tellingTexts (rules field) (.parse markup) outside.place).length →
            ComesBefore field (.parse markup) inside.place outside.place) := by
  rw [formsFirst_rank_iff hmarkup]
  constructor
  · intro hbefore _ inside hinside outside houtside hin hout _
    exact hbefore inside hinside outside houtside hin hout
  · intro hmany inside hinside outside houtside hin hout
    by_cases hbutton : field = .submitButton
    · by_cases htexts : (tellingTexts (rules field) (.parse markup) outside.place).length ≤ 3
      · have hmost := Nat.lt_of_le_of_lt (weightOf_le_most htexts) (most_lt_formBonus field)
        exact comesBefore_of_weightOf_lt hin hout hmost
      · exact hmany hbutton inside hinside outside houtside hin hout (Nat.lt_of_not_le htexts)
    · have hmost := weightOf_le_most
        (Nat.le_refl (tellingTexts (rules field) (.parse markup) outside.place).length)
      rw [most_eq_of_ne hbutton _ 3] at hmost
      exact comesBefore_of_weightOf_lt hin hout (Nat.lt_of_le_of_lt hmost (most_lt_formBonus field))

/-- A button inside of a form comes before one outside of it that has one text. -/
theorem forms_first_on_two_buttons :
    Text.byteLength "<button>Login</button><form><button>Sign in</button></form>".toList < 2 ^ 63 ∧
      FormsFirst (rank (.parse "<button>Login</button><form><button>Sign in</button></form>")
        .submitButton) := by
  have hmarkup : Text.byteLength
      "<button>Login</button><form><button>Sign in</button></form>".toList < 2 ^ 63 := by
    decide +kernel
  refine ⟨hmarkup, (forms_first_unless_texts_outweigh _ _ hmarkup).2 ?_⟩
  intro _ _ _ outside houtside _ _ htexts
  have hfew : ∀ place ∈ (Document.parse
      "<button>Login</button><form><button>Sign in</button></form>").places,
      (tellingTexts (rules .submitButton) (.parse
        "<button>Login</button><form><button>Sign in</button></form>") place).length ≤ 3 := by
    decide +kernel
  have hplace := ((mem_map_place_rank_iff hmarkup).1 (List.mem_map_of_mem houtside)).1
  exact absurd htexts (Nat.not_lt_of_le (hfew outside.place hplace))

/-- A button outside of the form comes before what is inside of it, though no element has more than
four texts that count. -/
theorem button_before_form :
    Text.byteLength crowdedMarkup.toList < 2 ^ 63 ∧
      (∀ place ∈ (Document.parse crowdedMarkup).places,
        (tellingTexts (rules .submitButton) (.parse crowdedMarkup) place).length ≤ 4) ∧
      ¬FormsFirst (rank (.parse crowdedMarkup) .submitButton) :=
  ⟨byteLength_crowdedMarkup, length_tellingTexts_crowdedMarkup, not_formsFirst_crowdedMarkup⟩

end KeepAlive.Form
