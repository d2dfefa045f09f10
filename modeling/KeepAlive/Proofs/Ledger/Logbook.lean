import KeepAlive.Proofs.Ledger.Entries

/-!
# Whose row an attempt finishes

An attempt enters a row into the history and later finishes the row with the id that it was given.
Rows go when their site is deleted, and the id of a row that is gone may be given again: then an
attempt whose site was deleted holds the id of somebody else's row.  The main result says that this
is the only way in which an attempt can finish a row that it has not entered, and that it always
happens then.
-/

namespace KeepAlive

open Time

/-- A login attempt as the history sees it. -/
structure Visit where
  site : Int
  started : Instant
  picture : Option String := none
  status : LoginStatus
  message : Option String := none

namespace Visit

/-- The entry of the attempt when it begins. -/
def entry (visit : Visit) : NewHistory :=
  .inProgress visit.started visit.picture

/-- The finish of its entry when it ends. -/
def finish (visit : Visit) : Finish :=
  .ofOutcome visit.status visit.message none

/-- The row that it enters. -/
def row (visit : Visit) (id : Int) : HistoryRow :=
  .ofNew id visit.site visit.entry

theorem isTerminal_finished (visit other : Visit) (id : Int) (now : Instant) :
    ((visit.row id).finished now other.finish).IsTerminal :=
  HistoryRow.isTerminal_finished (Finish.ofOutcome_isTerminal _ _ _)

end Visit

/-- What attempts and others do to a ledger.  Attempts are numbered. -/
inductive Deed
  | addSite (new : NewSite)
  | deleteSite (id : Int)
  /-- An attempt enters its row. -/
  | enter (visit : Nat)
  /-- An attempt finishes the row with the id that it was given. -/
  | finish (visit : Nat)

/-- A ledger and what is known of the attempts that write its history. -/
structure Logbook where
  ledger : Ledger
  /-- The id that an attempt was given for its row. -/
  given : Nat → Option Int := fun _ => none
  /-- The last attempt that entered a row with an id. -/
  author : Int → Option Nat := fun _ => none
  /-- Whether the site of an attempt was deleted after the attempt had entered its row. -/
  bereft : Nat → Bool := fun _ => false

namespace Logbook

/-- The logbook after an attempt has entered a row with an id. -/
def entered (book : Logbook) (ledger : Ledger) (k : Nat) (id : Int) : Logbook where
  ledger
  given := fun other => if other = k then some id else book.given other
  author := fun other => if other = id then some k else book.author other
  bereft := book.bereft

/-- The logbook after a site has been deleted. -/
def cleared (visits : Nat → Visit) (book : Logbook) (ledger : Ledger) (siteId : Int) : Logbook :=
  { book with
    ledger
    bereft := fun k => book.bereft k || ((book.given k).isSome && (visits k).site = siteId) }

/-- The logbook after a deed.  What the ledger refuses changes nothing, and an attempt enters one
row. -/
def after (visits : Nat → Visit) (book : Logbook) (moment : Moment) : Deed → Logbook
  | .addSite new =>
    match book.ledger.addSite moment new with
    | .error _ => book
    | .ok change => { book with ledger := change.ledger }
  | .deleteSite id =>
    match book.ledger.deleteSite id with
    | .error _ => book
    | .ok change => book.cleared visits change.ledger id
  | .enter k =>
    if (book.given k).isSome then book
    else
      match book.ledger.insertHistory moment (visits k).site (visits k).entry with
      | .error _ => book
      | .ok change => book.entered change.ledger k change.result.id
  | .finish k =>
    match book.given k with
    | none => book
    | some id =>
      match book.ledger.finishHistory moment id (visits k).finish with
      | .error _ => book
      | .ok change => { book with ledger := change.ledger }

/-- The logbook after deeds, the first one first. -/
def run (visits : Nat → Visit) (book : Logbook) (deeds : List (Moment × Deed)) : Logbook :=
  deeds.foldl (fun book (moment, deed) => book.after visits moment deed) book

variable {visits : Nat → Visit} {book : Logbook} {moment : Moment}

theorem given_entered (ledger : Ledger) (k : Nat) (id : Int) (other : Nat) :
    (book.entered ledger k id).given other = if other = k then some id else book.given other :=
  rfl

theorem author_entered (ledger : Ledger) (k : Nat) (id other : Int) :
    (book.entered ledger k id).author other = if other = id then some k else book.author other :=
  rfl

theorem bereft_cleared_eq_false_iff {ledger : Ledger} {siteId : Int} {k : Nat} :
    (book.cleared visits ledger siteId).bereft k = false ↔
      book.bereft k = false ∧ (book.given k ≠ none → (visits k).site ≠ siteId) := by
  simp [cleared, Option.isSome_iff_ne_none]

/-- A row is as an attempt entered it, or has been finished by that attempt or by a bereft one that
was given the same id. -/
def IsFrom (visits : Nat → Visit) (book : Logbook) (j : Nat) (row : HistoryRow) : Prop :=
  row = (visits j).row row.id ∨ ∃ k now, book.given k = some row.id ∧
    (k = j ∨ book.bereft k = true) ∧ row = ((visits j).row row.id).finished now (visits k).finish

/-- What holds of every logbook: the rows that attempts have entered are theirs and their sites are
there, and an attempt that is not bereft has its row. -/
structure IsFaithful (visits : Nat → Visit) (book : Logbook) : Prop where
  nodup : (book.ledger.history.map (·.id)).Nodup
  author : ∀ row ∈ book.ledger.history, ∀ j, book.author row.id = some j →
    book.given j = some row.id ∧ book.bereft j = false ∧ book.IsFrom visits j row
  own : ∀ k id, book.given k = some id → book.bereft k = false →
    book.author id = some k ∧ ∃ row ∈ book.ledger.history, row.id = id
  authored : ∀ k id, book.given k = some id → ∀ row ∈ book.ledger.history, row.id = id →
    book.author id ≠ none
  idle : ∀ k, book.given k = none → book.bereft k = false

theorem IsFrom.siteId_eq {j : Nat} {row : HistoryRow} (h : book.IsFrom visits j row) :
    row.siteId = (visits j).site := by
  rcases h with h | ⟨k, now, -, -, h⟩
  · rw [h]
    rfl
  · rw [h]
    rfl

theorem IsFrom.mono {after : Logbook} {j : Nat} {row : HistoryRow} (h : book.IsFrom visits j row)
    (hgiven : ∀ k id, book.given k = some id → after.given k = some id)
    (hbereft : ∀ k, book.bereft k = true → after.bereft k = true) : after.IsFrom visits j row := by
  refine h.imp_right ?_
  rintro ⟨k, now, hk, hwho, hrow⟩
  exact ⟨k, now, hgiven k _ hk, hwho.imp_right (hbereft k), hrow⟩

theorem IsFaithful.opening {start : Ledger} (h : (start.history.map (·.id)).Nodup) :
    IsFaithful visits { ledger := start } where
  nodup := h
  author _ _ _ hauthor := by cases hauthor
  own _ _ hgiven := by cases hgiven
  authored _ _ hgiven := by cases hgiven
  idle _ _ := rfl

/-- Sites may come and change; the history stays. -/
theorem IsFaithful.withLedger (h : book.IsFaithful visits) {ledger : Ledger}
    (hhistory : ledger.history = book.ledger.history) :
    IsFaithful visits { book with ledger } := by
  refine ⟨?_, ?_, ?_, ?_, h.idle⟩
  · rw [hhistory]
    exact h.nodup
  · rw [hhistory]
    exact h.author
  · rw [hhistory]
    exact h.own
  · rw [hhistory]
    exact h.authored

theorem IsFaithful.cleared (h : book.IsFaithful visits) {siteId : Int} {change : Change Unit}
    (hchange : book.ledger.deleteSite siteId = .ok change) :
    (book.cleared visits change.ledger siteId).IsFaithful visits := by
  obtain ⟨-, hhistory, -⟩ := Ledger.deleteSite_eq_ok hchange
  have hmem {row : HistoryRow} : row ∈ change.ledger.history ↔
      row ∈ book.ledger.history ∧ row.siteId ≠ siteId := by
    rw [hhistory]
    simp
  refine ⟨?_, ?_, ?_, ?_, ?_⟩
  · change (change.ledger.history.map (·.id)).Nodup
    rw [hhistory]
    exact h.nodup.sublist (List.filter_sublist.map _)
  · intro row hrow j hauthor
    obtain ⟨hold, hsite⟩ := hmem.1 hrow
    obtain ⟨hgiven, hbereft, hfrom⟩ := h.author row hold j hauthor
    rw [hfrom.siteId_eq] at hsite
    refine ⟨hgiven, bereft_cleared_eq_false_iff.2 ⟨hbereft, fun _ => hsite⟩,
      hfrom.mono (fun _ _ => id) fun k hk => ?_⟩
    simp [Logbook.cleared, hk]
  · intro k id (hgiven : book.given k = some id) hbereft
    obtain ⟨hbereft, hsite⟩ := bereft_cleared_eq_false_iff.1 hbereft
    obtain ⟨hauthor, row, hrow, hid⟩ := h.own k id hgiven hbereft
    obtain ⟨-, -, hfrom⟩ := h.author row hrow k (hid ▸ hauthor)
    refine ⟨hauthor, row, hmem.2 ⟨hrow, ?_⟩, hid⟩
    rw [hfrom.siteId_eq]
    exact hsite (by rw [hgiven]; exact Option.some_ne_none id)
  · intro k id hgiven row hrow hid
    exact h.authored k id hgiven row (hmem.1 hrow).1 hid
  · intro k hnone
    exact bereft_cleared_eq_false_iff.2 ⟨h.idle k hnone, fun hgiven => absurd hnone hgiven⟩

theorem IsFaithful.entered (h : book.IsFaithful visits) {k : Nat} (hnone : book.given k = none)
    {change : Change History}
    (hchange : book.ledger.insertHistory moment (visits k).site (visits k).entry = .ok change) :
    (book.entered change.ledger k change.result.id).IsFaithful visits := by
  obtain ⟨new, hnew, hfresh, hperm⟩ := Ledger.history_insertHistory hchange
  have hid : new.id = change.result.id := by rw [hnew]; rfl
  have hmem {row : HistoryRow} : row ∈ change.ledger.history ↔
      row = new ∨ row ∈ book.ledger.history := by
    rw [hperm.mem_iff, List.mem_cons]
  have hold {row : HistoryRow} (hrow : row ∈ book.ledger.history) : row.id ≠ change.result.id := by
    rw [← hid]
    exact fun heq => hfresh (List.mem_map.2 ⟨row, hrow, heq⟩)
  have hother {other : Nat} {id : Int} (hgiven : book.given other = some id) : other ≠ k := by
    rintro rfl
    rw [hnone] at hgiven
    cases hgiven
  refine ⟨Ledger.nodup_of_perm_cons h.nodup hfresh hperm, ?_, ?_, ?_, ?_⟩
  · intro row hrow j hauthor
    rw [author_entered] at hauthor
    rw [given_entered]
    rcases hmem.1 hrow with rfl | hrow
    · rw [if_pos hid] at hauthor
      cases hauthor
      refine ⟨by rw [if_pos rfl, hid], h.idle k hnone, Or.inl ?_⟩
      rw [hid]
      exact hnew
    · rw [if_neg (hold hrow)] at hauthor
      obtain ⟨hgiven, hbereft, hfrom⟩ := h.author row hrow j hauthor
      refine ⟨by rw [if_neg (hother hgiven)]; exact hgiven, hbereft,
        hfrom.mono (fun other id hbefore => ?_) fun _ => id⟩
      rw [given_entered, if_neg (hother hbefore)]
      exact hbefore
  · intro other id hgiven hbereft
    rw [given_entered] at hgiven
    rw [author_entered]
    by_cases hself : other = k
    · rw [if_pos hself] at hgiven
      cases hgiven
      exact ⟨by rw [if_pos rfl, hself], new, hmem.2 (Or.inl rfl), hid⟩
    · rw [if_neg hself] at hgiven
      obtain ⟨hauthor, row, hrow, rfl⟩ := h.own other id hgiven hbereft
      exact ⟨by rw [if_neg (hold hrow)]; exact hauthor, row, hmem.2 (Or.inr hrow), rfl⟩
  · intro other id hgiven row hrow hrowId
    rw [given_entered] at hgiven
    rw [author_entered]
    by_cases hsame : id = change.result.id
    · rw [if_pos hsame]
      exact Option.some_ne_none k
    · rw [if_neg hsame]
      have hself : other ≠ k := by
        rintro rfl
        rw [if_pos rfl] at hgiven
        exact hsame (Option.some.inj hgiven).symm
      rw [if_neg hself] at hgiven
      rcases hmem.1 hrow with rfl | hrow
      · exact absurd (hrowId.symm.trans hid) hsame
      · exact h.authored other id hgiven row hrow hrowId
  · intro other hgiven
    rw [given_entered] at hgiven
    by_cases hself : other = k
    · rw [if_pos hself] at hgiven
      cases hgiven
    · rw [if_neg hself] at hgiven
      exact h.idle other hgiven

/-- What an attempt finishes is as its author entered it, and the attempt is the author just if it
is not bereft. -/
theorem IsFaithful.finish_cases (h : book.IsFaithful visits) {k : Nat} {id : Int}
    (hgiven : book.given k = some id) {change : Change History}
    (hchange : book.ledger.finishHistory moment id (visits k).finish = .ok change) :
    ∃ j, book.author id = some j ∧ (j = k ↔ book.bereft k = false) ∧
      (visits j).row id ∈ book.ledger.history ∧
      change.ledger.history = book.ledger.history.map fun row =>
        if row.id = id then ((visits j).row id).finished moment.now (visits k).finish else row := by
  obtain ⟨⟨row, hfound, hopen⟩, hhistory⟩ :=
    Ledger.history_finish (Ledger.finishHistory_eq_ok hchange).1
  have hrow := List.mem_of_find?_eq_some hfound
  have hid : row.id = id := by simpa using List.find?_some hfound
  obtain ⟨j, hauthor⟩ := Option.ne_none_iff_exists'.1 (h.authored k id hgiven row hrow hid)
  obtain ⟨hgivenJ, hbereftJ, hfrom⟩ := h.author row hrow j (hid ▸ hauthor)
  have hentered : row = (visits j).row id := by
    rcases hfrom with hentered | ⟨other, now, -, -, hfinished⟩
    · rwa [hid] at hentered
    · rw [hfinished, (Visit.isTerminal_finished _ _ _ _).isOpen_eq] at hopen
      cases hopen
  refine ⟨j, hauthor, ⟨?_, ?_⟩, hentered ▸ hrow, ?_⟩
  · rintro rfl
    exact hbereftJ
  · intro hbereft
    have hself := (h.own k id hgiven hbereft).1
    rw [hauthor] at hself
    exact Option.some.inj hself
  · rw [hhistory]
    refine List.map_congr_left fun other hother => ?_
    split
    · rename_i hotherId
      have hsame := Ledger.find?_of_nodup h.nodup hother
      rw [hotherId, hfound] at hsame
      rw [← hentered, Option.some.inj hsame]
    · rfl

theorem IsFaithful.finished (h : book.IsFaithful visits) {k : Nat} {id : Int}
    (hgiven : book.given k = some id) {change : Change History}
    (hchange : book.ledger.finishHistory moment id (visits k).finish = .ok change) :
    IsFaithful visits { book with ledger := change.ledger } := by
  obtain ⟨j, hauthor, hwho, hentered, hhistory⟩ := h.finish_cases hgiven hchange
  have hids : change.ledger.history.map (·.id) = book.ledger.history.map (·.id) := by
    rw [hhistory, List.map_map]
    refine List.map_congr_left fun row _ => ?_
    simp only [Function.comp_apply]
    split
    · rename_i hid
      exact hid.symm
    · rfl
  have hmem {other : Int} : (∃ row ∈ change.ledger.history, row.id = other) ↔
      ∃ row ∈ book.ledger.history, row.id = other := by
    simp only [← List.mem_map, hids]
  refine ⟨?_, ?_, ?_, ?_, h.idle⟩
  · change (change.ledger.history.map (·.id)).Nodup
    rw [hids]
    exact h.nodup
  · intro row hrow i hi
    rw [hhistory] at hrow
    obtain ⟨before, hbefore, hrow⟩ := List.mem_map.1 hrow
    split at hrow
    · rename_i hid
      rw [← hrow] at hi ⊢
      cases hauthor.symm.trans hi
      obtain ⟨hgivenJ, hbereftJ, -⟩ := h.author before hbefore j (hid ▸ hauthor)
      refine ⟨hid ▸ hgivenJ, hbereftJ, Or.inr ⟨k, moment.now, hgiven, ?_, rfl⟩⟩
      cases hbereft : book.bereft k with
      | false => exact Or.inl (hwho.2 hbereft).symm
      | true => exact Or.inr rfl
    · rw [← hrow] at hi ⊢
      exact h.author before hbefore i hi
  · intro other given hother hbereft
    obtain ⟨hself, hrow⟩ := h.own other given hother hbereft
    exact ⟨hself, hmem.2 hrow⟩
  · intro other given hother row hrow hid
    obtain ⟨before, hbefore, hbeforeId⟩ := hmem.1 ⟨row, hrow, hid⟩
    exact h.authored other given hother before hbefore hbeforeId

/-- Every deed leaves a faithful logbook. -/
theorem IsFaithful.after (h : book.IsFaithful visits) (moment : Moment) (deed : Deed) :
    (book.after visits moment deed).IsFaithful visits := by
  cases deed with
  | addSite new =>
    simp only [Logbook.after]
    split
    · exact h
    · rename_i change hchange
      obtain ⟨id, -, hledger, -⟩ := Ledger.addSite_eq_ok hchange
      exact h.withLedger (by rw [hledger])
  | deleteSite id =>
    simp only [Logbook.after]
    split
    · exact h
    · exact h.cleared ‹_›
  | enter k =>
    simp only [Logbook.after]
    split
    · exact h
    · rename_i hnone
      split
      · exact h
      · exact h.entered (Option.not_isSome_iff_eq_none.1 hnone) ‹_›
  | finish k =>
    simp only [Logbook.after]
    split
    · exact h
    · split
      · exact h
      · exact h.finished ‹_› ‹_›

theorem IsFaithful.run (h : book.IsFaithful visits) (deeds : List (Moment × Deed)) :
    (book.run visits deeds).IsFaithful visits := by
  induction deeds generalizing book with
  | nil => exact h
  | cons deed rest ih => exact ih (h.after deed.1 deed.2)

/-- Without a row there is nothing to finish. -/
theorem finishHistory_of_gone {ledger : Ledger} {id : Int} (h : ∀ row ∈ ledger.history, row.id ≠ id)
    (moment : Moment) (how : Finish) :
    ledger.finishHistory moment id how = .error (.historyNotFound id) := by
  have hnone : ledger.history.find? (·.id = id) = none := by
    simpa using h
  unfold Ledger.finishHistory Ledger.finish Ledger.entry
  rw [hnone]
  rfl

/-- In every interleaving of attempts with sites that come and go, an attempt that finishes a row
finishes an open one just as its author entered it, and changes no other.  The attempt is the author
if and only if its site has not been deleted since it entered its row; then its row is there.  Every
row that an attempt has entered is as it was entered or bears the finish of its author, or of an
attempt whose site was deleted and which was given the same id.  An attempt whose site was deleted
finishes nothing as long as its id is not given again.  So if no id is given twice, every row bears
the finish of its author only, and attempts whose site was deleted change nothing. -/
theorem finish_is_author_iff_not_bereft (visits : Nat → Visit) (start : Ledger)
    (hstart : (start.history.map (·.id)).Nodup) (deeds : List (Moment × Deed)) :
    let book := Logbook.run visits { ledger := start } deeds
    (∀ k id moment change, book.given k = some id →
      book.ledger.finishHistory moment id (visits k).finish = .ok change →
      ∃ j, book.author id = some j ∧ (j = k ↔ book.bereft k = false) ∧
        (visits j).row id ∈ book.ledger.history ∧
        change.ledger.history = book.ledger.history.map fun row =>
          if row.id = id then ((visits j).row id).finished moment.now (visits k).finish else row) ∧
    (∀ k id, book.given k = some id → book.bereft k = false →
      book.author id = some k ∧ ∃ row ∈ book.ledger.history, row.id = id) ∧
    (∀ row ∈ book.ledger.history, ∀ j, book.author row.id = some j → book.IsFrom visits j row) ∧
    (∀ k id, book.given k = some id → book.bereft k = true →
      (∀ row ∈ book.ledger.history, row.id ≠ id) →
      ∀ moment, book.ledger.finishHistory moment id (visits k).finish =
        .error (.historyNotFound id)) ∧
    ((∀ j k id, book.given j = some id → book.given k = some id → j = k) →
      (∀ row ∈ book.ledger.history, ∀ j, book.author row.id = some j →
        row = (visits j).row row.id ∨
          ∃ now, row = ((visits j).row row.id).finished now (visits j).finish) ∧
      ∀ k id, book.given k = some id → book.bereft k = true →
        ∀ moment, book.ledger.finishHistory moment id (visits k).finish =
          .error (.historyNotFound id)) := by
  intro book
  have hbook : book.IsFaithful visits := (IsFaithful.opening hstart).run deeds
  refine ⟨fun k id moment change hgiven hchange => hbook.finish_cases hgiven hchange, hbook.own,
    fun row hrow j hauthor => (hbook.author row hrow j hauthor).2.2,
    fun k id _ _ hgone moment => finishHistory_of_gone hgone moment _, fun hunique => ⟨?_, ?_⟩⟩
  · intro row hrow j hauthor
    obtain ⟨hgiven, -, hfrom⟩ := hbook.author row hrow j hauthor
    refine hfrom.imp_right ?_
    rintro ⟨k, now, hk, -, hfinished⟩
    rw [hunique j k row.id hgiven hk]
    rw [hunique j k row.id hgiven hk] at hfinished
    exact ⟨now, hfinished⟩
  · intro k id hgiven hbereft moment
    refine finishHistory_of_gone (fun row hrow hid => ?_) moment _
    -- A row with the id would be the attempt's own, but attempts with a row are not bereft.
    obtain ⟨j, hauthor⟩ :=
      Option.ne_none_iff_exists'.1 (hbook.authored k id hgiven row hrow hid)
    obtain ⟨hgivenJ, hbereftJ, -⟩ := hbook.author row hrow j (hid ▸ hauthor)
    rw [hunique j k id (hid ▸ hgivenJ) hgiven, hbereft] at hbereftJ
    cases hbereftJ

/-- Two sites are added and attempts of both are under way: neither is bereft, and the second has
its own row. -/
theorem own_row_beside_another :
    let moment (second : Int) : Moment := ⟨⟨second, 0⟩, .utc, []⟩
    let visits (k : Nat) : Visit := ⟨k + 1, ⟨10, 0⟩, none, .success, none⟩
    let deeds : List (Moment × Deed) := [(moment 1, .addSite .sample),
      (moment 2, .addSite .sample), (moment 10, .enter 0), (moment 11, .enter 1),
      (moment 12, .finish 0)]
    let book := Logbook.run visits { ledger := {} } deeds
    (({} : Ledger).history.map (·.id)).Nodup ∧ book.given 1 = some 2 ∧ book.bereft 1 = false ∧
      book.author 2 = some 1 ∧ ∃ row ∈ book.ledger.history, row.id = 2 := by
  intro moment visits deeds book
  have hgiven : book.given 1 = some 2 := by decide +kernel
  have hbereft : book.bereft 1 = false := by decide +kernel
  obtain ⟨-, hown, -⟩ := finish_is_author_iff_not_bereft visits {} List.nodup_nil deeds
  have hbook : Logbook.run visits { ledger := {} } deeds = book := rfl
  rw [hbook] at hown
  clear_value book
  exact ⟨List.nodup_nil, hgiven, hbereft, hown 1 2 hgiven hbereft⟩

/-- The second of two sites is deleted while an attempt of it is under way.  An attempt of the first
site is given the same id, and its row is finished by the attempt whose site is gone: a login that
went well is recorded as a failure. -/
theorem foreign_row_finished_by_bereft_attempt :
    let moment (second : Int) : Moment := ⟨⟨second, 0⟩, .utc, []⟩
    let bereft : Visit := ⟨2, ⟨10, 0⟩, none, .textFieldNotFound, none⟩
    let author : Visit := ⟨1, ⟨20, 0⟩, none, .success, none⟩
    let visits (k : Nat) : Visit := if k = 0 then bereft else author
    let deeds : List (Moment × Deed) := [(moment 1, .addSite .sample),
      (moment 2, .addSite .sample), (moment 10, .enter 0), (moment 15, .deleteSite 2),
      (moment 20, .enter 1), (moment 30, .finish 0), (moment 40, .finish 1)]
    let book := Logbook.run visits { ledger := {} } deeds
    book.given 0 = some 1 ∧ book.given 1 = some 1 ∧ book.author 1 = some 1 ∧
      book.ledger.history = [(author.row 1).finished ⟨30, 0⟩ bereft.finish] ∧
      author.finish.status = .success ∧ bereft.finish.status = .failed := by
  decide +kernel

end Logbook

end KeepAlive
