import KeepAlive.Proofs.Ledger.Changes
import KeepAlive.Proofs.Ledger.Rows

/-!
# Sound ledgers

In a ledger that only the library has written the ids tell the rows apart, and the rows of sites are
such as the library writes.  It is sound if, besides, every policy is at least a minute ahead.
-/

namespace KeepAlive.Ledger

open Time

/-- The rows of a ledger can be told apart, and only the library has written those of sites. -/
structure IsWritten (ledger : Ledger) : Prop where
  sites_nodup : (ledger.sites.map (·.id)).Nodup
  history_nodup : (ledger.history.map (·.id)).Nodup
  rows : ∀ row ∈ ledger.sites, row.IsWritten

/-- A ledger that only the library has written, and whose rows of sites are sound. -/
structure IsSound (ledger : Ledger) : Prop extends IsWritten ledger where
  ahead : ∀ row ∈ ledger.sites, ∀ policy, row.policy? = .ok policy →
    1 ≤ policy.fields.dateStart.toNat

theorem IsSound.row {ledger : Ledger} (h : ledger.IsSound) {row : SiteRow}
    (hmem : row ∈ ledger.sites) : row.IsSound :=
  ⟨h.rows row hmem, h.ahead row hmem⟩

theorem IsSound.of_rows {ledger : Ledger} (hsites : (ledger.sites.map (·.id)).Nodup)
    (hhistory : (ledger.history.map (·.id)).Nodup) (hrows : ∀ row ∈ ledger.sites, row.IsSound) :
    ledger.IsSound :=
  ⟨⟨hsites, hhistory, fun row hmem => (hrows row hmem).toIsWritten⟩,
    fun row hmem => (hrows row hmem).ahead⟩

theorem IsSound.empty : IsSound {} :=
  .of_rows List.nodup_nil List.nodup_nil fun _ h => absurd h List.not_mem_nil

theorem nextId_not_mem (ids : List Int) : nextId ids ∉ ids := by
  unfold nextId
  split
  · rename_i hmax
    rw [List.max?_eq_none_iff.1 hmax]
    exact List.not_mem_nil
  · rename_i largest hmax
    have hle := (List.max?_eq_some_iff.1 hmax).2
    split
    · intro hmem
      have := hle _ hmem
      omega
    · -- One more candidate than there are ids: one of them is free.
      cases hfree : ((List.range (ids.length + 1)).map fun (n : Nat) => (n : Int) + 1).find?
          fun id => !ids.contains id with
      | some id =>
        have hid := List.find?_some hfree
        simpa using hid
      | none =>
        have hsubset : ((List.range (ids.length + 1)).map fun (n : Nat) => (n : Int) + 1) ⊆ ids := by
          intro id hmem
          simpa using List.find?_eq_none.1 hfree id hmem
        have hnodup : ((List.range (ids.length + 1)).map fun (n : Nat) => (n : Int) + 1).Nodup := by
          refine List.pairwise_map.2 (List.nodup_range.imp fun hne heq => hne ?_)
          omega
        have hlength := hnodup.length_le_of_subset hsubset
        rw [List.length_map, List.length_range] at hlength
        omega

section

variable {ρ : Type} {id : ρ → Int}

theorem find?_filter_of_imp {p q : ρ → Bool} (h : ∀ row, q row = true → p row = true)
    (rows : List ρ) : (rows.filter p).find? q = rows.find? q := by
  rw [List.find?_filter]
  congr 1
  funext row
  cases hq : q row with
  | true => simp [h row hq]
  | false => simp

theorem find?_filter_of_not {p q : ρ → Bool} (h : ∀ row, q row = true → p row = false)
    (rows : List ρ) : (rows.filter p).find? q = none := by
  simp only [List.find?_eq_none, List.mem_filter]
  rintro row ⟨-, hp⟩ hq
  rw [h row hq] at hp
  cases hp

theorem find?_of_nodup {rows : List ρ} (h : (rows.map id).Nodup) {row : ρ} (hmem : row ∈ rows) :
    rows.find? (fun other => id other = id row) = some row := by
  induction rows with
  | nil => cases hmem
  | cons first rest ih =>
    obtain ⟨hfirst, hrest⟩ := List.nodup_cons.1 h
    rcases List.mem_cons.1 hmem with rfl | hmem
    · simp
    · have hne : id first ≠ id row := by
        intro heq
        exact hfirst (heq ▸ List.mem_map_of_mem hmem)
      rw [List.find?_cons_of_neg (by simpa using hne)]
      exact ih hrest hmem

theorem eq_of_nodup {rows : List ρ} (h : (rows.map id).Nodup) {row other : ρ} (hrow : row ∈ rows)
    (hother : other ∈ rows) (hid : id row = id other) : row = other := by
  have hfound := find?_of_nodup h hrow
  rw [hid, find?_of_nodup h hother] at hfound
  exact (Option.some.inj hfound).symm

theorem mem_placed {row other : ρ} {rows : List ρ} :
    other ∈ placed id row rows ↔ other = row ∨ other ∈ rows ∧ id other ≠ id row := by
  simp only [placed, List.mem_append, List.mem_filter, List.mem_cons, decide_eq_true_eq]
  constructor
  · rintro (⟨hmem, hlt⟩ | rfl | ⟨hmem, hlt⟩)
    · exact Or.inr ⟨hmem, by omega⟩
    · exact Or.inl rfl
    · exact Or.inr ⟨hmem, by omega⟩
  · rintro (rfl | ⟨hmem, hne⟩)
    · exact Or.inr (Or.inl rfl)
    · rcases Int.lt_or_gt_of_ne hne with hlt | hlt
      · exact Or.inl ⟨hmem, hlt⟩
      · exact Or.inr (Or.inr ⟨hmem, hlt⟩)

theorem nodup_placed {rows : List ρ} (h : (rows.map id).Nodup) (row : ρ) :
    ((placed id row rows).map id).Nodup := by
  have hfilter (p : ρ → Bool) : ((rows.filter p).map id).Nodup :=
    h.sublist (List.filter_sublist.map id)
  simp only [placed, List.map_append, List.map_cons]
  refine List.nodup_append.2 ⟨hfilter _, List.nodup_cons.2 ⟨?_, hfilter _⟩, ?_⟩
  · simp only [List.mem_map, List.mem_filter, decide_eq_true_eq]
    rintro ⟨after, ⟨-, hgt⟩, heq⟩
    omega
  · simp only [List.mem_map, List.mem_filter, List.mem_cons, decide_eq_true_eq]
    rintro a ⟨before, ⟨-, hlt⟩, rfl⟩ b (rfl | ⟨after, ⟨-, hgt⟩, rfl⟩)
    · omega
    · omega

theorem find?_placed_self (row : ρ) (rows : List ρ) :
    (placed id row rows).find? (fun other => id other = id row) = some row := by
  have hnone : (rows.filter fun other => id other < id row).find?
      (fun other => id other = id row) = none := by
    apply find?_filter_of_not
    simp only [decide_eq_true_eq, decide_eq_false_iff_not]
    omega
  rw [placed, List.find?_append, hnone, List.find?_cons_of_pos (by simp)]
  rfl

theorem find?_placed_of_ne {row : ρ} {key : Int} (h : key ≠ id row) (rows : List ρ) :
    (placed id row rows).find? (fun other => id other = key) =
      rows.find? (fun other => id other = key) := by
  have hcons (rest : List ρ) : (row :: rest).find? (fun other => id other = key) =
      rest.find? (fun other => id other = key) :=
    List.find?_cons_of_neg (by simpa using fun hrow => h hrow.symm)
  rw [placed, List.find?_append, hcons]
  rcases Int.lt_or_gt_of_ne h with hlt | hlt
  · rw [find?_filter_of_imp, find?_filter_of_not, Option.or_none] <;>
      simp only [decide_eq_true_eq, decide_eq_false_iff_not] <;> omega
  · rw [find?_filter_of_not, find?_filter_of_imp, Option.none_or] <;>
      simp only [decide_eq_true_eq, decide_eq_false_iff_not] <;> omega

/-- Rows that are changed one by one, but for their ids, keep their ids in order. -/
theorem map_id_map {change : ρ → ρ} (hid : ∀ row, id (change row) = id row) (rows : List ρ) :
    (rows.map change).map id = rows.map id := by
  rw [List.map_map]
  apply List.map_congr_left
  intro row _
  exact hid row

/-- Rows that are changed one by one, but for their ids, are found where they were. -/
theorem find?_map_of_id {change : ρ → ρ} (hid : ∀ row, id (change row) = id row) (rows : List ρ)
    (key : Int) :
    (rows.map change).find? (id · = key) = (rows.find? (id · = key)).map change := by
  have hsame : ((fun row : ρ => decide (id row = key)) ∘ change) =
      fun row => decide (id row = key) := by
    funext row
    simp only [Function.comp_apply, hid]
  rw [List.find?_map, hsame]

theorem map_id_changed {key : Int} {change : ρ → ρ} (hid : ∀ row, id (change row) = id row)
    (rows : List ρ) :
    (rows.map fun row => if id row = key then change row else row).map id = rows.map id := by
  apply map_id_map
  intro row
  split
  · exact hid row
  · rfl

theorem find?_changed {key : Int} {change : ρ → ρ} (hid : ∀ row, id (change row) = id row)
    (rows : List ρ) (other : Int) :
    (rows.map fun row => if id row = key then change row else row).find? (id · = other) =
      (rows.find? (id · = other)).map fun row => if id row = key then change row else row := by
  apply find?_map_of_id
  intro row
  split
  · exact hid row
  · rfl

end

theorem withSite_withSite {ledger : Ledger} {id : Int} {first second : SiteRow → SiteRow}
    (hid : ∀ row, (first row).id = row.id) :
    (ledger.withSite id first).withSite id second = ledger.withSite id (second ∘ first) := by
  simp only [withSite, List.map_map]
  congr 1
  apply List.map_congr_left
  intro row _
  by_cases h : row.id = id <;> simp [h, hid]

theorem IsSound.withSite {ledger : Ledger} (h : ledger.IsSound) {id : Int}
    {change : SiteRow → SiteRow} (hid : ∀ row, (change row).id = row.id)
    (hrow : ∀ row ∈ ledger.sites, row.id = id → (change row).IsSound) :
    (ledger.withSite id change).IsSound := by
  have hmap : (ledger.withSite id change).sites.map (·.id) = ledger.sites.map (·.id) :=
    map_id_changed hid ledger.sites
  refine .of_rows (by rw [hmap]; exact h.sites_nodup) h.history_nodup ?_
  intro row hmem
  obtain ⟨before, hbefore, rfl⟩ := List.mem_map.1 hmem
  split
  · exact hrow before hbefore ‹_›
  · exact h.row hbefore

theorem IsSound.withSites {ledger : Ledger} (h : ledger.IsSound) {sites : List SiteRow}
    (hsites : (sites.map (·.id)).Nodup) (hrows : ∀ row ∈ sites, row.IsSound) :
    IsSound { ledger with sites } :=
  .of_rows hsites h.history_nodup hrows

theorem IsSound.withHistory {ledger : Ledger} (h : ledger.IsSound) {history : List HistoryRow}
    (hhistory : (history.map (·.id)).Nodup) : IsSound { ledger with history } :=
  .of_rows h.sites_nodup hhistory fun _ => h.row

/-- An entry that is finished was open, and its site is drawn anew. -/
theorem finish_row {ledger : Ledger} {moment : Moment} {id : Int} {how : Finish} {entry : History}
    {after : Ledger} (h : ledger.finish moment id how = .ok (entry, after)) :
    ∃ row site, ledger.history.find? (·.id = id) = some row ∧ row.isOpen = true ∧
      ledger.site row.siteId = .ok site ∧
      after = (ledger.withHistory id (·.finished moment.now how)).withNext site.id
        (drawn site moment) ∧
      entry.id = id ∧ entry.siteId = row.siteId := by
  obtain ⟨current, site, hcurrent, hopen, hsite, hafter, hentry⟩ := finish_eq_ok h
  obtain ⟨row, hrow, hread⟩ := entry_eq_ok_iff.1 hcurrent
  obtain ⟨-, hsiteId, hstatus⟩ := HistoryRow.history?_eq_ok hread
  obtain ⟨found, hfound, hreadFound⟩ := entry_eq_ok_iff.1 hentry
  obtain ⟨hid, hfoundSite, -⟩ := HistoryRow.history?_eq_ok hreadFound
  have hkey : row.id = id := by simpa using List.find?_some hrow
  have hfinished : found = row.finished moment.now how := by
    have hchange : ∀ row : HistoryRow, (row.finished moment.now how).id = row.id := fun _ => rfl
    rw [hafter] at hfound
    change (ledger.withHistory id (·.finished moment.now how)).history.find? (·.id = id) = _ at hfound
    rw [withHistory, find?_changed hchange, hrow, Option.map_some, if_pos hkey] at hfound
    exact (Option.some.inj hfound).symm
  refine ⟨row, site, hrow, ?_, hsiteId ▸ hsite, hafter, ?_, ?_⟩
  · rw [HistoryRow.isOpen_eq hstatus, hopen]
    rfl
  · rw [hid, hfinished]
    exact hkey
  · rw [hfoundSite, hfinished]
    rfl

end KeepAlive.Ledger
