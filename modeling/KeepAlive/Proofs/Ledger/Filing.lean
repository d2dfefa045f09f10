import KeepAlive.Proofs.Ledger.Recent
import KeepAlive.Proofs.Ledger.Upkeep
import KeepAlive.Proofs.Ledger.Writing

/-!
# Filed entries

Whatever a store is asked for, the entries of its history stay in the order of their ids, with codes
that are known, and each with its site.  Their times are those that the callers give, so nothing is
said about these.
-/

namespace KeepAlive

open Time

namespace Ledger

theorem pairwise_placed {ρ : Type} {id : ρ → Int} {rows : List ρ}
    (h : rows.Pairwise fun a b => id a < id b) (row : ρ) :
    (placed id row rows).Pairwise fun a b => id a < id b := by
  refine List.pairwise_append.2 ⟨h.filter _, List.pairwise_cons.2 ⟨?_, h.filter _⟩, ?_⟩
  · intro later hlater
    exact of_decide_eq_true (List.mem_filter.1 hlater).2
  · intro earlier hearlier other hother
    have hbefore : id earlier < id row := of_decide_eq_true (List.mem_filter.1 hearlier).2
    rcases List.mem_cons.1 hother with rfl | hother
    · exact hbefore
    · have hafter : id row < id other := of_decide_eq_true (List.mem_filter.1 hother).2
      exact Int.lt_trans hbefore hafter

/-- The entries are in the order of their ids, their codes are known, and each belongs to a site. -/
structure IsFiled (ledger : Ledger) : Prop where
  ordered : ledger.history.Pairwise fun a b => a.id < b.id
  coded : ∀ row ∈ ledger.history, row.IsCoded
  housed : ∀ row ∈ ledger.history, ∃ site ∈ ledger.sites, site.id = row.siteId

theorem IsFiled.empty : IsFiled {} := by
  constructor
  · exact List.Pairwise.nil
  all_goals
    intro row hmem
    exact absurd hmem List.not_mem_nil

section

variable {ledger : Ledger}

theorem IsFiled.withSites (h : ledger.IsFiled) {sites : List SiteRow}
    (hids : ledger.sites.map (·.id) ⊆ sites.map (·.id)) : IsFiled { ledger with sites } :=
  ⟨h.ordered, h.coded, fun row hmem => exists_house hids (h.housed row hmem)⟩

theorem IsFiled.withSite (h : ledger.IsFiled) (id : Int) {change : SiteRow → SiteRow}
    (hid : ∀ row, (change row).id = row.id) : (ledger.withSite id change).IsFiled := by
  apply h.withSites
  rw [map_id_changed hid]
  exact List.Subset.refl _

theorem IsFiled.withNext (h : ledger.IsFiled) (id : Int) (next : Option Instant) :
    (ledger.withNext id next).IsFiled :=
  h.withSite id fun _ => rfl

theorem IsFiled.withNewSite (h : ledger.IsFiled) (row : SiteRow) :
    IsFiled { ledger with sites := placed (·.id) row ledger.sites } :=
  h.withSites (ids_subset_placed row ledger.sites)

theorem IsFiled.withEntry (h : ledger.IsFiled) {row : HistoryRow} (hrow : row.IsCoded)
    (hhouse : ∃ site ∈ ledger.sites, site.id = row.siteId) :
    IsFiled { ledger with history := placed (·.id) row ledger.history } := by
  refine ⟨pairwise_placed h.ordered row, fun other hmem => ?_, fun other hmem => ?_⟩ <;>
    rcases mem_placed.1 hmem with rfl | ⟨hmem, -⟩
  · exact hrow
  · exact h.coded other hmem
  · exact hhouse
  · exact h.housed other hmem

theorem IsFiled.withFinished (h : ledger.IsFiled) (isMeant : HistoryRow → Prop)
    [DecidablePred isMeant] (now : Instant) (how : Finish) :
    IsFiled { ledger with
      history := ledger.history.map fun row => if isMeant row then row.finished now how else row } := by
  constructor
  · refine List.pairwise_map.2 (h.ordered.imp fun {a b} hlt => ?_)
    have hid (row : HistoryRow) : (if isMeant row then row.finished now how else row).id = row.id := by
      split <;> rfl
    rwa [hid, hid]
  all_goals
    intro row hmem
    obtain ⟨before, hbefore, rfl⟩ := List.mem_map.1 hmem
    split
  · exact before.isCoded_finished now how
  · exact h.coded before hbefore
  all_goals exact h.housed before hbefore

theorem IsFiled.withoutSite (h : ledger.IsFiled) (id : Int) :
    IsFiled
      { sites := ledger.sites.filter (·.id ≠ id)
        history := ledger.history.filter (·.siteId ≠ id) } := by
  refine ⟨h.ordered.filter _, fun row hmem => h.coded row (List.mem_filter.1 hmem).1, ?_⟩
  intro row hmem
  exact exists_house_of_deleted hmem (h.housed row (List.mem_filter.1 hmem).1)

end

end Ledger

/-- What an operation leaves of a filed history is filed. -/
theorem Operation.Leaves.isFiled {ledger after : Ledger} {moment : Moment} {operation : Operation}
    {events : List Event} (hleaves : operation.Leaves ledger moment after events)
    (h : ledger.IsFiled) : after.IsFiled := by
  induction hleaves with
  | added => exact h.withNewSite _
  | edited => exact h.withSite _ fun _ => rfl
  | replanned =>
    apply Ledger.IsFiled.withNext
    exact h.withSite _ fun _ => rfl
  | unmoved => exact h
  | switched => exact h.withSite _ fun _ => rfl
  | triggered => exact h.withNext _ _
  | rescheduled => exact h.withNext _ _
  | deleted => exact h.withoutSite _
  | entered hsite _ =>
    exact (h.withEntry (HistoryRow.isCoded_ofNew _ _ _) (Ledger.exists_row_of_site hsite)).withNext _ _
  | finished => exact (h.withFinished _ _ _).withNext _ _
  | missed => exact h
  | failed _ _ ih => exact ih
  | closed => exact h.withFinished _ _ _
  | reconciled _ _ ih => exact ih
  | recorded _ _ ih => exact ih

namespace Store

theorem isFiled_applied {store : Store} (h : store.ledger.IsFiled) (moment : Moment)
    (operation : Operation) : (operation.applied moment store).ledger.IsFiled := by
  obtain hrefused | ⟨change, hleaves, hcommit⟩ := operation.applied_leaves moment store
  · rw [hrefused]
    exact h
  · rw [hcommit]
    exact hleaves.isFiled h

/-- Whatever a new store is asked for, its rows are such as the library writes and its entries are
filed. -/
theorem isWritten_and_isFiled_run (feed : Feed) {steps : Steps}
    (hclock : ∀ step ∈ steps, step.1.now.nano < nanosPerSecond) :
    (run { feed } steps).ledger.IsWritten ∧ (run { feed } steps).ledger.IsFiled := by
  apply run_induction fun store => store.ledger.IsWritten ∧ store.ledger.IsFiled
  · rintro store ⟨hwritten, hfiled⟩ step hmem
    exact ⟨isWritten_applied hwritten (hclock step hmem) step.2, isFiled_applied hfiled step.1 step.2⟩
  · exact ⟨.empty, .empty⟩

end Store

end KeepAlive
