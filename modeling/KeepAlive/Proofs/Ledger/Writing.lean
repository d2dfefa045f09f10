import KeepAlive.Proofs.Ledger.Leaving

/-!
# Ledgers that only the library has written

Whatever the time zone and the policies are, every operation leaves a ledger such as the library
writes: a site has a next run exactly when it is not paused, and all rows can be told apart.
-/

namespace KeepAlive

open Time

namespace Ledger

variable {ledger : Ledger} {moment : Moment}

theorem IsWritten.empty : IsWritten {} :=
  ⟨List.nodup_nil, List.nodup_nil, fun _ h => absurd h List.not_mem_nil⟩

theorem IsWritten.withSite (h : ledger.IsWritten) {id : Int} {change : SiteRow → SiteRow}
    (hid : ∀ row, (change row).id = row.id)
    (hrow : ∀ row ∈ ledger.sites, row.id = id → (change row).IsWritten) :
    (ledger.withSite id change).IsWritten := by
  have hids : (ledger.withSite id change).sites.map (·.id) = ledger.sites.map (·.id) :=
    map_id_changed hid ledger.sites
  refine ⟨by rw [hids]; exact h.sites_nodup, h.history_nodup, ?_⟩
  intro row hmem
  obtain ⟨before, hbefore, rfl⟩ := List.mem_map.1 hmem
  split
  · exact hrow before hbefore ‹_›
  · exact h.rows before hbefore

theorem IsWritten.withHistory (h : ledger.IsWritten) {history : List HistoryRow}
    (hhistory : (history.map (·.id)).Nodup) : IsWritten { ledger with history } :=
  ⟨h.sites_nodup, hhistory, h.rows⟩

/-- A next run that fits the pause of its site is stored. -/
theorem IsWritten.withNext (h : ledger.IsWritten) {id : Int} {next : Option Instant}
    (hpaused : ∀ row ∈ ledger.sites, row.id = id → row.paused = .ofBool next.isNone)
    (hnext : ∀ instant, next = some instant → instant.nano < nanosPerSecond) :
    (ledger.withNext id next).IsWritten := by
  rw [withNext_eq_planned hpaused]
  exact h.withSite (fun _ => rfl) fun row hmem _ => (h.rows row hmem).planned hnext

theorem nano_drawn_lt (hnano : moment.now.nano < nanosPerSecond) {site : Site} {instant : Instant}
    (h : drawn site moment = some instant) : instant.nano < nanosPerSecond := by
  unfold drawn at h
  split at h
  · cases h
  · cases h
    exact Policy.nano_nextRunAfter_lt site.policy moment.zone hnano moment.words

/-- The next run of a site that has been read is drawn anew. -/
theorem IsWritten.drawn (h : ledger.IsWritten) (hnano : moment.now.nano < nanosPerSecond) {id : Int}
    {site : Site} (hsite : ledger.site id = .ok site) :
    (ledger.withNext id (Ledger.drawn site moment)).IsWritten := by
  refine h.withNext ?_ fun _ => nano_drawn_lt hnano
  intro row hmem hid
  rw [isNone_drawn]
  exact h.paused_of_site hsite hmem hid

/-- A site that is not paused is due at once. -/
theorem IsWritten.triggered (h : ledger.IsWritten) (hnano : moment.now.nano < nanosPerSecond)
    {id : Int} {site : Site} (hsite : ledger.site id = .ok site) (hactive : site.paused = false) :
    (ledger.withNext id (some moment.now)).IsWritten := by
  apply h.withNext
  · intro row hmem hid
    rw [h.paused_of_site hsite hmem hid, hactive]
    rfl
  · rintro _ ⟨rfl⟩
    exact hnano

theorem isWritten_triggerNow (h : ledger.IsWritten) (hnano : moment.now.nano < nanosPerSecond)
    {id : Int} {change : Change Site} (hchange : ledger.triggerNow moment id = .ok change) :
    change.ledger.IsWritten := by
  obtain ⟨site, hsite, hactive, hledger, -⟩ := triggerNow_eq_ok hchange
  rw [hledger]
  exact h.triggered hnano hsite hactive

theorem isWritten_reschedule (h : ledger.IsWritten) (hnano : moment.now.nano < nanosPerSecond)
    {id : Int} {change : Change Site} (hchange : ledger.reschedule moment id = .ok change) :
    change.ledger.IsWritten := by
  obtain ⟨site, hsite, -, hledger, -⟩ := reschedule_eq_ok hchange
  rw [hledger]
  exact h.drawn hnano hsite

theorem IsWritten.withNewSite (h : ledger.IsWritten) {row : SiteRow} (hrow : row.IsWritten) :
    IsWritten { ledger with sites := placed (·.id) row ledger.sites } := by
  constructor
  · exact nodup_placed h.sites_nodup row
  · exact h.history_nodup
  · intro other hmem
    rcases mem_placed.1 hmem with rfl | ⟨hmem, -⟩
    · exact hrow
    · exact h.rows other hmem

theorem IsWritten.withoutSite (h : ledger.IsWritten) (id : Int) :
    IsWritten
      { sites := ledger.sites.filter (·.id ≠ id)
        history := ledger.history.filter (·.siteId ≠ id) } := by
  constructor
  · exact h.sites_nodup.sublist (List.filter_sublist.map _)
  · exact h.history_nodup.sublist (List.filter_sublist.map _)
  · intro row hmem
    exact h.rows row (List.mem_filter.1 hmem).1

theorem IsWritten.withEdit (h : ledger.IsWritten) (id : Int) (site : Site) :
    (ledger.withSite id (·.withEdit site)).IsWritten := by
  apply h.withSite
  · intro row
    rfl
  · intro row hmem _
    exact (h.rows row hmem).withEdit site

theorem isWritten_failStale (h : ledger.IsWritten) (now : Instant) (message : String) :
    (ledger.failStale now message).ledger.IsWritten := by
  have hnodup : ((ledger.failStale now message).ledger.history.map (·.id)).Nodup := by
    rw [ids_failStale]
    exact h.history_nodup
  exact h.withHistory hnodup

end Ledger

/-- Every operation leaves a ledger such as the library writes. -/
theorem Operation.Leaves.isWritten {ledger after : Ledger} {moment : Moment} {operation : Operation}
    {events : List Event} (hleaves : operation.Leaves ledger moment after events)
    (h : ledger.IsWritten) (hnano : moment.now.nano < nanosPerSecond) : after.IsWritten := by
  induction hleaves with
  | added _ _ hclock => exact h.withNewSite (SiteRow.isWritten_ofNew hnano hclock)
  | edited _ _ _ => exact h.withEdit _ _
  | @replanned id edit site hsite _ _ _ =>
    refine (h.withEdit id (site.edited edit)).withNext ?_ fun _ => Ledger.nano_drawn_lt hnano
    intro row hmem hrow
    obtain ⟨old, hold : old ∈ ledger.sites, rfl⟩ := List.mem_map.1 hmem
    rw [Ledger.isNone_drawn]
    split at hrow
    · rename_i hkey
      rw [if_pos hkey]
      exact (h.paused_of_site hsite hold hkey :)
    · contradiction
  | unmoved _ => exact h
  | switched _ _ =>
    apply h.withSite
    · intro row
      rfl
    · intro row hmem _
      exact (h.rows row hmem).planned fun _ => Ledger.nano_drawn_lt hnano
  | triggered hsite hactive => exact h.triggered hnano hsite hactive
  | rescheduled hsite => exact h.drawn hnano hsite
  | deleted _ => exact h.withoutSite _
  | @entered siteId id new _ hsite _ =>
    have hentered := Ledger.nodup_placed h.history_nodup (HistoryRow.ofNew id siteId new)
    exact (h.drawn hnano hsite).withHistory hentered
  | @finished id how _ _ _ _ hsite =>
    have hids : ∀ row : HistoryRow, (row.finished moment.now how).id = row.id := fun _ => rfl
    have hfinished : ((ledger.withHistory id (·.finished moment.now how)).history.map
        (·.id)).Nodup := by
      rw [Ledger.withHistory, Ledger.map_id_changed hids]
      exact h.history_nodup
    exact (h.drawn hnano hsite).withHistory hfinished
  | missed _ => exact h
  | failed _ _ ih => exact ih
  | closed => exact Ledger.isWritten_failStale h _ _
  | reconciled _ _ ih => exact ih
  | recorded _ _ ih => exact ih

theorem Store.isWritten_applied {store : Store} (h : store.ledger.IsWritten) {moment : Moment}
    (hnano : moment.now.nano < nanosPerSecond) (operation : Operation) :
    (operation.applied moment store).ledger.IsWritten := by
  obtain hrefused | ⟨change, hleaves, hcommit⟩ := operation.applied_leaves moment store
  · rw [hrefused]
    exact h
  · rw [hcommit]
    exact hleaves.isWritten h hnano

end KeepAlive
