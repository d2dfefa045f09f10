import KeepAlive.Proofs.Engine.Course
import KeepAlive.Proofs.Ledger.Redrawing

/-!
# Orders that a ledger asks for

A ledger asks for each site that its job be installed at its plan, or removed if it has none.  The
follower's orders, be they about one site or about all of them, are the ones that the ledger asks for.
Of several orders on their way about a site only the last one counts.
-/

namespace KeepAlive

open Time

/-- The site that an order is about. -/
def Order.siteId? : Order → Option Int
  | .install siteId _ => some siteId
  | .remove siteId => some siteId
  | .report => none

/-- The last of some orders that is about a site. -/
def lastAbout (orders : List Order) (siteId : Int) : Option Order :=
  orders.reverse.find? (·.siteId? = some siteId)

theorem lastAbout_append (orders more : List Order) (siteId : Int) :
    lastAbout (orders ++ more) siteId =
      (lastAbout more siteId).or (lastAbout orders siteId) := by
  rw [lastAbout, List.reverse_append, List.find?_append]
  rfl

theorem lastAbout_cons (order : Order) (rest : List Order) (siteId : Int) :
    lastAbout (order :: rest) siteId =
      (lastAbout rest siteId).or (lastAbout [order] siteId) :=
  lastAbout_append [order] rest siteId

theorem lastAbout_singleton (order : Order) (siteId : Int) :
    lastAbout [order] siteId = if order.siteId? = some siteId then some order else none := by
  by_cases h : order.siteId? = some siteId <;> simp [lastAbout, h]

theorem lastAbout_eq_none_iff {orders : List Order} {siteId : Int} :
    lastAbout orders siteId = none ↔ ∀ order ∈ orders, order.siteId? ≠ some siteId := by
  simp [lastAbout]

/-- With one order about a site at most, that one is the last. -/
theorem lastAbout_eq_some {orders : List Order} {siteId : Int} {order : Order}
    (hmem : order ∈ orders) (hsite : order.siteId? = some siteId)
    (hunique : ∀ other ∈ orders, other.siteId? = some siteId → other = order) :
    lastAbout orders siteId = some order := by
  cases hlast : lastAbout orders siteId with
  | none => exact absurd hsite (lastAbout_eq_none_iff.1 hlast order hmem)
  | some last =>
    have hsome := List.find?_some hlast
    have hlastMem := List.mem_reverse.1 (List.mem_of_find?_eq_some hlast)
    rw [hunique last hlastMem (by simpa using hsome)]

namespace Ledger

/-- The order about a site that a ledger asks for: its job at its plan, or none without a plan. -/
def Asks (ledger : Ledger) (siteId : Int) (order : Order) : Prop :=
  (ledger.plan siteId = none ∧ order = .remove siteId) ∨
    ∃ text next, ledger.plan siteId = some text ∧ storedInstant? 13 text = .ok next ∧
      order = .install siteId next

theorem Asks.siteId?_eq {ledger : Ledger} {siteId : Int} {order : Order}
    (h : ledger.Asks siteId order) : order.siteId? = some siteId := by
  rcases h with ⟨-, rfl⟩ | ⟨text, next, -, -, rfl⟩ <;> rfl

theorem Asks.of_plan_eq {ledger other : Ledger} {siteId : Int} {order : Order}
    (h : ledger.Asks siteId order) (hplan : other.plan siteId = ledger.plan siteId) :
    other.Asks siteId order := by
  unfold Asks
  rw [hplan]
  exact h

theorem asks_remove {ledger : Ledger} {siteId : Int} (h : ledger.plan siteId = none) :
    ledger.Asks siteId (.remove siteId) :=
  Or.inl ⟨h, rfl⟩

/-- The order for a site that is read is the one that the ledger asks for. -/
theorem IsWritten.asks_orderFor {ledger : Ledger} (h : ledger.IsWritten) {siteId : Int} {site : Site}
    (hsite : ledger.site siteId = .ok site) :
    ∃ order, Engine.orderFor site = some order ∧ ledger.Asks siteId order := by
  obtain ⟨hid, row, hrow, -, hread⟩ := h.of_site hsite
  have hnone := h.isNone_plan hsite
  obtain ⟨-, -, hnext, -⟩ := SiteRow.site?_eq_ok hread
  have hplan : ledger.plan siteId = row.next := by rw [plan, hrow]; rfl
  unfold Engine.orderFor
  cases hpaused : site.paused with
  | true =>
    rw [hpaused, Option.isNone_iff_eq_none] at hnone
    exact ⟨_, rfl, hid ▸ asks_remove (hid ▸ hnone)⟩
  | false =>
    rw [hpaused, hplan] at hnone
    obtain ⟨text, htext⟩ := Option.isSome_iff_exists.1 (Option.isNone_eq_false_iff.1 hnone)
    rw [htext] at hnext hplan
    unfold storedInstantOrNone? at hnext
    cases hstored : storedInstant? 13 text with
    | error unreadable => simp [hstored, Except.map] at hnext
    | ok next =>
      simp only [hstored, Except.map, Except.ok.injEq] at hnext
      rw [← hnext]
      exact ⟨_, rfl, Or.inr ⟨text, next, hplan, hstored, by rw [hid]⟩⟩

theorem IsWritten.asks_syncOrder {ledger : Ledger} (h : ledger.IsWritten) {siteId : Int}
    (hreads : IsReadable (ledger.site siteId)) :
    ∃ order, Engine.syncOrder ledger siteId = some order ∧ ledger.Asks siteId order := by
  unfold Engine.syncOrder
  cases hsite : ledger.site siteId with
  | ok site => exact h.asks_orderFor hsite
  | error refusal =>
    rcases site_eq_error hsite with ⟨rfl, hnone⟩ | ⟨cause, rfl⟩
    · exact ⟨_, rfl, asks_remove (plan_eq_none_of_find? hnone)⟩
    · exact absurd hsite (hreads cause)

/-- The order that follows from an event removes a site that is withdrawn, and is else the one that
the ledger asks for. -/
theorem IsWritten.asks_orderAfter {ledger : Ledger} (h : ledger.IsWritten) {event : Event}
    (hreads : event.IsWithdrawal ∨ IsReadable (ledger.site event.siteId)) :
    (event.IsWithdrawal ∧ Engine.orderAfter ledger event = some (.remove event.siteId)) ∨
      ∃ order, Engine.orderAfter ledger event = some order ∧
        ledger.Asks event.siteId order := by
  by_cases hwithdrawal : event.IsWithdrawal
  · left
    refine ⟨hwithdrawal, ?_⟩
    cases event with
    | siteDeleted siteId => rfl
    | sitePaused siteId paused =>
      cases hwithdrawal
      rfl
    | _ => exact hwithdrawal.elim
  · right
    obtain ⟨order, horder, hasks⟩ := h.asks_syncOrder (hreads.resolve_left hwithdrawal)
    refine ⟨order, ?_, hasks⟩
    rw [← horder]
    cases event with
    | siteDeleted siteId => exact absurd trivial hwithdrawal
    | sitePaused siteId paused =>
      cases paused with
      | true => exact absurd rfl hwithdrawal
      | false => rfl
    | _ => rfl

theorem allSites_eq_error {ledger : Ledger} {refusal : Refusal}
    (h : ledger.allSites = .error refusal) : ∃ cause, refusal = .unreadable cause := by
  unfold allSites at h
  cases hread : ledger.sites.mapM SiteRow.site? with
  | ok sites =>
    rw [hread] at h
    cases h
  | error cause =>
    rw [hread] at h
    cases h
    exact ⟨cause, rfl⟩

/-- All sites, when they can be read, are the sites that can be read one by one. -/
theorem IsWritten.mem_allSites_iff {ledger : Ledger} (h : ledger.IsWritten) {sites : List Site}
    (hall : ledger.allSites = .ok sites) (site : Site) :
    site ∈ sites ↔ ledger.site site.id = .ok site := by
  have hread := mapM_eq_ok (mapError_unreadable_eq_ok.1 hall) site
  rw [hread, site_eq_ok_iff]
  constructor
  · rintro ⟨row, hmem, hrow⟩
    obtain ⟨hid, -⟩ := SiteRow.site?_eq_ok hrow
    rw [hid]
    exact ⟨row, find?_of_nodup h.sites_nodup hmem, hrow⟩
  · rintro ⟨row, hfound, hrow⟩
    exact ⟨row, List.mem_of_find?_eq_some hfound, hrow⟩

theorem IsWritten.nodup_allSites {ledger : Ledger} (h : ledger.IsWritten) {sites : List Site}
    (hall : ledger.allSites = .ok sites) : (sites.map (·.id)).Nodup := by
  have hids : sites.map (·.id) = ledger.sites.map (·.id) :=
    mapM_map_eq (fun _ _ hread => (SiteRow.site?_eq_ok hread).1)
      (mapError_unreadable_eq_ok.1 hall)
  rw [hids]
  exact h.sites_nodup

/-- What is known of a site from a look at all sites is the order that the ledger asks for. -/
def Records (ledger : Ledger) (sites : List Site) (siteId : Int) : Prop :=
  ∃ order, ledger.Asks siteId order ∧
    ((∃ site ∈ sites, site.id = siteId ∧ Engine.orderFor site = some order) ∨
      ((∀ site ∈ sites, site.id ≠ siteId) ∧ order = .remove siteId))

theorem IsWritten.records_allSites {ledger : Ledger} (h : ledger.IsWritten) {sites : List Site}
    (hall : ledger.allSites = .ok sites) (siteId : Int) : ledger.Records sites siteId := by
  cases hrow : ledger.sites.find? (·.id = siteId) with
  | none =>
    refine ⟨_, asks_remove (plan_eq_none_of_find? hrow), Or.inr ⟨?_, rfl⟩⟩
    rintro site hmem rfl
    obtain ⟨row, hfound, -⟩ := site_eq_ok_iff.1 ((h.mem_allSites_iff hall site).1 hmem)
    rw [hrow] at hfound
    cases hfound
  | some row =>
    obtain ⟨site, hread⟩ := isReadable_of_mapM_eq_ok (mapError_unreadable_eq_ok.1 hall)
      (List.mem_of_find?_eq_some hrow)
    have hsite : ledger.site siteId = .ok site := site_eq_ok_iff.2 ⟨row, hrow, hread⟩
    obtain ⟨hid, -⟩ := h.of_site hsite
    obtain ⟨order, horder, hasks⟩ := h.asks_orderFor hsite
    exact ⟨order, hasks, Or.inl ⟨site, (h.mem_allSites_iff hall site).2 (hid ▸ hsite), hid, horder⟩⟩

theorem Records.of_plan_eq {ledger other : Ledger} {sites : List Site} {siteId : Int}
    (h : ledger.Records sites siteId) (hplan : other.plan siteId = ledger.plan siteId) :
    other.Records sites siteId := by
  obtain ⟨order, hasks, hrecord⟩ := h
  exact ⟨order, hasks.of_plan_eq hplan, hrecord⟩

end Ledger

namespace Engine

theorem siteId?_orderFor {site : Site} {order : Order} (h : orderFor site = some order) :
    order.siteId? = some site.id := by
  unfold orderFor at h
  split at h
  · cases h
    rfl
  · obtain ⟨next, -, rfl⟩ := Option.map_eq_some_iff.1 h
    rfl

theorem mem_resyncOrders {sites : List Site} {waiting : Slots} {order : Order} :
    order ∈ resyncOrders sites waiting ↔
      (∃ slot ∈ waiting, (∀ site ∈ sites, site.id ≠ slot.1) ∧ order = .remove slot.1) ∨
        ∃ site ∈ sites, orderFor site = some order := by
  simp only [resyncOrders, List.mem_append, List.mem_map, List.mem_filter, List.mem_filterMap]
  constructor
  · rintro (⟨slot, ⟨hmem, hgone⟩, rfl⟩ | hsite)
    · refine Or.inl ⟨slot, hmem, ?_, rfl⟩
      simpa using hgone
    · exact Or.inr hsite
  · rintro (⟨slot, hmem, hgone, rfl⟩ | hsite)
    · exact Or.inl ⟨slot, ⟨hmem, by simpa using hgone⟩, rfl⟩
    · exact Or.inr hsite

theorem report_not_mem_resyncOrders (sites : List Site) (waiting : Slots) :
    Order.report ∉ resyncOrders sites waiting := by
  intro hmem
  rcases mem_resyncOrders.1 hmem with ⟨slot, -, -, horder⟩ | ⟨site, -, horder⟩
  · cases horder
  · cases siteId?_orderFor horder

/-- The last order about a site that was recorded is the recorded one. -/
theorem lastAbout_resyncOrders_of_mem {sites : List Site} (hnodup : (sites.map (·.id)).Nodup)
    (waiting : Slots) {site : Site} (hsite : site ∈ sites) {order : Order}
    (horder : orderFor site = some order) :
    lastAbout (resyncOrders sites waiting) site.id = some order := by
  refine lastAbout_eq_some (mem_resyncOrders.2 (Or.inr ⟨site, hsite, horder⟩))
    (siteId?_orderFor horder) ?_
  intro other hother hid
  rcases mem_resyncOrders.1 hother with ⟨slot, -, hgone, rfl⟩ | ⟨found, hfound, hothers⟩
  · exact absurd (Option.some.inj hid).symm (hgone site hsite)
  · have hsame : found.id = site.id := by
      rw [siteId?_orderFor hothers] at hid
      exact Option.some.inj hid
    have heq : found = site := Ledger.eq_of_nodup hnodup hfound hsite hsame
    rw [heq, horder] at hothers
    exact (Option.some.inj hothers).symm

/-- About a site that is gone the last order removes it, if it is among the waiting ones. -/
theorem lastAbout_resyncOrders_of_gone {sites : List Site} {waiting : Slots} {siteId : Int}
    (hgone : ∀ site ∈ sites, site.id ≠ siteId) :
    lastAbout (resyncOrders sites waiting) siteId =
      if ∃ slot ∈ waiting, slot.1 = siteId then some (.remove siteId) else none := by
  split
  · rename_i hwaiting
    obtain ⟨slot, hslot, rfl⟩ := hwaiting
    refine lastAbout_eq_some (mem_resyncOrders.2 (Or.inl ⟨slot, hslot, hgone, rfl⟩)) rfl ?_
    intro other hother hid
    rcases mem_resyncOrders.1 hother with ⟨found, -, -, rfl⟩ | ⟨site, hsite, horder⟩
    · rw [Option.some.inj hid]
    · rw [siteId?_orderFor horder] at hid
      exact absurd (Option.some.inj hid) (hgone site hsite)
  · rename_i hwaiting
    refine lastAbout_eq_none_iff.2 ?_
    intro order horder hid
    rcases mem_resyncOrders.1 horder with ⟨slot, hslot, -, rfl⟩ | ⟨site, hsite, horder⟩
    · exact hwaiting ⟨slot, hslot, Option.some.inj hid⟩
    · rw [siteId?_orderFor horder] at hid
      exact hgone site hsite (Option.some.inj hid)

end Engine

end KeepAlive
