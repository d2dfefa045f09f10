import KeepAlive.Api.Service
import KeepAlive.Proofs.Ledger.Withheld

/-!
# What the service makes of credentials

No answer of the service depends on the credentials of a site, and no request changes them.
-/

namespace KeepAlive

namespace Api

variable (moment : Moment) (pending : Slots) (request : Request)

theorem listSites_withoutCredentials (ledger : Ledger) :
    listSites ledger.withoutCredentials = listSites ledger := by
  unfold listSites
  rw [Ledger.allSites_withoutCredentials]
  cases ledger.allSites with
  | error refusal => rfl
  | ok sites =>
    have hjson : Site.toJson ∘ Site.withoutCredentials = Site.toJson :=
      funext Site.toJson_withoutCredentials
    simp only [Functor.map, Except.map, List.map_map, hjson]

theorem siteHistory_withoutCredentials (ledger : Ledger) (segment query : List Char) :
    siteHistory ledger.withoutCredentials segment query = siteHistory ledger segment query := by
  unfold siteHistory
  simp only [Ledger.site_withoutCredentials, bind_map_left]
  rfl

variable (store : Store)

theorem logManual_withoutCredentials (segment : List Char) :
    logManual moment store.withoutCredentials segment =
      ((logManual moment store segment).1,
        (logManual moment store segment).2.withoutCredentials) := by
  unfold logManual
  cases idOf? segment with
  | none => rfl
  | some id =>
    dsimp only
    rw [Store.perform_withoutCredentials (Ledger.disregards_insertHistory moment id _)]
    rcases store.perform _ with ⟨refusal | entry, after⟩ <;> rfl

theorem trigger_withoutCredentials (segment : List Char) :
    trigger moment store.withoutCredentials segment =
      ((trigger moment store segment).1, (trigger moment store segment).2.withoutCredentials) := by
  unfold trigger
  cases idOf? segment with
  | none => rfl
  | some id =>
    dsimp only
    rw [Store.perform_withoutCredentials (Ledger.disregards_triggerNow moment id)]
    rcases store.perform _ with ⟨refusal | site, after⟩ <;> rfl

theorem answer_withoutCredentials :
    answer moment pending request store.withoutCredentials =
      ((answer moment pending request store).1,
        (answer moment pending request store).2.withoutCredentials) := by
  have hsites : listSites store.withoutCredentials.ledger = listSites store.ledger :=
    listSites_withoutCredentials store.ledger
  have hhistory (segment query : List Char) :
      siteHistory store.withoutCredentials.ledger segment query =
        siteHistory store.ledger segment query :=
    siteHistory_withoutCredentials store.ledger segment query
  unfold answer
  dsimp only
  rw [hsites]
  rcases routeOf? (split request.target).1 with - | route
  · rfl
  · cases route with
    | health | check | sites | schedule => dsimp only; split <;> rfl
    | history segment =>
      dsimp only
      rw [hhistory, logManual_withoutCredentials]
      split
      · rfl
      · split <;> rfl
    | trigger segment =>
      dsimp only
      rw [trigger_withoutCredentials]
      split <;> rfl

/-- An answer does not depend on the credentials in the store, and it makes no difference to the store
afterwards whether they are taken out before or after. -/
theorem respond_withoutCredentials :
    respond moment pending request store.withoutCredentials =
      ((respond moment pending request store).1,
        (respond moment pending request store).2.withoutCredentials) := by
  unfold respond
  rw [answer_withoutCredentials]

/-- Over stores that are the same but for credentials a request is answered the same, and leaves them
so. -/
theorem respond_of_same {store other : Store}
    (h : store.withoutCredentials = other.withoutCredentials) :
    (respond moment pending request store).1 = (respond moment pending request other).1 ∧
      (respond moment pending request store).2.withoutCredentials =
        (respond moment pending request other).2.withoutCredentials := by
  have hstore := respond_withoutCredentials moment pending request store
  rw [h, respond_withoutCredentials, Prod.mk.injEq] at hstore
  exact ⟨hstore.1.symm, hstore.2.symm⟩

end Api

end KeepAlive
