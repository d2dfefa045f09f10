import KeepAlive.Proofs.Feed.Unread
import KeepAlive.Proofs.Ledger.Operation

/-!
# Announced changes

A store is sound when its ledger is, its feed is whole, and no site has a plan whose latest event says
that it was withdrawn.  Every store that comes about by operations is sound.  A reader of its feed who
has to be told of nothing about a site has missed no change of the plan of that site.
-/

namespace KeepAlive

namespace Store

/-- The ledger is sound, the feed whole, and a withdrawal that is announced last still holds. -/
structure IsSound (store : Store) : Prop where
  ledger : store.ledger.IsSound
  feed : store.feed.IsWhole
  withdrawn : ∀ siteId event, store.feed.kept.find? (·.siteId = siteId) = some event →
    event.IsWithdrawal → store.ledger.plan siteId = none

theorem IsSound.new {capacity : Nat} (h : 0 < capacity) : IsSound { feed := { capacity } } :=
  ⟨.empty, .new h, fun _ _ h => absurd h (Option.some_ne_none _).symm⟩

/-- A site has been planned anew, and every reader of the feed will be told of it. -/
def Replans (store : Store) (moment : Moment) (changed : Store) (siteId : Int) : Prop :=
  changed.ledger.IsPlannedAt moment siteId ∧
    ∀ seen, seen ≤ store.feed.sent → changed.feed.Awaits seen siteId

theorem IsSound.plan_commit {store : Store} (h : store.IsSound) {α : Type} {moment : Moment}
    {change : Change α} (htracks : store.ledger.Tracks moment change) (siteId : Int) :
    (store.commit change).ledger.plan siteId = store.ledger.plan siteId ∨
      store.Replans moment (store.commit change) siteId := by
  rcases htracks.plan siteId with hplan | ⟨hplanned, hevent⟩
  · exact Or.inl hplan
  · exact Or.inr ⟨hplanned, fun _ hseen => h.feed.awaits_publishAll hseen (Or.inl hevent)⟩

theorem IsSound.commit {store : Store} (h : store.IsSound) {α : Type} {moment : Moment}
    {change : Change α} (htracks : store.ledger.Tracks moment change) :
    (store.commit change).IsSound := by
  refine ⟨htracks.isSound, h.feed.publishAll change.events, ?_⟩
  intro siteId event hevent hwithdrawal
  have hsite : event.siteId = siteId := by simpa using List.find?_some hevent
  rcases h.feed.find?_kept_publishAll hevent with hmem | ⟨hothers, hkept⟩
  · rw [← hsite]
    exact htracks.withdrawn event hmem hwithdrawal
  · rcases htracks.plan siteId with hplan | ⟨-, other, hother, hsame⟩
    · exact hplan.trans (h.withdrawn siteId event hkept hwithdrawal)
    · exact absurd hsame (hothers other hother)

theorem IsSound.awaits_commit {store : Store} (h : store.IsSound) {α : Type} (change : Change α)
    {seen : Nat} (hseen : seen ≤ store.feed.sent) {siteId : Int}
    (hawaits : store.feed.Awaits seen siteId) : (store.commit change).feed.Awaits seen siteId :=
  h.feed.awaits_publishAll hseen (Or.inr hawaits)

theorem perform_of_ok {store : Store} {α : Type}
    {operation : Ledger → Except Refusal (Change α)} {change : Change α}
    (h : operation store.ledger = .ok change) :
    store.perform operation = (.ok change.result, store.commit change) := by
  unfold perform
  rw [h]

theorem isWhole_applied {store : Store} (h : store.feed.IsWhole) (operation : Operation)
    (moment : Moment) : (operation.applied moment store).feed.IsWhole ∧
      store.feed.sent ≤ (operation.applied moment store).feed.sent := by
  unfold Operation.applied
  cases hchange : operation.change moment store.ledger with
  | error refusal =>
    rw [perform_of_refused hchange]
    exact ⟨h, Nat.le_refl _⟩
  | ok change =>
    rw [perform_of_ok hchange]
    exact ⟨h.publishAll change.events, h.sent_le_publishAll change.events⟩

/-- The stores that come about when a new store undergoes operations one after the other, at moments
in a zone of one offset, with policies that are at least a minute ahead. -/
inductive Arises (offset : Int) : Store → Prop
  | new {capacity : Nat} (hcapacity : 0 < capacity) : Arises offset { feed := { capacity } }
  | applied {store : Store} (h : Arises offset store) (operation : Operation)
      (hahead : operation.IsAhead) (moment : Moment) (hat : moment.IsAt offset) :
      Arises offset (operation.applied moment store)

/-- An operation that is applied is refused, or it takes place as a change that is announced. -/
theorem applied_cases {store : Store} (h : store.IsSound) {offset : Int} {moment : Moment}
    (hat : moment.IsAt offset) {operation : Operation} (hahead : operation.IsAhead) :
    operation.applied moment store = store ∨
      ∃ change : Change Unit, store.ledger.Tracks moment change ∧
        operation.applied moment store = store.commit change := by
  unfold Operation.applied
  cases hchange : operation.change moment store.ledger with
  | error refusal =>
    rw [perform_of_refused hchange]
    exact Or.inl rfl
  | ok change =>
    rw [perform_of_ok hchange]
    exact Or.inr ⟨change, Operation.tracks h.ledger hat hahead hchange, rfl⟩

theorem Arises.isSound {offset : Int} {store : Store} (h : Arises offset store) :
    store.IsSound := by
  induction h with
  | new hcapacity => exact .new hcapacity
  | applied _ operation hahead moment hat ih =>
    rcases applied_cases ih hat hahead with hsame | ⟨change, htracks, hcommit⟩
    · rw [hsame]
      exact ih
    · rw [hcommit]
      exact ih.commit htracks

end Store

end KeepAlive
