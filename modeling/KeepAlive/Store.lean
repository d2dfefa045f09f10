import KeepAlive.Ledger.Attempts
import KeepAlive.Ledger.Sites

/-!
# The store

A store is a ledger whose changes are announced on a feed, each one after it has been made.
-/

namespace KeepAlive

/-- A ledger with its feed. -/
structure Store where
  ledger : Ledger := {}
  feed : Feed
  deriving Repr

namespace Store

/-- Makes a change and announces it. -/
def commit {α : Type} (store : Store) (change : Change α) : Store :=
  { ledger := change.ledger, feed := store.feed.publishAll change.events }

/-- Performs an operation.  One that is refused leaves the store as it is. -/
def perform {α : Type} (store : Store) (operation : Ledger → Except Refusal (Change α)) :
    Except Refusal α × Store :=
  match operation store.ledger with
  | .error refusal => (.error refusal, store)
  | .ok change => (.ok change.result, store.commit change)

theorem perform_of_refused {α : Type} {store : Store}
    {operation : Ledger → Except Refusal (Change α)} {refusal : Refusal}
    (h : operation store.ledger = .error refusal) :
    store.perform operation = (.error refusal, store) := by
  unfold perform
  rw [h]

end Store

end KeepAlive
