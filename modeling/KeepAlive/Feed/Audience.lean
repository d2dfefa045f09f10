import KeepAlive.Feed

/-!
# The audience of a feed

Readers come and go.  One that comes gets what is announced from then on, and each has a place of its
own in the feed.
-/

namespace KeepAlive

/-- A feed with its readers in the order in which they have come; one that has left has no place. -/
structure Audience where
  feed : Feed
  places : List (Option Nat) := []
  deriving Repr

namespace Audience

/-- Announces events. -/
def publish (audience : Audience) (events : List Event) : Audience :=
  { audience with feed := audience.feed.publishAll events }

/-- A reader comes, if the feed is open. -/
def join (audience : Audience) : Audience :=
  if audience.feed.isOpen then
    { audience with places := audience.places ++ [some audience.feed.sent] }
  else audience

/-- A reader leaves. -/
def leave (audience : Audience) (reader : Nat) : Audience :=
  { audience with places := audience.places.set reader none }

/-- What a reader gets next, if it is there. -/
def read? (audience : Audience) (reader : Nat) : Option (Feed.Reading × Audience) :=
  match audience.places[reader]? with
  | some (some seen) =>
    let (reading, seen) := audience.feed.read seen
    some (reading, { audience with places := audience.places.set reader (some seen) })
  | _ => none

/-- Whoever leaves gets nothing more. -/
theorem read?_leave (audience : Audience) (reader : Nat) :
    (audience.leave reader).read? reader = none := by
  unfold read? leave
  cases h : (audience.places.set reader none)[reader]? with
  | none => rfl
  | some place =>
    have : place = none := by
      rw [List.getElem?_set_self'] at h
      cases hp : audience.places[reader]? <;> simp_all
    rw [this]

end Audience

end KeepAlive
