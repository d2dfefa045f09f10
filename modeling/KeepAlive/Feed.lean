/-!
# The feed of events

Changes of sites and of their history are announced on a feed.  It keeps the latest events; a reader
who falls too far behind is told once how many it has missed and goes on with the oldest one kept.
-/

namespace KeepAlive

/-- A change that has been made to a site or to its history. -/
inductive Event
  | siteCreated (siteId : Int)
  | sitePaused (siteId : Int) (paused : Bool)
  /-- The next run of a site that is not paused has changed. -/
  | siteRescheduled (siteId : Int)
  | siteDeleted (siteId : Int)
  | historyLogged (siteId historyId : Int)
  | historyChanged (siteId historyId : Int)
  deriving DecidableEq, Repr

/-- The site that an event is about. -/
def Event.siteId : Event → Int
  | .siteCreated siteId => siteId
  | .sitePaused siteId _ => siteId
  | .siteRescheduled siteId => siteId
  | .siteDeleted siteId => siteId
  | .historyLogged siteId _ => siteId
  | .historyChanged siteId _ => siteId

/-- A feed: how many events it keeps, how many it has had, and those it keeps, latest first. -/
structure Feed where
  capacity : Nat
  sent : Nat := 0
  kept : List Event := []
  isOpen : Bool := true
  deriving Repr

namespace Feed

/-- No memory holds more events than this. -/
def largestCapacity : Nat := 144115188075855872

/-- A feed that keeps at least so many events, the next power of two of them; none that keeps nothing
or more than there is room for. -/
def ofCapacity? (capacity : Nat) : Option Feed :=
  if 0 < capacity ∧ capacity ≤ largestCapacity then some { capacity := capacity.nextPowerOfTwo }
  else none

/-- The feed with one more event. -/
def publish (feed : Feed) (event : Event) : Feed :=
  if feed.isOpen then
    { feed with sent := feed.sent + 1, kept := (event :: feed.kept).take feed.capacity }
  else feed

/-- The feed with more events. -/
def publishAll (feed : Feed) (events : List Event) : Feed :=
  events.foldl publish feed

/-- The feed without its sender. -/
def close (feed : Feed) : Feed :=
  { feed with isOpen := false }

/-- What a reader gets. -/
inductive Reading
  | event (event : Event)
  | lagged (missed : Nat)
  | empty
  | closed
  deriving DecidableEq, Repr

/-- What a reader gets that has had the first `seen` events, and how many it has had after that. -/
def read (feed : Feed) (seen : Nat) : Reading × Nat :=
  if seen + feed.capacity < feed.sent then
    (.lagged (feed.sent - feed.capacity - seen), feed.sent - feed.capacity)
  else if seen < feed.sent then
    match feed.kept[feed.sent - 1 - seen]? with
    | some event => (.event event, seen + 1)
    | none => (.empty, seen)
  else (if feed.isOpen then .empty else .closed, seen)

end Feed

end KeepAlive
