import KeepAlive.Feed
import KeepAlive.Json.Value

/-!
# Events as values

An event is sent as an object with its type, its site and what else belongs to it.
-/

namespace KeepAlive.Event

/-- The name of the type of an event. -/
def typeName : Event → String
  | .siteCreated _ => "site_created"
  | .sitePaused _ _ => "site_paused"
  | .siteRescheduled _ => "site_rescheduled"
  | .siteDeleted _ => "site_deleted"
  | .historyLogged _ _ => "history_logged"
  | .historyChanged _ _ => "history_changed"

/-- What belongs to an event besides its site. -/
def details : Event → List (String × Json)
  | .sitePaused _ paused => [("paused", .bool paused)]
  | .historyLogged _ historyId => [("history_id", .integer historyId)]
  | .historyChanged _ historyId => [("history_id", .integer historyId)]
  | _ => []

/-- An event as it is sent. -/
def toJson (event : Event) : Json :=
  .object (("type", .text event.typeName) :: ("site_id", .integer event.siteId) :: event.details)

end KeepAlive.Event
