import KeepAlive.Browser.Wire

/-!
# Prepared replies

The other end of a wire that answers with prepared replies in order, and with an error when there is
none left.  It keeps the requests.
-/

namespace KeepAlive.Browser.Wire

/-- Prepared replies at an address, and the requests that have come, latest first. -/
structure Playback where
  host : String
  replies : List Reply
  requests : List (Method × String × Option Json) := []

namespace Playback

/-- The reply when there is none left. -/
def exhausted : Reply :=
  .answered 500 (Json.object [("value",
    .object [("error", .text "exhausted"), ("message", .text "no reply left")])]).compact

/-- Takes a request, if it is for this address, and answers it. -/
def handle : Peer Playback := fun request playback =>
  match (Text.dropLead? playback.host.toList request.address.toList).bind fun rest =>
      target? (String.ofList rest) with
  | none => (.closed, playback)
  | some target =>
    (playback.replies.headD exhausted,
      { playback with
        replies := playback.replies.tail
        requests := (request.method, target, request.value) :: playback.requests })

end Playback

end KeepAlive.Browser.Wire
