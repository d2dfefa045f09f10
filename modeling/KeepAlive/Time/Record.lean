import KeepAlive.Json.Value
import KeepAlive.Time.Stamp

/-!
# Instants as values

An instant is sent as a time stamp in UTC with the fraction of the second that it takes.
-/

namespace KeepAlive.Time

/-- An instant as it is sent. -/
def Instant.toJson (instant : Instant) : Json :=
  .text (fullText "Z" instant)

end KeepAlive.Time
