import KeepAlive.Api.Body
import KeepAlive.Jobs.Table
import KeepAlive.Store

/-!
# The service

The service answers requests about sites, their history and the jobs that wait.  What it sends of a
site leaves its credentials out.
-/

namespace KeepAlive.Api

open Time

/-- What is sent back. -/
inductive Content
  | json (value : Json)
  | plain (text : String)
  /-- The wording of a rejection is left to whoever sends it. -/
  | rejection
  deriving Repr

/-- An answer to a request. -/
structure Response where
  status : Nat
  content : Content
  deriving Repr

/-- The version of the service. -/
def version : String := "0.1.0"

/-- What a refusal is called in answers: its status and its code. -/
def refusalCode : Refusal → Nat × String
  | .siteNotFound _ | .historyNotFound _ => (404, "NOT_FOUND")
  | .paused _ | .alreadyFinished _ => (409, "CONFLICT")
  | .invalidScript _ => (400, "VALIDATION_ERROR")
  | .unreadable _ => (500, "INTERNAL_ERROR")

/-- The sentence for a refusal in answers: nothing is told about faults of the ledger. -/
def refusalMessage : Refusal → String
  | .unreadable _ => "An internal error occurred"
  | refusal => refusal.message

namespace Response

/-- An answer with data. -/
def ofData (status : Nat) (data : Json) : Response :=
  ⟨status, .json (.object [("data", data)])⟩

/-- An answer with a list of items and their number. -/
def ofItems (items : List Json) : Response :=
  ⟨200, .json (.object [
    ("data", .array items), ("meta", .object [("total", .nat items.length)])])⟩

/-- The answer to a request that is refused. -/
def ofRefusal (refusal : Refusal) : Response :=
  let (status, code) := refusalCode refusal
  ⟨status, .json (.object [
    ("error", .text (refusalMessage refusal)), ("code", .text code)])⟩

/-- An answer without content of its own. -/
def rejected (status : Nat) : Response :=
  ⟨status, .rejection⟩

/-- The answer with its content kept back. -/
def withoutContent (response : Response) : Response :=
  { response with content := .plain "" }

/-- The answer to a request for something that there is not. -/
def notFound : Response :=
  ⟨404, .plain "not found"⟩

end Response

/-- What can be asked for. -/
inductive Route
  | health
  | check
  | sites
  | history (site : List Char)
  | trigger (site : List Char)
  | schedule
  deriving DecidableEq, Repr

/-- The route that a path leads to. -/
def routeOf? (path : List Char) : Option Route :=
  match (Text.parts (· = '/') path).map String.ofList with
  | ["", "api", "v1", "health"] => some .health
  | ["", "api", "v1", "script", "check"] => some .check
  | ["", "api", "v1", "sites"] => some .sites
  | ["", "api", "v1", "sites", site, "history"] => some (.history site.toList)
  | ["", "api", "v1", "sites", site, "trigger"] => some (.trigger site.toList)
  | ["", "api", "v1", "schedule"] => some .schedule
  | _ => none

/-- A waiting job as it is sent. -/
def jobJson (site : Int) (due : Instant) : Json :=
  .object [("site_id", .integer site), ("fire_at", due.toJson)]

/-- The state of the service. -/
def health (now : Instant) : Response :=
  ⟨200, .json (.object [
    ("data", .object [("status", .text "ok"), ("version", .text version)]),
    ("meta", .object [
      ("timestamp", .text (fullText "+00:00" now)), ("version", .text version)])])⟩

/-- Checks a script. -/
def check (request : Request) : Response :=
  match scriptOf request with
  | .error .unsupported => .rejected 415
  | .error .malformed => .rejected 400
  | .error .misshapen => .rejected 422
  | .ok script =>
    let problem := Script.check script
    .ofData 200 (.object [("valid", .bool problem.isNone), ("error", .ofText? problem)])

/-- The number of entries that are sent unless the query says otherwise. -/
def defaultLimit : Nat := 50

/-- All sites. -/
def listSites (ledger : Ledger) : Response :=
  match ledger.allSites with
  | .error refusal => .ofRefusal refusal
  | .ok sites => .ofItems (sites.map Site.toJson)

/-- The history of a site. -/
def siteHistory (ledger : Ledger) (segment query : List Char) : Response :=
  match idOf? segment, limitOf? query with
  | some id, some limit =>
    match ledger.site id >>= fun site => ledger.historyOf site.id (limit.getD defaultLimit) with
    | .error refusal => .ofRefusal refusal
    | .ok entries => .ofItems (entries.map History.toJson)
  | _, _ => .rejected 400

/-- Notes a login by hand. -/
def logManual (moment : Moment) (store : Store) (segment : List Char) : Response × Store :=
  match idOf? segment with
  | none => (.rejected 400, store)
  | some id =>
    match store.perform (·.insertHistory moment id (.manual moment.now)) with
    | (.error refusal, store) => (.ofRefusal refusal, store)
    | (.ok entry, store) => (.ofData 201 entry.toJson, store)

/-- Makes a site due at once. -/
def trigger (moment : Moment) (store : Store) (segment : List Char) : Response × Store :=
  match idOf? segment with
  | none => (.rejected 400, store)
  | some id =>
    match store.perform (·.triggerNow moment id) with
    | (.error refusal, store) => (.ofRefusal refusal, store)
    | (.ok site, store) => (.ofData 202 site.toJson, store)

/-- Whether a method asks to read something. -/
def isReading (method : String) : Bool :=
  method = "GET" || method = "HEAD"

/-- Answers a request, given the jobs that wait. -/
def answer (moment : Moment) (pending : Slots) (request : Request) (store : Store) :
    Response × Store :=
  let (path, query) := split request.target
  let wrongMethod : Response × Store := (.rejected 405, store)
  match routeOf? path with
  | none => (.notFound, store)
  | some .health => if isReading request.method then (health moment.now, store) else wrongMethod
  | some .check => if request.method = "POST" then (check request, store) else wrongMethod
  | some .sites => if isReading request.method then (listSites store.ledger, store) else wrongMethod
  | some (.history site) =>
    if isReading request.method then (siteHistory store.ledger site query, store)
    else if request.method = "POST" then logManual moment store site
    else wrongMethod
  | some (.trigger site) =>
    if request.method = "POST" then trigger moment store site else wrongMethod
  | some .schedule =>
    if isReading request.method then
      (.ofItems (pending.map fun (site, due) => jobJson site due), store)
    else wrongMethod

/-- Answers a request; one that asks for the head of an answer gets no content. -/
def respond (moment : Moment) (pending : Slots) (request : Request) (store : Store) :
    Response × Store :=
  let (response, after) := answer moment pending request store
  (if request.method = "HEAD" then response.withoutContent else response, after)

end KeepAlive.Api
