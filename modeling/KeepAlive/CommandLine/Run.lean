import KeepAlive.Api.Service
import KeepAlive.Browser.Page
import KeepAlive.CommandLine.BindAddress
import KeepAlive.CommandLine.Command
import KeepAlive.CommandLine.Table
import KeepAlive.Config.File
import KeepAlive.Engine.Recovery
import KeepAlive.Form.Find
import KeepAlive.Json.Writer
import KeepAlive.Script.Parse

/-!
# Running commands

A command is run with what it finds on its host: files, variables, the ledgers in the databases and
the moment.  It ends with a code, with what it prints and perhaps with a complaint and a changed
ledger.
-/

namespace KeepAlive.CommandLine

open Browser Time

/-- What a command finds. -/
structure Host where
  /-- The text in the file at a path, if it can be read. -/
  file : String → Option String
  /-- The value of a variable. -/
  environment : String → Option String
  /-- The ledger in the database at a path. -/
  ledger : String → Ledger
  moment : Moment

/-- How a command ends. -/
structure Exit where
  code : Nat := 0
  output : String := ""
  /-- Why the command has failed. -/
  complaint : Option String := none
  /-- The database that was opened, with the ledger after the command. -/
  ledger : Option (String × Ledger) := none
  /-- The address at which the command would go on to listen. -/
  listens : Option String := none

namespace Exit

/-- The end with some lines printed. -/
def printed (lines : List String) : Exit :=
  { output := String.join (lines.map (· ++ "\n")) }

/-- The end with a complaint. -/
def failed (complaint : String) : Exit :=
  { code := 1, complaint := some complaint }

/-- The end of a command line that makes no sense. -/
def misused : Exit :=
  { code := 2 }

/-- The end of a command that breaks down. -/
def brokenDown : Exit :=
  { code := 101 }

/-- The end that a result leads to. -/
def ofResult : Except String (List String) → Exit
  | .ok lines => printed lines
  | .error complaint => failed complaint

end Exit

/-- The name of the program and its version. -/
def versionText : String := "sessionkeeper " ++ Api.version

/-- The lines that say what can be asked for. -/
def helpLines : List String :=
  ["Usage: sessionkeeper [--config FILE] [--db FILE] COMMAND", "",
    "Commands: " ++ ", ".intercalate (topLevel.commands.map (·.1)),
    "Commands for sites: " ++ ", ".intercalate siteCommandNames]

/-- The variable that holds the password of a site that is added without one. -/
def passwordVariable : String := "SESSIONKEEPER_PASSWORD"

/-- The text of a file, which has to be there. -/
def Host.text (host : Host) (path : String) : Except String String :=
  match host.file path with
  | some content => .ok content
  | none => .error ("Failed to read " ++ path)

/-! ## Scripts and forms -/

/-- Says whether a script parses. -/
def checkScript (host : Host) (path : String) : Except String (List String) := do
  match Script.check (← host.text path) with
  | none => return [path ++ ": OK"]
  | some diagnostic => throw (path ++ ": " ++ diagnostic)

/-- How a field is called. -/
def fieldTitle : Field → String
  | .username => "username"
  | .password => "password"
  | .submitButton => "submit button"

/-- The line that says where a field is. -/
def fieldLine (found : Locators) (field : Field) : String :=
  Text.padRight 14 (fieldTitle field) ++ " " ++
    match found.get field with
    | some locator => locator
    | none => "not found (" ++ field.notFound.code ++ ")"

/-- The line of a candidate. -/
def candidateLine (candidate : Form.Candidate) : String :=
  "  " ++ Text.padLeft 4 (toString candidate.score) ++ "  " ++ candidate.place.absolutePath ++
    "  [" ++ ", ".intercalate candidate.evidence ++ "]"

/-- The lines about the candidates for a field. -/
def candidateLines (document : Markup.Document) (field : Field) : List String :=
  "" :: (fieldTitle field ++ " candidates:") :: (Form.rank document field).map candidateLine

/-- Says where the fields of a form are. -/
def findForm (host : Host) (path : String) (withCandidates : Bool) :
    Except String (List String) := do
  let markup ← host.text path
  let page : Page := { fixture := { pages := [("", markup)] } }
  match (Form.find.caught.run Page.handle (page.navigate ("file://" ++ path)) 0).1 with
  | .error (.refused refusal) => throw refusal.message
  | .error (.crashed reason) => throw reason
  | .ok found =>
    let document := Markup.Document.parse markup
    return Field.all.map (fieldLine found) ++
      if withCandidates then Field.all.flatMap (candidateLines document) else []

/-! ## Sites -/

/-- Work on a ledger that may fail. -/
abbrev LedgerWork : Type → Type :=
  ExceptT String (StateM Ledger)

/-- Performs an operation on the ledger. -/
def operate {α : Type} (operation : Ledger → Except Refusal (Change α)) : LedgerWork α := do
  match operation (← get) with
  | .error refusal => throw refusal.message
  | .ok change =>
    set change.ledger
    return change.result

/-- Looks something up in the ledger. -/
def look {α : Type} (find : Ledger → Except Refusal α) : LedgerWork α := do
  match find (← get) with
  | .error refusal => throw refusal.message
  | .ok found => return found

/-- An instant as it is shown. -/
def stampText (instant : Instant) : String :=
  fullText "+00:00" instant

/-- The next run of a site as it is shown. -/
def nextLogin (site : Site) : String :=
  (site.next.map stampText).getD "-"

/-- The columns of the table of sites. -/
def siteColumns : List Column :=
  [⟨"ID", 4, true⟩, ⟨"Name", 20, true⟩, ⟨"Paused", 6, true⟩, ⟨"Next login", 25, true⟩,
    ⟨"URL", 30, false⟩]

/-- The cells of a site. -/
def siteCells (site : Site) : List String :=
  [toString site.id, site.name, if site.paused then "true" else "false", nextLogin site, site.url]

/-- The lines that list sites. -/
def siteLines (asJson : Bool) (sites : List Site) : List String :=
  if asJson then [(Json.array (sites.map Site.toJson)).laidOut 0]
  else if sites.isEmpty then ["No sites configured."]
  else table siteColumns (sites.map siteCells)

/-- The site that an addition describes: its password is looked up first, then its script, and its
policy is checked last. -/
def newSite (host : Host) (addition : Addition) : Except String NewSite := do
  let password ← match addition.password <|> host.environment passwordVariable with
    | some password => pure password
    | none => throw ("--password not given and $" ++ passwordVariable ++ " is not set")
  let script ← match addition.scriptPath with
    | none => pure none
    | some path => some <$> host.text path
  match Policy.ofFields addition.fields with
  | .error flaw => throw flaw.message
  | .ok policy =>
    return {
      name := addition.name, url := addition.url, successUrl := addition.successUrl
      credentials := ⟨addition.username, password⟩, takeScreenshot := addition.takeScreenshot
      paused := addition.paused, script, policy }

/-- A text in single quotes. -/
def inQuotes (text : String) : String :=
  "'" ++ text ++ "'"

/-- The next run of a site in brackets. -/
def nextLoginNote (site : Site) : String :=
  " (next login: " ++ nextLogin site ++ ")."

/-- Runs a command for sites. -/
def runSite (host : Host) : SiteCommand → LedgerWork (List String)
  | .list asJson => do return siteLines asJson (← look (·.allSites))
  | .add addition => do
    let new ← liftExcept (newSite host addition)
    let site ← operate (·.addSite host.moment new)
    return ["Site " ++ inQuotes site.name ++ " added with id " ++ toString site.id ++
      nextLoginNote site]
  | .pause id => do
    let site ← operate (·.setPaused host.moment id true)
    return ["Site " ++ inQuotes site.name ++ " paused."]
  | .resume id => do
    let site ← operate (·.setPaused host.moment id false)
    return ["Site " ++ inQuotes site.name ++ " resumed" ++ nextLoginNote site]
  | .trigger id => do
    let site ← operate (·.triggerNow host.moment id)
    return ["Site " ++ inQuotes site.name ++ " will log in at the next scheduler pass."]
  | .log id => do
    let _ ← operate (·.insertHistory host.moment id (.manual host.moment.now))
    let site ← look (·.site id)
    return ["Manual login recorded for " ++ inQuotes site.name ++ nextLoginNote site]
  | .remove id => do
    operate (·.deleteSite id)
    return ["Site " ++ toString id ++ " removed."]
where
  /-- A result as work that leaves the ledger alone. -/
  liftExcept {α : Type} : Except String α → LedgerWork α
    | .ok a => return a
    | .error complaint => throw complaint

/-! ## History -/

/-- The columns of the table of attempts. -/
def historyColumns : List Column :=
  [⟨"Started", 25, true⟩, ⟨"Status", 11, false⟩, ⟨"Failure", 32, true⟩, ⟨"Message", 20, false⟩]

/-- The cells of an entry. -/
def historyCells (entry : History) : List String :=
  [stampText entry.started, entry.status.code, (entry.failure.map (·.code)).getD "-",
    entry.message.getD ""]

/-- The lines that show the history of a site. -/
def historyLines (siteId : Int) (asJson : Bool) (entries : List History) : List String :=
  if asJson then [(Json.array (entries.map History.toJson)).laidOut 0]
  else if entries.isEmpty then ["No history for site " ++ toString siteId ++ "."]
  else table historyColumns (entries.map historyCells)

/-! ## The whole -/

/-- Does work on the ledger in the configured database. -/
def withLedger (host : Host) (config : Config) (work : LedgerWork (List String)) : Exit :=
  match Feed.ofCapacity? config.scheduler.eventBuffer with
  | none => .brokenDown
  | some _ =>
    let path := config.storage.dbPath
    let (result, after) := work.run.run (host.ledger path)
    { Exit.ofResult result with ledger := some (path, after) }

/-- Recovers the store and goes on to listen, if the address is one. -/
def serve (host : Host) (config : Config) : Exit :=
  match Feed.ofCapacity? config.scheduler.eventBuffer with
  | none => .brokenDown
  | some feed =>
    let path := config.storage.dbPath
    let store : Store := { ledger := host.ledger path, feed }
    let recovery := Recovery.ofStore store host.moment (fun _ => host.moment)
      config.scheduler.misfireGraceSecs
    let exit : Exit := match recovery.error with
      | some error => .failed error.message
      | none =>
        if BindAddress.isValid config.api.bind then { listens := some config.api.bind }
        else .failed ("Invalid bind address " ++ config.api.bind)
    { exit with ledger := some (path, recovery.store.ledger) }

/-- Runs a command with a configuration. -/
def runCommand (host : Host) (config : Config) : Command → Exit
  | .serve bind =>
    serve host { config with api := { config.api with bind := bind.getD config.api.bind } }
  | .checkScript path => .ofResult (checkScript host path)
  | .findForm path withCandidates => .ofResult (findForm host path withCandidates)
  | .site command => withLedger host config (runSite host command)
  | .history siteId limit asJson =>
    withLedger host config do
      return historyLines siteId asJson (← look (·.historyOf siteId limit))

/-- The configuration for an invocation. -/
def Invocation.configuration (host : Host) (invocation : Invocation) :
    Except Config.FileError Config := do
  let config ← Config.resolve host.file invocation.config (host.environment Config.pathVariable)
  return { config with
    storage := { dbPath := invocation.database.getD config.storage.dbPath } }

/-- Runs an invocation. -/
def Invocation.run (host : Host) (invocation : Invocation) : Exit :=
  match invocation.configuration host with
  | .error error => .failed error.message
  | .ok config => runCommand host config invocation.command

/-- The end of a command line that gives nothing to do. -/
def Exit.ofStop : Stop → Exit
  | .help => printed helpLines
  | .version => printed [versionText]
  | .misuse => misused

/-- Runs a command line. -/
def run (host : Host) (arguments : List String) : Exit :=
  match Invocation.read arguments with
  | .ok invocation => invocation.run host
  | .error stop => .ofStop stop

end KeepAlive.CommandLine
