import KeepAlive.CommandLine.Arguments
import KeepAlive.Policy.Basic

/-!
# Commands

What a command line can ask for, and the levels on which it is read.  The configuration file and the
database can be named on every level; the innermost one counts.
-/

namespace KeepAlive.CommandLine

/-- A site as it is described on the command line. -/
structure Addition where
  name : String
  url : String
  successUrl : String
  username : String
  password : Option String
  fields : Policy.Fields
  scriptPath : Option String
  takeScreenshot : Bool
  paused : Bool
  deriving Repr

/-- What can be done with sites. -/
inductive SiteCommand
  | list (asJson : Bool)
  | add (addition : Addition)
  | pause (id : Int)
  | resume (id : Int)
  | trigger (id : Int)
  | log (id : Int)
  | remove (id : Int)
  deriving Repr

/-- What can be asked for. -/
inductive Command
  | serve (bind : Option String)
  | checkScript (path : String)
  | findForm (path : String) (withCandidates : Bool)
  | site (command : SiteCommand)
  | history (siteId : Int) (limit : Nat) (asJson : Bool)
  deriving Repr

/-- A command with the files that are named for it. -/
structure Invocation where
  config : Option String
  database : Option String
  command : Command
  deriving Repr

/-- The file that a command reads. -/
def Command.path? : Command → Option String
  | .checkScript path => some path
  | .findForm path _ => some path
  | .site (.add addition) => addition.scriptPath
  | _ => none

/-! ## Levels -/

/-- The options of every level. -/
def everywhere : List (String × Kind) :=
  [("config", .path), ("db", .path)]

/-- Ids of sites. -/
def idKind : Kind := .integer (-9223372036854775808) 9223372036854775808

/-- Numbers of minutes. -/
def minutesKind : Kind := .integer 0 4294967296

/-- The names of the commands for sites. -/
def siteCommandNames : List String :=
  ["list", "add", "pause", "resume", "trigger", "log", "remove"]

/-- The outermost level. -/
def topLevel : Level where
  valued := everywhere
  commands := [
    ("serve", []), ("check-script", []), ("find-form", []), ("site", siteCommandNames),
    ("history", [])]
  tellsVersion := true

/-- The level of the commands for sites. -/
def siteLevel : Level where
  valued := everywhere
  commands := siteCommandNames.map (·, [])

/-- The level of a command about one site. -/
def idLevel : Level where
  valued := everywhere
  operands := [idKind]

/-- The options that a site to be added has to have. -/
def necessary : List String :=
  ["name", "url", "success-url", "username"]

/-- The level on which a site to be added is described. -/
def addLevel : Level where
  valued := everywhere ++ (necessary ++ ["password"]).map (·, .text) ++
    ["date-minutes-start", "date-minutes-end", "allowed-start", "allowed-end"].map
      (·, minutesKind) ++ [("script", .path)]
  flags := ["screenshot", "paused"]

/-! ## Reading -/

/-- The file that the innermost of some levels names. -/
def innermost (levels : List Given) (name : String) : Option String :=
  levels.findSome? (·.value? name)

/-- The description of a site on its level. -/
def additionOf (given : Given) : Addition :=
  let text (name : String) : String := (given.value? name).getD ""
  let minutes? (name : String) : Option UInt32 := (given.natural? name).map UInt32.ofNat
  { name := text "name", url := text "url", successUrl := text "success-url"
    username := text "username", password := given.value? "password"
    fields := {
      dateStart := (minutes? "date-minutes-start").getD 10080
      dateEnd := minutes? "date-minutes-end", timeStart := minutes? "allowed-start"
      timeEnd := minutes? "allowed-end" }
    scriptPath := given.value? "script"
    takeScreenshot := given.has "screenshot", paused := given.has "paused" }

/-- Reads a command for sites, with its level. -/
def readSiteCommand (name : String) (arguments : List String) :
    Except Stop (SiteCommand × Given) := do
  match name with
  | "list" =>
    let given ← ({ valued := everywhere, flags := ["json"] } : Level).read [] arguments
    return (.list (given.has "json"), given)
  | "add" =>
    let given ← addLevel.read necessary arguments
    return (.add (additionOf given), given)
  | _ =>
    let given ← idLevel.read [] arguments
    let command ← match name with
      | "pause" => pure SiteCommand.pause
      | "resume" => pure SiteCommand.resume
      | "trigger" => pure SiteCommand.trigger
      | "log" => pure SiteCommand.log
      | "remove" => pure SiteCommand.remove
      | _ => throw .misuse
    return (command given.integer, given)

/-- Reads a command, with its levels from the innermost on. -/
def readCommand (name : String) (arguments : List String) :
    Except Stop (Command × List Given) := do
  match name with
  | "serve" =>
    let given ← ({ valued := ("bind", .text) :: everywhere } : Level).read [] arguments
    return (.serve (given.value? "bind"), [given])
  | "check-script" =>
    let given ← ({ valued := everywhere, operands := [.path] } : Level).read [] arguments
    return (.checkScript (given.operands.headD ""), [given])
  | "find-form" =>
    let given ← ({ valued := everywhere, flags := ["candidates"], operands := [.path] } :
      Level).read [] arguments
    return (.findForm (given.operands.headD "") (given.has "candidates"), [given])
  | "site" =>
    let given ← siteLevel.read [] arguments
    match given.command with
    | none => throw .misuse
    | some (name, rest) =>
      let (command, inner) ← readSiteCommand name rest
      return (.site command, [inner, given])
  | "history" =>
    let given ← ({
      valued := ("limit", .natural 18446744073709551616) :: everywhere, flags := ["json"]
      operands := [idKind] } : Level).read [] arguments
    return (.history given.integer ((given.natural? "limit").getD 20) (given.has "json"), [given])
  | _ => throw .misuse

/-- Reads a command line. -/
def Invocation.read (arguments : List String) : Except Stop Invocation := do
  let top ← topLevel.read [] arguments
  match top.command with
  | none => throw .misuse
  | some (name, rest) =>
    let (command, inner) ← readCommand name rest
    let levels := inner ++ [top]
    return { config := innermost levels "config", database := innermost levels "db", command }

end KeepAlive.CommandLine
