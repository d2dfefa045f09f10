import KeepAlive.CommandLine.Run
import KeepAlive.Ledger.Record
import Std.Time.Zoned

/-!
# The program

Gathers what a command needs from outside, runs it and carries out how it ends.  The ledger is kept in
a file.
-/

namespace KeepAlive.Program

open CommandLine

/-- The text of a file, if it can be read. -/
def textOf? (path : String) : IO (Option String) := do
  try return some (← IO.FS.readFile path) catch _ => return none

/-- What there is for some names, each with its name. -/
def gathered (names : List String) (find : String → IO (Option String)) :
    IO (List (String × String)) :=
  names.filterMapM fun name => do return (← find name).map (name, ·)

/-- The clock, the offset of the local time and random words. -/
def moment : IO Moment := do
  let now ← Std.Time.DateTime.now
  let nanos := now.toTimestamp.toNanosecondsSinceUnixEpoch.val
  let words ← (List.range 64).mapM fun _ => IO.rand 0 4294967295
  return {
    now := ⟨nanos / 1000000000, (nanos % 1000000000).toNat⟩
    zone := .fixed now.offset.second.val, words := words.map UInt32.ofNat }

/-- The files that an invocation may read. -/
def pathsOf (invocation : Invocation) (environment : List (String × String)) : List String :=
  [invocation.config, environment.lookup Config.pathVariable, some Config.systemPath,
    invocation.command.path?].filterMap id

/-- The ledger in a file; a file that is not there holds an empty one. -/
def ledgerAt (path : String) : IO Ledger := do
  match ← textOf? path with
  | none => return {}
  | some text =>
    match Ledger.ofText? text with
    | some ledger => return ledger
    | none => throw (.userError ("Failed to read the ledger in " ++ path))

/-- Keeps a ledger in a file, whose folder is made if it is not there. -/
def keep (path : String) (ledger : Ledger) : IO Unit := do
  let above := (path.toList.reverse.dropWhile (· ≠ '/')).drop 1
  if !above.isEmpty then IO.FS.createDirAll (String.ofList above.reverse)
  IO.FS.writeFile path ledger.toText

/-- Carries out how a command ends. -/
def carryOut (exit : Exit) : IO UInt32 := do
  if let some (path, ledger) := exit.ledger then keep path ledger
  IO.print exit.output
  if let some complaint := exit.complaint then IO.eprintln ("Error: " ++ complaint)
  match exit.listens with
  | none => return UInt32.ofNat exit.code
  | some address =>
    IO.eprintln ("Error: nothing can listen at " ++ address)
    return 1

/-- Runs an invocation with what there is outside. -/
def perform (invocation : Invocation) : IO UInt32 := do
  let environment ← gathered [Config.pathVariable, passwordVariable] (IO.getEnv ·)
  let files ← gathered (pathsOf invocation environment) textOf?
  let host : Host := {
    file := (files.lookup ·), environment := (environment.lookup ·), ledger := fun _ => {}
    moment := ← moment }
  match invocation.configuration host with
  | .error error => carryOut (.failed error.message)
  | .ok config =>
    let ledger ← ledgerAt config.storage.dbPath
    carryOut (invocation.run { host with ledger := fun _ => ledger })

end KeepAlive.Program

def main (arguments : List String) : IO UInt32 :=
  match KeepAlive.CommandLine.Invocation.read arguments with
  | .ok invocation => KeepAlive.Program.perform invocation
  | .error stop => KeepAlive.Program.carryOut (.ofStop stop)
