import KeepAlive.CommandLine.Run

/-!
# A host in memory

A desk holds texts by path, variables and the ledgers of its databases.  Command lines are run on it
one after the other, and each one finds the ledgers as those before it have left them.
-/

namespace KeepAlive.CommandLine

/-- The parts of a path that lead somewhere. -/
def pathParts (path : String) : List (List Char) :=
  (Text.parts (· = '/') path.toList).filter fun part => part ≠ [] && part ≠ ['.']

/-- Files, variables and databases. -/
structure Desk where
  files : List (String × String) := []
  environment : List (String × String) := []
  ledgers : List (List (List Char) × Ledger) := []

namespace Desk

/-- The text of the file at a path. -/
def file (desk : Desk) (path : String) : Option String :=
  if path.endsWith "/" || path.startsWith "/" then none
  else (desk.files.find? fun file => pathParts file.1 = pathParts path).map (·.2)

/-- What a command finds on the desk. -/
def host (desk : Desk) (moment : Moment) : Host where
  file := desk.file
  environment name := desk.environment.lookup name
  ledger path := (desk.ledgers.lookup (pathParts path)).getD {}
  moment := moment

/-- The desk after a command. -/
def after (desk : Desk) (exit : Exit) : Desk :=
  match exit.ledger with
  | none => desk
  | some (path, ledger) => { desk with ledgers := (pathParts path, ledger) :: desk.ledgers }

/-- Runs a command line. -/
def run (desk : Desk) (moment : Moment) (arguments : List String) : Exit × Desk :=
  let exit := CommandLine.run (desk.host moment) arguments
  (exit, desk.after exit)

/-- A command finds what the one before has left. -/
theorem ledger_after (desk : Desk) (moment : Moment) {exit : Exit} {path : String}
    {ledger : Ledger} (h : exit.ledger = some (path, ledger)) :
    ((desk.after exit).host moment).ledger path = ledger := by
  simp [after, host, h]

end Desk

end KeepAlive.CommandLine
