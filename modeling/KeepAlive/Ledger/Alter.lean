import KeepAlive.Binary64
import KeepAlive.Ledger.Basic
import KeepAlive.Text.Digits
import KeepAlive.Text.Search

/-!
# Changes from outside

Somebody else may write a single cell of a table past the library.  A column of numbers turns a text
that looks like a number into the nearest one, a column of texts turns a number into its digits, and
the rules of the tables hold: some cells must not be empty, ids are unique, and an attempt belongs to
a site that there is.
-/

namespace KeepAlive.Ledger

/-- What may be written into a cell. -/
inductive Cell
  | empty
  | integer (value : Int)
  | text (content : String)
  deriving DecidableEq, Repr

/-- Why a cell is not written. -/
inductive CellRefusal
  | empty (table column : String)
  | noSuchSite
  | duplicate (table : String)
  | notAnId
  | noSuchTable (table : String)
  | noSuchColumn (column : String)
  /-- The table of the tables themselves. -/
  | fixedTable (table : String)
  deriving DecidableEq, Repr

/-- The sentence for a cell that is not written. -/
def CellRefusal.message : CellRefusal → String
  | empty table column => "NOT NULL constraint failed: " ++ table ++ "." ++ column
  | noSuchSite => "FOREIGN KEY constraint failed"
  | duplicate table => "UNIQUE constraint failed: " ++ table ++ ".id"
  | notAnId => "datatype mismatch"
  | noSuchTable table => "no such table: " ++ table
  | noSuchColumn column => "no such column: " ++ column
  | fixedTable table => "table " ++ table ++ " may not be modified"

/-- A decimal number as it is spelled. -/
structure Decimal where
  negative : Bool
  /-- The digits on both sides of the point. -/
  digits : List Char
  /-- How many of the digits follow the point. -/
  places : Nat
  exponent : Int
  /-- Whether there is neither a point nor an exponent. -/
  isPlain : Bool

/-- Whether a number fits into a cell as a whole number. -/
def fits (value : Int) : Bool :=
  -lastId - 1 ≤ value && value ≤ lastId

/-- The number in the binary64 format. -/
def Decimal.rounded (decimal : Decimal) : Binary64 :=
  let (value, left) := Text.leadingValue decimal.digits
  Binary64.ofDecimal value (decimal.exponent + left - decimal.places)

/-- The whole number that the spelling stands for, if it stands for one: digits alone count in full,
everything else in the binary64 format. -/
def Decimal.whole? (decimal : Decimal) : Option Int :=
  let withSign (value : Nat) : Int := if decimal.negative then -(value : Int) else value
  let exact := withSign (Text.decimalValue decimal.digits)
  if decimal.isPlain && fits exact then some exact
  else
    match decimal.rounded.whole? with
    | some value => if fits (value : Int) then some (withSign value) else none
    | none => none

/-- Whether a character is a blank around a number. -/
def isMargin (c : Char) : Bool :=
  c = ' ' || ('\t' ≤ c && c ≤ '\r')

/-- A sign, if there is one, and what follows: whether it is a minus. -/
def signed : List Char → Bool × List Char
  | '-' :: rest => (true, rest)
  | '+' :: rest => (false, rest)
  | rest => (false, rest)

/-- The exponent of ten that a text spells after its digits; nothing else may follow. -/
def exponentOf? : List Char → Option Int
  | [] => some 0
  | c :: rest =>
    if c = 'e' || c = 'E' then
      let (negative, digits) := signed rest
      if !digits.isEmpty && digits.all Char.isDigit then
        let value : Int := Text.decimalValue digits
        some (if negative then -value else value)
      else none
    else none

/-- The number that a text looks like, if it looks like one. -/
def decimalOf? (content : String) : Option Decimal :=
  let trimmed := (content.toList.dropWhile isMargin).reverse.dropWhile isMargin |>.reverse
  let (negative, unsigned) := signed trimmed
  let front := unsigned.takeWhile Char.isDigit
  let tail := unsigned.dropWhile Char.isDigit
  let (fraction, rest) := match tail with
    | '.' :: more => (more.takeWhile Char.isDigit, more.dropWhile Char.isDigit)
    | rest => ([], rest)
  if front.isEmpty && fraction.isEmpty then none
  else (exponentOf? rest).map fun exponent =>
    { negative, digits := front ++ fraction, places := fraction.length, exponent
      isPlain := tail.isEmpty }

/-- A cell of a column of numbers. -/
def Cell.number? : Cell → Option Number
  | empty => none
  | integer value => some (.integer value)
  | text content =>
    match decimalOf? content with
    | none => some (.text content)
    | some decimal =>
      match decimal.whole? with
      | some value => some (.integer value)
      | none => some (.real content)

/-- A cell of a column of texts. -/
def Cell.text? : Cell → Option String
  | empty => none
  | integer value => some (toString value)
  | text content => some content

/-- A cell of a column of ids. -/
def Cell.id? (cell : Cell) : Except CellRefusal Int :=
  match cell.number? with
  | some (.integer value) => .ok value
  | _ => .error .notAnId

/-- A cell that must not be empty. -/
def required {α : Type} (table column : String) : Option α → Except CellRefusal α
  | some value => .ok value
  | none => .error (.empty table column)

/-- A row of sites with one cell written, apart from its id. -/
def SiteRow.written (row : SiteRow) (column : String) (cell : Cell) :
    Except CellRefusal SiteRow := do
  let text := required "sites" column cell.text?
  let number := required "sites" column cell.number?
  match column with
  | "name" => return { row with name := ← text }
  | "url" => return { row with url := ← text }
  | "success_url" => return { row with successUrl := ← text }
  | "username" => return { row with username := ← text }
  | "password" => return { row with password := ← text }
  | "take_screenshot" => return { row with takeScreenshot := ← number }
  | "paused" => return { row with paused := ← number }
  | "custom_script" => return { row with script := cell.text? }
  | "date_minutes_start" => return { row with dateStart := ← number }
  | "date_minutes_end" => return { row with dateEnd := cell.number? }
  | "allowed_time_minutes_start" => return { row with timeStart := cell.number? }
  | "allowed_time_minutes_end" => return { row with timeEnd := cell.number? }
  | "next_schedule" => return { row with next := cell.text? }
  | "added_at" => return { row with addedAt := ← text }
  | _ => throw (.noSuchColumn column)

/-- A row of attempts with one cell written, apart from its id. -/
def HistoryRow.written (sites : List SiteRow) (row : HistoryRow) (column : String) (cell : Cell) :
    Except CellRefusal HistoryRow := do
  let text := required "action_history" column cell.text?
  match column with
  | "site_id" =>
    match ← required "action_history" column cell.number? with
    | .integer id =>
      if sites.any (·.id = id) then return { row with siteId := id } else throw .noSuchSite
    | _ => throw .noSuchSite
  | "execution_started" => return { row with started := ← text }
  | "execution_ended" => return { row with ended := cell.text? }
  | "status" => return { row with status := ← text }
  | "failure" => return { row with failure := cell.text? }
  | "message" => return { row with message := cell.text? }
  | "screenshot_id" => return { row with screenshotId := cell.text? }
  | _ => throw (.noSuchColumn column)

/-- Gives a site another id, which must be free; a site with a history keeps its own. -/
def renumberSite (ledger : Ledger) (row : SiteRow) (id : Int) : Except CellRefusal Ledger :=
  if id = row.id then .ok ledger
  else if ledger.sites.any (·.id = id) then .error (.duplicate "sites")
  else if ledger.history.any (·.siteId = row.id) then .error .noSuchSite
  else
    let others := ledger.sites.filter (·.id ≠ row.id)
    .ok { ledger with sites := placed (·.id) { row with id } others }

/-- Gives an attempt another id, which must be free. -/
def renumberHistory (ledger : Ledger) (row : HistoryRow) (id : Int) : Except CellRefusal Ledger :=
  if id = row.id then .ok ledger
  else if ledger.history.any (·.id = id) then .error (.duplicate "action_history")
  else
    let others := ledger.history.filter (·.id ≠ row.id)
    .ok { ledger with history := placed (·.id) { row with id } others }

/-- The columns of the table of sites. -/
def siteColumns : List String := [
  "id", "name", "url", "success_url", "username", "password", "take_screenshot", "paused",
  "custom_script", "date_minutes_start", "date_minutes_end", "allowed_time_minutes_start",
  "allowed_time_minutes_end", "next_schedule", "added_at"]

/-- The columns of the table of attempts. -/
def historyColumns : List String := [
  "id", "site_id", "execution_started", "execution_ended", "status", "failure", "message",
  "screenshot_id"]

/-- The columns of the table that notes which layout the tables have. -/
def versionColumns : List String := ["version", "applied_at"]

/-- Names that every table has for the column of its ids. -/
def idNames : List String := ["rowid", "oid", "_rowid_"]

/-- A name the way the tables spell it; capitals make no difference. -/
def knownAs (name : String) : String :=
  String.ofList (Text.asciiLower name.toList)

/-- The column that a name means. -/
def columnNamed (columns : List String) (name : String) : Except CellRefusal String :=
  if columns.contains (knownAs name) then .ok (knownAs name)
  else if idNames.contains (knownAs name) then .ok "id"
  else .error (.noSuchColumn name)

/-- Writes one cell of the row with the given id: how many rows there were to write, and the ledger
after it. -/
def alter (ledger : Ledger) (table column : String) (id : Int) (cell : Cell) :
    Except CellRefusal (Nat × Ledger) := do
  match knownAs table with
  | "sites" =>
    let column ← columnNamed siteColumns column
    match ledger.sites.find? (·.id = id) with
    | none => return (0, ledger)
    | some row =>
      if column = "id" then return (1, ← ledger.renumberSite row (← cell.id?))
      else
        let written ← SiteRow.written row column cell
        return (1, ledger.withSite id fun _ => written)
  | "action_history" =>
    let column ← columnNamed historyColumns column
    match ledger.history.find? (·.id = id) with
    | none => return (0, ledger)
    | some row =>
      if column = "id" then return (1, ← ledger.renumberHistory row (← cell.id?))
      else
        let written ← HistoryRow.written ledger.sites row column cell
        return (1, ledger.withHistory id fun _ => written)
  | "schema_version" =>
    let _ ← columnNamed versionColumns column
    throw (.noSuchColumn "id")
  | "sqlite_master" | "sqlite_schema" => throw (.fixedTable "sqlite_master")
  | _ => throw (.noSuchTable table)

end KeepAlive.Ledger
