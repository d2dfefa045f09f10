import KeepAlive.Json.Reader
import KeepAlive.Json.Writer
import KeepAlive.Ledger.Basic

/-!
# Ledgers as values

A ledger is written as an object with its two tables, every row with all its columns, and what is
written is read back as the same ledger.
-/

namespace KeepAlive

/-- A number of a row as a value. -/
def Number.toJson : Number → Json
  | .integer value => .integer value
  | .real spelling => .array [.text spelling]
  | .text content => .text content

/-- The number of a row that a value stands for. -/
def Number.ofJson? : Json → Option Number
  | .integer value => some (.integer value)
  | .array [.text spelling] => some (.real spelling)
  | .text content => some (.text content)
  | _ => none

@[simp] theorem Number.ofJson?_toJson (number : Number) : ofJson? number.toJson = some number := by
  cases number <;> rfl

/-- Reads a value that may be `null`. -/
def Json.optional? {α : Type} (read : Json → Option α) : Json → Option (Option α)
  | .null => some none
  | value => (read value).map some

@[simp] theorem Json.optional?_ofText? (text : Option String) :
    Json.optional? Json.text? (Json.ofText? text) = some text := by
  cases text <;> rfl

@[simp] theorem Json.optional?_ofNumber (number : Option Number) :
    Json.optional? Number.ofJson? (Json.ofOption Number.toJson number) = some number := by
  rcases number with _ | _ | _ | _ <;> rfl

namespace SiteRow

/-- The row as a value. -/
def toJson (row : SiteRow) : Json :=
  .array [
    .integer row.id, .text row.name, .text row.url, .text row.successUrl, .text row.username,
    .text row.password, row.takeScreenshot.toJson, row.paused.toJson, .ofText? row.script,
    row.dateStart.toJson, .ofOption Number.toJson row.dateEnd,
    .ofOption Number.toJson row.timeStart, .ofOption Number.toJson row.timeEnd,
    .ofText? row.next, .text row.addedAt]

/-- The row that a value stands for. -/
def ofJson? : Json → Option SiteRow
  | .array [id, name, url, successUrl, username, password, takeScreenshot, paused, script,
      dateStart, dateEnd, timeStart, timeEnd, next, addedAt] => do
    return {
      id := ← id.integer?, name := ← name.text?, url := ← url.text?
      successUrl := ← successUrl.text?, username := ← username.text?
      password := ← password.text?, takeScreenshot := ← Number.ofJson? takeScreenshot
      paused := ← Number.ofJson? paused, script := ← Json.optional? Json.text? script
      dateStart := ← Number.ofJson? dateStart
      dateEnd := ← Json.optional? Number.ofJson? dateEnd
      timeStart := ← Json.optional? Number.ofJson? timeStart
      timeEnd := ← Json.optional? Number.ofJson? timeEnd
      next := ← Json.optional? Json.text? next, addedAt := ← addedAt.text? }
  | _ => none

@[simp] theorem ofJson?_toJson (row : SiteRow) : ofJson? row.toJson = some row := by
  simp [ofJson?, toJson, Json.integer?, Json.text?]

end SiteRow

namespace HistoryRow

/-- The row as a value. -/
def toJson (row : HistoryRow) : Json :=
  .array [
    .integer row.id, .integer row.siteId, .text row.started, .ofText? row.ended,
    .text row.status, .ofText? row.failure, .ofText? row.message, .ofText? row.screenshotId]

/-- The row that a value stands for. -/
def ofJson? : Json → Option HistoryRow
  | .array [id, siteId, started, ended, status, failure, message, screenshotId] => do
    return {
      id := ← id.integer?, siteId := ← siteId.integer?, started := ← started.text?
      ended := ← Json.optional? Json.text? ended, status := ← status.text?
      failure := ← Json.optional? Json.text? failure
      message := ← Json.optional? Json.text? message
      screenshotId := ← Json.optional? Json.text? screenshotId }
  | _ => none

@[simp] theorem ofJson?_toJson (row : HistoryRow) : ofJson? row.toJson = some row := by
  simp [ofJson?, toJson, Json.integer?, Json.text?]

end HistoryRow

namespace Ledger

/-- The ledger as a value. -/
def toJson (ledger : Ledger) : Json :=
  .object [
    ("sites", .array (ledger.sites.map SiteRow.toJson)),
    ("history", .array (ledger.history.map HistoryRow.toJson))]

/-- The ledger that a value stands for. -/
def ofJson? (value : Json) : Option Ledger := do
  return {
    sites := ← (← (value.member "sites").array?).mapM SiteRow.ofJson?
    history := ← (← (value.member "history").array?).mapM HistoryRow.ofJson? }

theorem mapM_map_eq_some {α β : Type} {write : α → β} {read : β → Option α}
    (h : ∀ a, read (write a) = some a) (l : List α) : (l.map write).mapM read = some l := by
  induction l with
  | nil => rfl
  | cons a rest ih => simp [List.mapM_cons, h, ih]

theorem ofJson?_toJson (ledger : Ledger) : ofJson? ledger.toJson = some ledger := by
  simp [ofJson?, toJson, Json.member, Json.member?, Json.array?,
    mapM_map_eq_some SiteRow.ofJson?_toJson, mapM_map_eq_some HistoryRow.ofJson?_toJson]

/-- The ledger in the text of a file. -/
def ofText? (text : String) : Option Ledger :=
  (Json.read? text).bind ofJson?

/-- The ledger as the text of a file. -/
def toText (ledger : Ledger) : String :=
  ledger.toJson.laidOut 0 ++ "\n"

end Ledger

end KeepAlive
