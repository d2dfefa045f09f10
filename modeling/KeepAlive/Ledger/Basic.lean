import KeepAlive.Feed
import KeepAlive.Ledger.Row
import KeepAlive.Moment

/-!
# The ledger

A ledger holds the sites and the history of the attempts to log into them.  Every operation on it is
one step: it is refused, and then nothing has happened, or it gives the new ledger together with the
events that are to be announced.
-/

namespace KeepAlive

open Time

/-- The two tables, each in the order of its ids. -/
structure Ledger where
  sites : List SiteRow := []
  history : List HistoryRow := []
  deriving DecidableEq, Repr, Inhabited

/-- Why an operation does not take place. -/
inductive Refusal
  | siteNotFound (id : Int)
  | historyNotFound (id : Int)
  | alreadyFinished (id : Int)
  | paused (id : Int)
  | invalidScript (error : Script.SyntaxError)
  | unreadable (cause : Unreadable)
  deriving DecidableEq, Repr

namespace Refusal

/-- The sentence for a refusal. -/
def message : Refusal → String
  | siteNotFound id => "site " ++ toString id ++ " not found"
  | historyNotFound id => "history entry " ++ toString id ++ " not found"
  | alreadyFinished id => "history entry " ++ toString id ++ " is already finished"
  | paused id => "site " ++ toString id ++ " is paused"
  | invalidScript error => "invalid login script: " ++ error.message
  | unreadable cause => "database error: " ++ cause.message

/-- The sentence for a refusal and those for what is behind it. -/
def reasons (refusal : Refusal) : List String :=
  refusal.message :: match refusal with
    | invalidScript error => [error.message]
    | unreadable cause => cause.message :: cause.cause?.toList
    | _ => []

/-- All the sentences for a refusal in one. -/
def fullMessage (refusal : Refusal) : String :=
  ": ".intercalate refusal.reasons

end Refusal

/-- What comes of an operation: its result, the ledger after it and the events to announce. -/
structure Change (α : Type) where
  result : α
  ledger : Ledger
  events : List Event

namespace Ledger

/-- The largest id. -/
def lastId : Int := 9223372036854775807

/-- The id of the next row: one more than the largest, and any free one when there is none left. -/
def nextId (ids : List Int) : Int :=
  match ids.max? with
  | none => 1
  | some largest =>
    if largest < lastId then largest + 1
    else (((List.range (ids.length + 1)).map fun (n : Nat) => (n : Int) + 1).find?
      fun id => !ids.contains id).getD 1

/-- The rows with one more, in the order of their ids. -/
def placed {ρ : Type} (id : ρ → Int) (row : ρ) (rows : List ρ) : List ρ :=
  rows.filter (fun other => id other < id row) ++
    row :: rows.filter (fun other => id row < id other)

/-- The rows of sites with the one of the given id changed. -/
def withSite (ledger : Ledger) (id : Int) (change : SiteRow → SiteRow) : Ledger :=
  { ledger with sites := ledger.sites.map fun row => if row.id = id then change row else row }

/-- The rows of attempts with the one of the given id changed. -/
def withHistory (ledger : Ledger) (id : Int) (change : HistoryRow → HistoryRow) : Ledger :=
  { ledger with history := ledger.history.map fun row => if row.id = id then change row else row }

/-- Reads a row, if it is there and can be read. -/
def read {ρ α : Type} (parse : ρ → Except Unreadable α) (missing : Refusal) :
    Option ρ → Except Refusal α
  | none => .error missing
  | some row => (parse row).mapError .unreadable

/-- The site with an id. -/
def site (ledger : Ledger) (id : Int) : Except Refusal Site :=
  read SiteRow.site? (.siteNotFound id) (ledger.sites.find? (·.id = id))

/-- The entry with an id. -/
def entry (ledger : Ledger) (id : Int) : Except Refusal History :=
  read HistoryRow.history? (.historyNotFound id) (ledger.history.find? (·.id = id))

/-- All sites in the order of their ids, unless one of them cannot be read. -/
def allSites (ledger : Ledger) : Except Refusal (List Site) :=
  (ledger.sites.mapM SiteRow.site?).mapError .unreadable

/-- Whether a row comes before another one in the history of a site: the later start first, and of
two with the same start that with the larger id. -/
def isNewer (a b : HistoryRow) : Bool :=
  b.started < a.started || (a.started = b.started && b.id ≤ a.id)

/-- The latest entries of a site, at most so many, unless one of them cannot be read. -/
def historyOf (ledger : Ledger) (siteId : Int) (limit : Nat) : Except Refusal (List History) :=
  let rows := (ledger.history.filter (·.siteId = siteId)).mergeSort isNewer
  ((rows.take limit).mapM HistoryRow.history?).mapError .unreadable

/-- The next run of a site drawn anew from its policy; a paused site has none. -/
def drawn (site : Site) (moment : Moment) : Option Instant :=
  if site.paused then none else some (site.policy.drawAt moment)

/-- The ledger with a next run stored for a site. -/
def withNext (ledger : Ledger) (id : Int) (next : Option Instant) : Ledger :=
  ledger.withSite id fun row => { row with next := next.map millisText }

end Ledger

end KeepAlive
