import KeepAlive.Ledger.Basic

/-!
# Ledgers of the first release

The first release kept no pictures of attempts.  A ledger that it wrote is brought up to date when it
is opened: its attempts have no picture.
-/

namespace KeepAlive.Ledger.FirstRelease

/-- An attempt as the first release kept it. -/
structure Row where
  id : Int
  siteId : Int
  started : String
  ended : Option String := none
  status : String
  failure : Option String := none
  message : Option String := none
  deriving DecidableEq, Repr

/-- An attempt brought up to date. -/
def Row.upgraded (row : Row) : HistoryRow :=
  { id := row.id, siteId := row.siteId, started := row.started, ended := row.ended
    status := row.status, failure := row.failure, message := row.message, screenshotId := none }

/-- A ledger brought up to date. -/
def upgraded (sites : List SiteRow) (history : List Row) : Ledger :=
  { sites, history := history.map Row.upgraded }

end KeepAlive.Ledger.FirstRelease
