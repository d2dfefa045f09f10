import KeepAlive.Browser.Planned
import KeepAlive.Browser.Playback
import KeepAlive.Browser.Remote
import KeepAlive.CommandLine.Desk
import KeepAlive.Engine.Workshop
import KeepAlive.Feed.Audience
import KeepAlive.Feed.Record
import KeepAlive.Jobs.Trial
import KeepAlive.Ledger.Alter
import KeepAlive.Ledger.FirstRelease
import KeepAlive.Login.Redacted
import KeepAlive.Main
import KeepAlive.Proofs.Engine.Discretion
import KeepAlive.Proofs.Engine.FreshDraws
import KeepAlive.Proofs.Engine.Grace
import KeepAlive.Proofs.Engine.Legible
import KeepAlive.Proofs.Engine.Reconciling
import KeepAlive.Proofs.Engine.Resyncing
import KeepAlive.Proofs.Engine.RowsLeft
import KeepAlive.Proofs.Engine.Table
import KeepAlive.Proofs.Engine.Triggering
import KeepAlive.Proofs.Form.FormsFirst
import KeepAlive.Proofs.Form.Refusing
import KeepAlive.Proofs.Jobs.Keeping
import KeepAlive.Proofs.Ledger.Finality
import KeepAlive.Proofs.Ledger.Logbook
import KeepAlive.Proofs.Ledger.OneSite
import KeepAlive.Proofs.Ledger.Upkeep
import KeepAlive.Proofs.Locator.Accepted
import KeepAlive.Proofs.Locator.Path
import KeepAlive.Proofs.Locator.Reading
import KeepAlive.Proofs.Login.Filling
import KeepAlive.Proofs.Login.Lasting
import KeepAlive.Proofs.Login.Standard
import KeepAlive.Proofs.Login.Success
import KeepAlive.Proofs.Markup.Advancing
import KeepAlive.Proofs.Markup.WellFormed
import KeepAlive.Proofs.Markup.Written
import KeepAlive.Proofs.Policy.Allowed
import KeepAlive.Proofs.Policy.Setback
import KeepAlive.Proofs.Policy.Skipping
import KeepAlive.Proofs.Script.FirstFault
import KeepAlive.Proofs.Script.Joining
import KeepAlive.Proofs.Script.Written
import KeepAlive.Text.Quoted
