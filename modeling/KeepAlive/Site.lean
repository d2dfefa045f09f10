import KeepAlive.Json.Value
import KeepAlive.Login.Attempt
import KeepAlive.Policy.Record
import KeepAlive.Time.Record

/-!
# Sites

A site is an account that is logged into on a schedule.  A paused site has no next run.
-/

namespace KeepAlive

open Time

/-- An account on a site. -/
structure Site where
  id : Int
  name : String
  url : String
  successUrl : String
  credentials : Credentials
  takeScreenshot : Bool
  paused : Bool
  /-- The site's own login script. -/
  script : Option String
  policy : Policy
  next : Option Instant
  addedAt : Instant
  deriving DecidableEq, Repr

/-- A site to be added. -/
structure NewSite where
  name : String
  url : String
  successUrl : String
  credentials : Credentials
  takeScreenshot : Bool := false
  paused : Bool := false
  script : Option String := none
  policy : Policy
  deriving DecidableEq, Repr

/-- An edit of a site: what it does not name stays.  A script may also be taken away. -/
structure SiteEdit where
  name : Option String := none
  url : Option String := none
  successUrl : Option String := none
  credentials : Option Credentials := none
  takeScreenshot : Option Bool := none
  script : Option (Option String) := none
  policy : Option Policy := none
  deriving DecidableEq, Repr

namespace Site

/-- The site after an edit; its next run is not touched. -/
def edited (site : Site) (edit : SiteEdit) : Site :=
  { site with
    name := edit.name.getD site.name
    url := edit.url.getD site.url
    successUrl := edit.successUrl.getD site.successUrl
    credentials := edit.credentials.getD site.credentials
    takeScreenshot := edit.takeScreenshot.getD site.takeScreenshot
    script := edit.script.getD site.script
    policy := edit.policy.getD site.policy }

/-- What a login to the site is to do. -/
def request (site : Site) (screenshotId : Option String) : Login.Request :=
  { url := site.url, successUrl := site.successUrl, credentials := site.credentials
    script := site.script, screenshotId }

/-- The site as it is sent: without its credentials. -/
def toJson (site : Site) : Json :=
  .object [
    ("id", .integer site.id), ("name", .text site.name), ("url", .text site.url),
    ("success_url", .text site.successUrl), ("take_screenshot", .bool site.takeScreenshot),
    ("paused", .bool site.paused), ("custom_script", .ofText? site.script),
    ("policy", site.policy.fields.toJson), ("next_schedule", .ofOption Instant.toJson site.next),
    ("added_at", site.addedAt.toJson)]

/-- What is sent of a site does not depend on its credentials. -/
theorem toJson_credentials (site : Site) (credentials : Credentials) :
    { site with credentials }.toJson = site.toJson :=
  rfl

end Site

end KeepAlive
