import KeepAlive.Ledger.Basic
import KeepAlive.Script.Parse

/-!
# Operations on sites

Adding, editing, pausing, triggering, rescheduling and deleting a site.  Each of them announces at
most one event, and it does so when the next run of the site changes or the site appears or goes.
-/

namespace KeepAlive.Ledger

/-- Refuses a script that does not parse. -/
def checkScript : Option String → Except Refusal Unit
  | none => .ok ()
  | some source =>
    match Script.parse source with
    | .ok _ => .ok ()
    | .error error => .error (.invalidScript error)

/-- Adds a site.  It is due at once, so that wrong credentials show up early. -/
def addSite (ledger : Ledger) (moment : Moment) (new : NewSite) : Except Refusal (Change Site) := do
  checkScript new.script
  let id := nextId (ledger.sites.map (·.id))
  let after := { ledger with
    sites := placed (·.id) (.ofNew id moment.now new) ledger.sites }
  let site ← after.site id
  return { result := site, ledger := after, events := [.siteCreated site.id] }

/-- Edits a site.  A changed policy draws a new next run unless the site is paused. -/
def updateSite (ledger : Ledger) (moment : Moment) (id : Int) (edit : SiteEdit) :
    Except Refusal (Change Site) := do
  checkScript (edit.script.bind (·))
  let before ← ledger.site id
  let site := before.edited edit
  let after := ledger.withSite id (·.withEdit site)
  if site.policy ≠ before.policy ∧ !before.paused then
    let next := drawn site moment
    return { result := { site with next }, ledger := after.withNext id next
             events := [.siteRescheduled id] }
  else return { result := site, ledger := after, events := [] }

/-- Pauses or resumes a site.  Pausing clears the next run, and resuming draws one. -/
def setPaused (ledger : Ledger) (moment : Moment) (id : Int) (paused : Bool) :
    Except Refusal (Change Site) := do
  let site ← ledger.site id
  if site.paused = paused then return { result := site, ledger, events := [] }
  else
    let site := { site with paused }
    let next := drawn site moment
    let after := ledger.withSite id fun row => { row with paused := .ofBool paused }
    return { result := { site with next }, ledger := after.withNext id next
             events := [.sitePaused id paused] }

/-- Makes a site due at once. -/
def triggerNow (ledger : Ledger) (moment : Moment) (id : Int) : Except Refusal (Change Site) := do
  let site ← ledger.site id
  if site.paused then throw (.paused id)
  else
    return { result := { site with next := some moment.now }
             ledger := ledger.withNext id (some moment.now), events := [.siteRescheduled id] }

/-- Draws a new next run. -/
def reschedule (ledger : Ledger) (moment : Moment) (id : Int) : Except Refusal (Change Site) := do
  let site ← ledger.site id
  let next := drawn site moment
  return { result := { site with next }, ledger := ledger.withNext id next
           events := if site.paused then [] else [.siteRescheduled id] }

/-- Deletes a site with its history. -/
def deleteSite (ledger : Ledger) (id : Int) : Except Refusal (Change Unit) :=
  if ledger.sites.any (·.id = id) then
    .ok {
      result := ()
      ledger := {
        sites := ledger.sites.filter (·.id ≠ id)
        history := ledger.history.filter (·.siteId ≠ id) }
      events := [.siteDeleted id] }
  else .error (.siteNotFound id)

end KeepAlive.Ledger
