import KeepAlive.Browser.Dialogue
import KeepAlive.Form.Rank

/-!
# Finding the login form

The page that a browser shows is ranked for each field, and the best candidate that the browser
reports as visible is the one.
-/

namespace KeepAlive.Form

open Browser

/-- The path of the first candidate that is visible. -/
def firstVisible : List Candidate → Session (Option String)
  | [] => return none
  | candidate :: rest => do
    let path := candidate.place.absolutePath
    if ← Session.call (.isVisible path) then return some path else firstVisible rest

/-- The fields of a form in a document that the browser shows. -/
def findIn (document : Markup.Document) : List Field → Locators → Session Locators
  | [], found => return found
  | field :: rest, found => do
    let locator ← firstVisible (rank document field)
    findIn document rest (found.set field locator)

/-- The fields of the login form on the page that the browser shows. -/
def find : Session Locators := do
  let markup ← Session.call .pageMarkup
  findIn (.parse markup) Field.all {}

end KeepAlive.Form
