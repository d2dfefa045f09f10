import KeepAlive.Browser.Dialogue
import KeepAlive.Locator.Select

/-!
# A browser over fixed pages

Pages are markup texts by url.  Elements are found with the library's own locators; an element is
visible unless its type, a `hidden` attribute or a style hides it or something around it.  What is
asked of the browser is kept in a journal, apart from what only looks at the page.
-/

namespace KeepAlive.Browser

/-- The pages that there are, and what goes wrong with them. -/
structure Fixture where
  /-- The page of each url; that of the empty url stands for all others. -/
  pages : List (String × String) := []
  /-- Where opening a url leads, if elsewhere. -/
  redirects : List (String × String) := []
  /-- Where a click leads. -/
  clickTargets : List (String × String) := []
  /-- Locators that find nothing. -/
  missing : List String := []
  /-- Locators that end the connection. -/
  broken : List String := []
  deriving Repr, Inhabited

/-- A browser window with its journal; the latest entry comes first. -/
structure Page where
  fixture : Fixture
  url : String := "about:blank"
  markup : String := ""
  document : Markup.Document := .parse ""
  journal : List Call := []
  values : List (String × String) := []
  connects : Nat := 0
  disconnects : Nat := 0

namespace Page

open Markup

/-- Whether a style text hides its element. -/
def hides (style : String) : Bool :=
  let compact := Text.asciiLower (style.toList.filter fun c => !Text.isBlank c)
  Text.occurs "display:none".toList compact || Text.occurs "visibility:hidden".toList compact

/-- Whether an element does not hide what is in it. -/
def shows (level : Level) : Bool :=
  (level.head.attribute? "hidden").isNone && !(level.head.attribute? "style").any hides

/-- Whether the element at the place can be seen. -/
def visible (place : Place) : Bool :=
  !(place.attribute? "type").any (fun kind => Text.asciiLower kind.toList = "hidden".toList) &&
    (place.here :: place.above).all shows

/-- The markup that is served for a url. -/
def served (fixture : Fixture) (url : String) : String :=
  ((fixture.pages.lookup url) <|> (fixture.pages.lookup "")).getD ""

/-- The page shows what the url leads to. -/
def navigate (page : Page) (url : String) : Page :=
  let target := (page.fixture.redirects.lookup url).getD url
  let markup := served page.fixture target
  { page with url := target, markup, document := .parse markup }

/-- The first element that a locator designates. -/
def resolve (page : Page) (locator : String) : Except Stop (Option Place) :=
  if page.fixture.broken.contains locator then
    .error (.refused (.session ("connection lost while resolving " ++ locator)))
  else if page.fixture.missing.contains locator then .ok none
  else
    match Locator.select page.document locator with
    | .error e => .error (.refused (.invalidLocator locator e.message))
    | .ok found => .ok found.head?

/-- Whether the element that a locator designates can be used. -/
def usable (page : Page) (locator : String) : Except Stop Unit :=
  match page.resolve locator with
  | .error stop => .error stop
  | .ok none => .error (.refused (.notFound locator))
  | .ok (some place) =>
    if visible place then .ok () else .error (.refused (.notInteractable locator))

/-- The page with a call in its journal. -/
def noted (page : Page) (call : Call) : Page :=
  { page with journal := call :: page.journal }

/-- The value last typed into what a locator designates. -/
def valueOf (page : Page) (locator : String) : Option String :=
  page.values.lookup locator

/-- Handles a call. -/
def handle : Server Page := fun call page =>
  match call with
  | .connect =>
    { reply := .ok ()
      state := { page with
        url := "about:blank", markup := "", document := .parse "",
        connects := page.connects + 1 } }
  | .openUrl url => { reply := .ok (), state := (page.noted (.openUrl url)).navigate url }
  | .fillText locator value =>
    let asked := page.noted (.fillText locator value)
    match page.usable locator with
    | .error stop => { reply := .error stop, state := asked }
    | .ok () =>
      { reply := .ok (), state := { asked with values := (locator, value) :: asked.values } }
  | .clickButton locator =>
    let asked := page.noted (.clickButton locator)
    match page.usable locator with
    | .error stop => { reply := .error stop, state := asked }
    | .ok () =>
      match page.fixture.clickTargets.lookup locator with
      | none => { reply := .ok (), state := asked }
      | some url => { reply := .ok (), state := asked.navigate url }
  | .wait milliseconds => { reply := .ok (), state := page.noted (.wait milliseconds) }
  | .currentUrl => { reply := .ok page.url, state := page }
  | .pageMarkup => { reply := .ok page.markup, state := page }
  | .isVisible locator =>
    { reply := (page.resolve locator).map (·.any visible), state := page }
  | .hasElement locator =>
    { reply := (page.resolve locator).map (·.isSome), state := page }
  | .saveScreenshot id => { reply := .ok (), state := page.noted (.saveScreenshot id) }
  | .solveCaptcha => { reply := .ok (), state := page.noted .solveCaptcha }
  | .disconnect =>
    { reply := .ok ()
      state := { page.noted .disconnect with disconnects := page.disconnects + 1 } }

end Page

end KeepAlive.Browser
