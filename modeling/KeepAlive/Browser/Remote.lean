import KeepAlive.Browser.Dialogue
import KeepAlive.Browser.Folder
import KeepAlive.Browser.Wire
import KeepAlive.Config
import KeepAlive.Text.Base64

/-!
# A browser at the other end of a wire

Calls become requests: a session is opened, and everything else goes to the session that was opened
last.  Elements are located anew for every action.  A refusal is about an element only if the request
was about a locator.
-/

namespace KeepAlive.Browser

open Wire

/-- A remote browser: how it is reached, its current session and what it has sent home. -/
structure Remote (σ : Type) where
  settings : Config.Driver
  peer : σ
  /-- The address of the current session. -/
  session : Option String := none
  screenshots : Folder

namespace Remote

/-- The member that holds an element's id. -/
def elementKey : String := "element-6066-11e4-a52e-4f735466cecf"

/-- What a failure means when a locator was meant, or none. -/
def refusalOf (locator : Option String) : Failure → Refusal
  | .lost reason => .other reason
  | .refused error message =>
    let unrelated := Refusal.session (error ++ ": " ++ message)
    match locator with
    | none => unrelated
    | some locator =>
      if error = "no such element" || error = "stale element reference" then .notFound locator
      else if error = "element not interactable" || error = "element click intercepted" then
        .notInteractable locator
      else if error = "invalid selector" then .invalidLocator locator message
      else unrelated

/-- A failure that has nothing to do with an element is the session's. -/
theorem isLocatorFailure_refusalOf_none (failure : Failure) :
    (refusalOf none failure).isLocatorFailure = false := by
  cases failure <;> rfl

/-- What a session is to be capable of. -/
def capabilities (browser : String) (headless : Bool) : Json :=
  let options :=
    if !headless then []
    else if browser = "chrome" || browser = "chromium" then
      [("goog:chromeOptions", Json.object [("args", .array [.text "--headless=new"])])]
    else [("moz:firefoxOptions", Json.object [("args", .array [.text "-headless"])])]
  .object [("capabilities",
    .object [("alwaysMatch", .object (("browserName", .text browser) :: options))])]

/-- The address under which sessions are opened. -/
def sessionsAddress (settings : Config.Driver) : String :=
  String.ofList (settings.webdriverUrl.toList.reverse.dropWhile (· = '/')).reverse ++ "/session"

/-- Work with a remote browser that may be refused. -/
abbrev Work (σ : Type) : Type → Type :=
  ExceptT Refusal (StateM (Remote σ))

/-- The id of the element that a value stands for. -/
def elementId? (value : Json) : Option String :=
  (value.member elementKey).text?

/-- What a locator is sent as. -/
def query (locator : String) : Json :=
  .object [("using", .text "xpath"), ("value", .text locator)]

section

variable {σ : Type} (peer : Peer σ)

/-- Sends a request and reads the reply. -/
def send (request : Request) (locator : Option String) : Work σ Json := do
  let remote ← get
  let (reply, after) := peer request remote.peer
  set { remote with peer := after }
  match reply.result request.address with
  | .ok value => return value
  | .error failure => throw (refusalOf locator failure)

/-- Opens a session, which becomes the current one. -/
def connect : Work σ Unit := do
  let settings := (← get).settings
  let address := sessionsAddress settings
  let value ← send peer
    ⟨.post, address, some (capabilities settings.browser settings.headless)⟩ none
  match (value.member "sessionId").text? with
  | none => throw (.session "new session response carried no id")
  | some id => modify fun remote => { remote with session := some (address ++ "/" ++ id) }

/-- Sends a request to the current session. -/
def request (method : Method) (path : String) (value : Option Json)
    (locator : Option String) : Work σ Json := do
  match (← get).session with
  | none => throw (.session "no session is open")
  | some session => send peer ⟨method, session ++ path, value⟩ locator

/-- The id of the element that a locator designates. -/
def element (locator : String) : Work σ String := do
  let value ← request peer .post "/element" (some (query locator)) (some locator)
  match elementId? value with
  | none => throw (.notFound locator)
  | some id => return id

/-- The ids of the elements that a locator designates. -/
def elements (locator : String) : Work σ (List String) := do
  let value ← request peer .post "/elements" (some (query locator)) (some locator)
  return ((value.array?).getD []).filterMap elementId?

/-- Does something to the element that a locator designates. -/
def act (locator action : String) (value : Json) : Work σ Unit := do
  let id ← element peer locator
  let _ ← request peer .post ("/element/" ++ id ++ "/" ++ action) (some value) (some locator)
  return ()

/-- A text that the session is asked for, empty if it is none. -/
def textAt (path : String) : Work σ String := do
  return ((← request peer .get path none none).text?).getD ""

/-- Whether the first element that a locator designates is displayed. -/
def displayed (locator : String) : Work σ Bool := do
  match ← elements peer locator with
  | [] => return false
  | id :: _ =>
    let shown ← request peer .get ("/element/" ++ id ++ "/displayed") none (some locator)
    return (shown.bool?).getD false

/-- Keeps a picture of the page. -/
def keepScreenshot (id : String) : Work σ Unit := do
  let written ← textAt peer "/screenshot"
  match Text.Base64.decode written.toList with
  | none => throw (.other "screenshot payload is not base64")
  | some content =>
    let remote ← get
    match remote.screenshots.keep id content with
    | .error reason => throw (.other reason)
    | .ok folder => set { remote with screenshots := folder }

/-- What a call makes of a remote browser. -/
def work : (call : Call) → Work σ call.Answer
  | .connect => connect peer
  | .openUrl url => do
    let _ ← request peer .post "/url" (some (.object [("url", .text url)])) none
    return ()
  | .fillText locator value => do
    act peer locator "clear" (.object [])
    act peer locator "value" (.object [("text", .text value)])
  | .clickButton locator => act peer locator "click" (.object [])
  | .wait _ => return ()
  | .currentUrl => textAt peer "/url"
  | .pageMarkup => textAt peer "/source"
  | .isVisible locator => displayed peer locator
  | .hasElement locator => return !(← elements peer locator).isEmpty
  | .saveScreenshot id => keepScreenshot peer id
  | .solveCaptcha => return ()
  | .disconnect => do
    let _ ← request peer .delete "" none none
    return ()

/-- Handles a call. -/
def handle : Server (Remote σ) := fun call remote =>
  let (reply, after) := (work peer call).run.run remote
  { reply := reply.mapError .refused
    state := after
    took := match call with
      | .wait milliseconds => milliseconds
      | _ => 0 }

end

end Remote

end KeepAlive.Browser
