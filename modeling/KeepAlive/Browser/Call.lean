import KeepAlive.Json.Value
import KeepAlive.Text.Quoted

/-!
# What a browser can be asked

Everything that touches a browser goes through these calls.  A call is answered, refused for a
reason, or breaks off the program that made it.
-/

namespace KeepAlive.Browser

/-- One request to a browser session, or for one. -/
inductive Call
  | connect
  | openUrl (url : String)
  | fillText (locator value : String)
  | clickButton (locator : String)
  | wait (milliseconds : Nat)
  | currentUrl
  | pageMarkup
  | isVisible (locator : String)
  | hasElement (locator : String)
  | saveScreenshot (id : String)
  | solveCaptcha
  | disconnect
  deriving DecidableEq, Repr

/-- The kind of answer to a call. -/
abbrev Call.Answer : Call → Type
  | .currentUrl => String
  | .pageMarkup => String
  | .isVisible _ => Bool
  | .hasElement _ => Bool
  | _ => Unit

/-- The method that a call calls. -/
def Call.method : Call → String
  | .connect => "connect"
  | .openUrl _ => "open_url"
  | .fillText .. => "fill_text"
  | .clickButton _ => "click_button"
  | .wait _ => "wait"
  | .currentUrl => "get_current_url"
  | .pageMarkup => "get_page_html"
  | .isVisible _ => "is_element_visible"
  | .hasElement _ => "find_element"
  | .saveScreenshot _ => "save_screenshot"
  | .solveCaptcha => "solve_captcha"
  | .disconnect => "disconnect"

/-- What a call is called with. -/
def Call.operands : Call → List Json
  | .openUrl url => [.text url]
  | .fillText locator value => [.text locator, .text value]
  | .clickButton locator | .isVisible locator | .hasElement locator => [.text locator]
  | .wait milliseconds => [.nat milliseconds]
  | .saveScreenshot id => [.text id]
  | .connect | .currentUrl | .pageMarkup | .solveCaptcha | .disconnect => []

/-- A call as the list of its method and its operands. -/
def Call.toJson (call : Call) : Json :=
  .array (.text call.method :: call.operands)

/-- Why a browser does not do what it is asked. -/
inductive Refusal
  | notFound (locator : String)
  | notInteractable (locator : String)
  | invalidLocator (locator reason : String)
  | session (reason : String)
  | other (reason : String)
  deriving DecidableEq, Repr

namespace Refusal

/-- The sentence for a refusal. -/
def message : Refusal → String
  | .notFound locator => "element " ++ Text.quoted locator ++ " not found on page"
  | .notInteractable locator => "element " ++ Text.quoted locator ++ " is not interactable"
  | .invalidLocator locator reason =>
    "invalid locator " ++ Text.quoted locator ++ ": " ++ reason
  | .session reason => "browser session error: " ++ reason
  | .other reason => reason

/-- Whether the trouble is with the element that is meant, not with the session. -/
def isLocatorFailure : Refusal → Bool
  | .notFound _ | .notInteractable _ | .invalidLocator _ _ => true
  | .session _ | .other _ => false

end Refusal

/-- Why a call has no answer. -/
inductive Stop
  | refused (refusal : Refusal)
  | crashed (reason : String)
  deriving DecidableEq, Repr

end KeepAlive.Browser
