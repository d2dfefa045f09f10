import KeepAlive.Browser.Page

/-!
# Planned trouble

A browser over fixed pages in which certain calls fail as planned before they reach the pages, and in
which a dismissed challenge may lead to another page.
-/

namespace KeepAlive.Browser

/-- A call that is to fail: the `nth` of its method, from 1. -/
structure Trouble where
  method : String
  nth : Nat
  stop : Stop
  deriving Repr

/-- What is to go wrong. -/
structure Plan where
  troubles : List Trouble := []
  /-- Where each dismissed challenge leads, if anywhere. -/
  afterCaptcha : List (Option String) := []
  deriving Repr, Inhabited

/-- A page with a plan, and the methods called so far. -/
structure Planned where
  page : Page
  plan : Plan
  called : List String := []
  captchas : Nat := 0

namespace Planned

/-- Handles a call as planned. -/
def handle : Server Planned := fun call planned =>
  let nth := planned.called.count call.method + 1
  let counted := { planned with called := call.method :: planned.called }
  match planned.plan.troubles.find? fun t => t.method = call.method && t.nth = nth with
  | some trouble => { reply := .error trouble.stop, state := counted }
  | none =>
    let handled := Page.handle call planned.page
    let served := { counted with page := handled.state }
    if call = .solveCaptcha then
      let after := match planned.plan.afterCaptcha[planned.captchas]? with
        | some (some url) => (Page.handle (.openUrl url) handled.state).state
        | _ => handled.state
      { reply := handled.reply
        state := { served with page := after, captchas := planned.captchas + 1 } }
    else { reply := handled.reply, state := served }

end Planned

end KeepAlive.Browser
