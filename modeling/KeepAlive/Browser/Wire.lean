import KeepAlive.Json.Reader
import KeepAlive.Json.Writer
import KeepAlive.Text.Search

/-!
# Requests over a wire

A remote browser is asked by requests of a method, an address and perhaps a value.  What a reply
means depends on its status and on the value in it.
-/

namespace KeepAlive.Browser.Wire

/-- What is to be done with what an address names. -/
inductive Method
  | get
  | post
  | delete
  deriving DecidableEq, Repr

/-- The method's name. -/
def Method.name : Method → String
  | .get => "GET"
  | .post => "POST"
  | .delete => "DELETE"

/-- One request. -/
structure Request where
  method : Method
  address : String
  value : Option Json := none
  deriving Repr

/-- What comes back. -/
inductive Reply
  | closed
  | answered (status : Nat) (body : String)
  deriving DecidableEq, Repr

/-- The other end of the wire. -/
abbrev Peer (σ : Type) : Type :=
  Request → σ → Reply × σ

/-- Why a request has no result. -/
inductive Failure
  /-- The browser refuses and says why. -/
  | refused (error message : String)
  /-- There is no answer, or none that can be read. -/
  | lost (reason : String)
  deriving DecidableEq, Repr

/-- Replies with these statuses have no body, whatever follows. -/
def bodiless : List Nat := [101, 204, 304]

/-- Whether a status says that the request was granted. -/
def granted (status : Nat) : Bool :=
  200 ≤ status && status < 300

/-- Whether a number can be the status of a reply; those below 200 announce another reply, save the
one that changes the protocol. -/
def isStatus (status : Nat) : Bool :=
  status = 101 || (200 ≤ status && status < 1000)

/-- The failure when there is no answer. -/
def unanswered (address : String) : Failure :=
  .lost ("WebDriver request to " ++ address ++ " failed")

/-- What a reply to a request to the address says. -/
def Reply.result (address : String) : Reply → Except Failure Json
  | .closed => .error (unanswered address)
  | .answered status body =>
    if !isStatus status then .error (unanswered address)
    else
      match Json.read? (if bodiless.contains status then "" else body) with
      | none => .error (.lost "WebDriver returned a non-JSON body")
      | some payload =>
        let value := payload.member "value"
        if granted status then .ok value
        else
          .error (.refused (((value.member "error").text?).getD "unknown error")
            (((value.member "message").text?).getD ""))

/-! ## What a request line holds -/

/-- Whether a character of a path, or of a query if `inQuery`, is spelled with percent signs. -/
def isSpelled (inQuery : Bool) (c : Char) : Bool :=
  c.toNat ≤ 32 || 127 ≤ c.toNat || "\"#<>".contains c ||
    (if inQuery then c = '\'' else "?\x60\x7b\x7d".contains c)

/-- A byte spelled with a percent sign. -/
def spelledByte (byte : UInt8) : String :=
  let digits := (Nat.toDigits 16 byte.toNat).map Char.toUpper
  "%" ++ String.ofList (List.replicate (2 - digits.length) '0' ++ digits)

/-- A part of an address with percent signs where they are needed. -/
def spelled (inQuery : Bool) (s : List Char) : String :=
  String.join (s.map fun c =>
    if isSpelled inQuery c then String.join ((String.singleton c).toUTF8.toList.map spelledByte)
    else String.singleton c)

/-- Whether a character ends a segment of a path; a backslash is as good as a slash. -/
def isSlash (c : Char) : Bool :=
  c = '/' || c = '\\'

/-- Whether a segment means that of the given number of dots, one or two. -/
def isDots (count : Nat) (segment : List Char) : Bool :=
  dots segment = some count
where
  dots : List Char → Option Nat
    | [] => some 0
    | '.' :: rest => (dots rest).map (· + 1)
    | '%' :: '2' :: 'e' :: rest => (dots rest).map (· + 1)
    | '%' :: '2' :: 'E' :: rest => (dots rest).map (· + 1)
    | _ => none

/-- The segments that are left when those of dots are followed, with the last one in front. -/
def followed : List (List Char) → List (List Char) → List (List Char)
  | [], before => before
  | segment :: rest, before =>
    let last := if rest.isEmpty then [[]] else []
    if isDots 1 segment then followed rest (last ++ before)
    else if isDots 2 segment then followed rest (last ++ before.drop 1)
    else followed rest (segment :: before)

/-- What stands on the request line for what follows the host in an address; none if the address
does not name that host. -/
def target? (afterHost : String) : Option String :=
  let s := afterHost.toList.filter fun c => !"\t\n\r".contains c
  let s := (s.reverse.dropWhile fun c => c.toNat ≤ 32).reverse
  let s := s.takeWhile (· ≠ '#')
  let query := match s.dropWhile (· ≠ '?') with
    | [] => ""
    | _ :: query => "?" ++ spelled true query
  match s.takeWhile (· ≠ '?') with
  | [] => some ("/" ++ query)
  | first :: path =>
    if isSlash first then
      let left := (followed (Text.parts isSlash path) []).reverse
      some (String.join (left.map fun segment => "/" ++ spelled false segment) ++ query)
    else none

end KeepAlive.Browser.Wire
