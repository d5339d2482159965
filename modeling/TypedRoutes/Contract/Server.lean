import TypedRoutes.Halt
import TypedRoutes.Limits

/-!
# Contracts of servers

A contract is fetched with one request. `Document.fetch` makes the request and takes the reply, from
which it has a JSON object or an error that names the URL, and the status if that is what tells of
the failure. A body that is nested too deep is no such error and breaks the fetching off, and so
does a request that cannot even be made. The settings of a request may be without a value.
`Document.ofServer` starts from these settings and notes the requests that are made.
-/

set_option autoImplicit false

namespace TypedRoutes

/-- A span of time in seconds: a whole number, or a fraction. -/
inductive Seconds where
  | whole (n : Int)
  | fraction (x : Binary64)
  deriving DecidableEq, Repr, Inhabited

/-- The text of a span of time. -/
def Seconds.text : Seconds → String
  | .whole n => decimalText n
  | .fraction x => x.text

/-- How a request is repeated when it fails. -/
structure RetryPolicy where
  /-- How often it is repeated at most. -/
  limit : Int
  /-- The factor of the pauses in between. -/
  backoff : Binary64
  /-- The statuses that count as failures. -/
  statuses : List Nat
  deriving DecidableEq, Repr, Inhabited

/-- Repeats a request up to some number of times: half a second is the factor of the pauses, and
errors of the server count as failures. -/
def RetryPolicy.upTo (limit : Int) : RetryPolicy where
  limit
  backoff := .ofDecimal false 5 (-1)
  statuses := [500, 502, 503, 504]

/-- The text of a setting. One without a value is shown as an empty list. -/
def settingText (setting : Option String) : String := setting.getD "[]"

/-- A request to a server. -/
structure Request where
  url : Option String
  timeout : Option Seconds
  retries : RetryPolicy
  deriving DecidableEq, Repr, Inhabited

/-- What comes of a request: no answer, or one with a status, the reason for it, and a body. A
request whose settings make no sense, such as a negative span of time, is broken off. -/
inductive Reply where
  | failed (report : String)
  | broken (report : String)
  | answered (status : Int) (reason : Option String) (body : String)
  deriving DecidableEq, Repr, Inhabited

/-- A server: its reply to every request. -/
abbrev Server := Request → Reply

namespace Reply

/-- Does a status tell of a failure? -/
def isFailure (status : Int) : Bool := 400 ≤ status && status < 600

/-- The reason for a failure. -/
def reasonText (reason : Option String) : String :=
  match reason.getD "" with
  | "" => "request failed"
  | text => text

/-- What is reported of a reply without a contract. -/
def fault (url detail : String) (status : Option Int) : Halt := .reported (.fetch detail url status)

/-- What ends the fetching where the body of an answer is not read. -/
def unread (url : String) : Json.ParseError → Halt
  | .nesting opened => .nesting opened
  | .unpaired half => .unpaired half
  | error => fault url ("Response is not valid JSON: " ++ error.message) none

/-- The document that a reply holds. -/
def document (limits : Limits) (url : String) : Reply → Except Halt Document
  | .failed report => .error (fault url report none)
  | .broken report => .error (.request report)
  | .answered status reason body =>
    if isFailure status then .error (fault url (reasonText reason) (some status))
    else match Json.parseWithin limits.json body with
      | .error error => .error (unread url error)
      | .ok (.object members) => .ok (.ofJson (.object members))
      | .ok _ => .error (fault url "Contract root must be a JSON object" none)

end Reply

/-- The time that a server is given, unless another is asked for. -/
def Seconds.default : Seconds := .fraction (.ofDecimal false 10 0)

/-- How often a request is repeated, unless asked otherwise. -/
def RetryPolicy.defaultLimit : Int := 3

namespace Request

/-- The URL of an endpoint. Where the base or the endpoint says nothing, it is the other one. -/
def address (base endpoint : Option String) : Except Url.Fault (Option String) :=
  if base.getD "" = "" then .ok endpoint
  else match endpoint with
    | none => .ok base
    | some endpoint => (Url.resolve (base.getD "") endpoint).map some

/-- The request for the contract of a server. -/
def forContract (base endpoint : Option String) (timeout : Option Seconds) (retries : Int) :
    Except Url.Fault Request :=
  (address base endpoint).map fun url => ⟨url, timeout, .upTo retries⟩

end Request

/-- The document that a server gives in reply to a request. -/
def Document.fetch (limits : Limits) (server : Server) (request : Request) :
    Except Halt Document :=
  (server request).document limits (request.url.getD "")

/-- The reply of a server to a request, which is noted after those made before. -/
def Server.ask (server : Server) (request : Request) : StateM (List Request) Reply := do
  modify (· ++ [request])
  return server request

/-- The document that the contract of a server is. Nothing is asked of the server if its address is
no URL. -/
def Document.ofServer (limits : Limits) (server : Server) (base endpoint : Option String)
    (timeout : Option Seconds) (retries : Int) : ExceptT Halt (StateM (List Request)) Document := do
  let request ← ofExcept
    ((Request.forContract base endpoint timeout retries).mapError Halt.url)
  let reply ← server.ask request
  ofExcept (reply.document limits (request.url.getD ""))

example : (Reply.answered 404 none "\x7b\x7d").document .usual "u" =
    .error (.reported (.fetch "request failed" "u" (some 404))) := by rfl

end TypedRoutes
