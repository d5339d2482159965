import TypedRoutes.Schema
import TypedRoutes.Text.LowerCase

/-!
# Contracts

A contract lists the routes of a server: where each one is, how it is called, and the schemas of
what it takes and gives. `ContractError` is what is reported when a contract cannot be had, and
`ContractError.message` is its whole text.
-/

set_option autoImplicit false

namespace TypedRoutes

/-- The schemas of a route; a slot that the contract does not supply is `none`. -/
structure RouteSlots where
  body : Option Schema
  query : Option Schema
  params : Option Schema
  response : Option Schema
  deriving Repr, Inhabited

/-- The slots of a route without schemas. -/
def RouteSlots.empty : RouteSlots := ⟨none, none, none, none⟩

/-- A route. A streaming route answers with a stream of events. -/
structure Route where
  method : String
  path : String
  name : Option String
  description : Option String
  streaming : Bool
  slots : RouteSlots
  deriving Repr, Inhabited

/-- The method of a route in lower case. -/
def Route.methodKey (r : Route) : String := Text.lowerCase r.method

/-- A contract. -/
structure Contract where
  version : String
  generatedAt : String
  routes : List Route
  deriving Repr, Inhabited

/-- Does some route of the contract stream? -/
def Contract.isStreaming (c : Contract) : Bool := c.routes.any Route.streaming

/-- Why there is no contract: a plain error, a document of the wrong shape, or a server that did
not give one. -/
inductive ContractError where
  | general (detail : String) (source : Option String)
  | invalid (detail : String) (source : Option String) (field : Option String)
  | fetch (detail : String) (url : String) (status : Option Int)
  deriving DecidableEq, Repr

namespace ContractError

/-- Where the contract should have come from. -/
def source : ContractError → Option String
  | .general _ source | .invalid _ source _ => source
  | .fetch _ url _ => some url

/-- What went wrong, with the field or the status that it is about. -/
def body : ContractError → String
  | .general detail _ => detail
  | .invalid detail _ none => detail
  | .invalid detail _ (some field) =>
    if field.isEmpty then detail else "Field '" ++ field ++ "': " ++ detail
  | .fetch detail _ none => detail
  | .fetch detail _ (some status) => "HTTP " ++ decimalText status ++ ": " ++ detail

/-- The text of an error, led by its source in brackets unless that is unknown or empty. -/
def message (e : ContractError) : String :=
  match e.source with
  | none => e.body
  | some source => if source.isEmpty then e.body else "[" ++ source ++ "] " ++ e.body

end ContractError

example : (ContractError.invalid "must be a list" (some "c.json") (some "routes")).message =
    "[c.json] Field 'routes': must be a list" := by decide +kernel

end TypedRoutes
