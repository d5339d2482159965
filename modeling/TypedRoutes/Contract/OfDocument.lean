import TypedRoutes.Contract
import TypedRoutes.Document.Display
import TypedRoutes.Schema.OfDocument

/-!
# Decoding contracts

A document is a contract if it is a mapping whose `routes`, if there, are a list of mappings with a
string `method`, a string `path` and, if there, a boolean `sse`. `Contract.ofDocument` decodes it or
reports the first fault in document order. Everything else may have any form: a name or a
description that is no string is left out, and the version may be any value.
-/

set_option autoImplicit false

namespace TypedRoutes

/-- What is wrong with an entry of the list of routes. -/
inductive RouteFault where
  | notMapping
  | method
  | path
  | streaming
  deriving DecidableEq, Repr

/-- What is wrong with the shape of a contract document. -/
inductive ContractFault where
  | notMapping
  | routes
  | route (index : Int) (fault : RouteFault)
  deriving DecidableEq, Repr

/-- What the entry should have been. -/
def RouteFault.detail : RouteFault → String
  | .notMapping => "route must be a mapping"
  | .method | .path => "must be a string"
  | .streaming => "must be a boolean"

/-- The part of the entry that is at fault. -/
def RouteFault.suffix : RouteFault → String
  | .notMapping => ""
  | .method => ".method"
  | .path => ".path"
  | .streaming => ".sse"

namespace ContractFault

/-- What the document should have been. -/
def detail : ContractFault → String
  | .notMapping => "contract root must be a mapping"
  | .routes => "must be a list"
  | .route _ fault => fault.detail

/-- The field that is at fault; the root has no name. -/
def field : ContractFault → Option String
  | .notMapping => none
  | .routes => some "routes"
  | .route index fault => some ("routes[" ++ decimalText index ++ "]" ++ fault.suffix)

/-- The error that reports a fault. -/
def toError (fault : ContractFault) (source : Option String) : ContractError :=
  .invalid fault.detail source fault.field

end ContractFault

/-- Why a document gives no contract: its shape, or an integer beyond the limit on digits where a
text is needed. -/
inductive ContractStop where
  | fault (fault : ContractFault)
  | digits (limit : DigitLimit)
  deriving DecidableEq, Repr

/-- Carries a conversion beyond the limit over. -/
def ContractStop.lift {α : Type} : Except DigitLimit α → Except ContractStop α
  | .ok a => .ok a
  | .error limit => .error (.digits limit)

/-- Is a slot supplied? Any mapping supplies it, and so does any other value that is not blank. -/
def isSupplied {α : Type} : Shape α → Bool
  | .scalar s => !s.isBlank
  | .set members => !members.isEmpty
  | .list items => !items.isEmpty
  | .pair _ _ | .map _ | .cycle => true

namespace RouteSlots

variable (doc : Document)

/-- Decodes one slot of a mapping of schemas. -/
def slot? (keyword : String) (entries : List (Scalar × Document.Value)) :
    Except DigitLimit (Option Schema) :=
  match field? keyword entries with
  | none => .ok none
  | some v => if isSupplied (doc.shape v) then (Schema.ofDocument doc v).map some else .ok none

/-- Decodes the schemas of a route. Anything but a mapping supplies none. -/
def ofDocument (schema : Option Document.Value) : Except DigitLimit RouteSlots :=
  match schema.map doc.shape with
  | some (.map entries) => do
    let body ← slot? doc "body" entries
    let query ← slot? doc "query" entries
    let params ← slot? doc "params" entries
    let response ← slot? doc "response" entries
    return ⟨body, query, params, response⟩
  | _ => .ok .empty

end RouteSlots

namespace Route

variable (doc : Document)

/-- The string under a key, or nothing if there is no string. -/
def stringAt? (key : String) (entries : List (Scalar × Document.Value)) : Option String :=
  (field? key entries).bind (Schema.string? doc.shape)

/-- The streaming flag, false if it is absent; nothing if it is no boolean. -/
def streaming? (entries : List (Scalar × Document.Value)) : Option Bool :=
  match (field? "sse" entries).map doc.shape with
  | none => some false
  | some (.scalar (.bool b)) => some b
  | some _ => none

/-- Decodes an entry of the list of routes. -/
def ofDocument (index : Int) (v : Document.Value) : Except ContractStop Route :=
  match doc.shape v with
  | .map entries =>
    match stringAt? doc "method" entries, stringAt? doc "path" entries,
        streaming? doc entries with
    | none, _, _ => .error (.fault (.route index .method))
    | _, none, _ => .error (.fault (.route index .path))
    | _, _, none => .error (.fault (.route index .streaming))
    | some method, some path, some streaming => do
      let slots ← ContractStop.lift (RouteSlots.ofDocument doc (field? "schema" entries))
      return {
        method, path, streaming, slots
        name := stringAt? doc "name" entries
        description := stringAt? doc "description" entries }
  | _ => .error (.fault (.route index .notMapping))

/-- Decodes the entries of the list of routes, of which the first has the given index. -/
def listOfDocument (index : Int) : List Document.Value → Except ContractStop (List Route)
  | [] => .ok []
  | v :: rest => do
    let route ← ofDocument doc index v
    let others ← listOfDocument (index + 1) rest
    return route :: others

end Route

namespace Contract

variable (doc : Document)

/-- The plain text under a key, empty if the key is absent. -/
def textAt (key : String) (entries : List (Scalar × Document.Value)) : Except DigitLimit String :=
  match field? key entries with
  | none => .ok ""
  | some v => doc.text v

/-- The entries of the list of routes; nothing if there is something else in its place. -/
def routeValues? (entries : List (Scalar × Document.Value)) : Option (List Document.Value) :=
  match (field? "routes" entries).map doc.shape with
  | none => some []
  | some (.list items) => some items
  | some _ => none

/-- Decodes the contract that a document is. -/
def ofDocument : Except ContractStop Contract :=
  match doc.shape doc.root with
  | .map entries =>
    match routeValues? doc entries with
    | none => .error (.fault .routes)
    | some values => do
      let version ← ContractStop.lift (textAt doc "version" entries)
      let generatedAt ← ContractStop.lift (textAt doc "generatedAt" entries)
      let routes ← Route.listOfDocument doc 0 values
      return { version, generatedAt, routes }
  | _ => .error (.fault .notMapping)

end Contract
end TypedRoutes
