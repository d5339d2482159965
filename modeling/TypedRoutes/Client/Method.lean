import TypedRoutes.Contract
import TypedRoutes.Schema.TypeText

/-!
# Methods of the client

How one route is written: as a descriptor in the contract type, which lists its types, and as the
signature of the function that calls it. Both take their types from `slotText?`, so they agree on
them.
-/

set_option autoImplicit false

namespace TypedRoutes

/-- The padding of a nesting level; levels below zero have none. -/
def padding (level : Int) : String := String.ofList (List.replicate (2 * level.toNat) ' ')

/-- Lines as one text. -/
def lines (parts : List String) : String := "\n".intercalate parts

/-- The type of a result that has no schema. -/
def anyText : String := "any"

/-- The text of the type in a slot, if it is supplied. -/
def slotText? : Option Schema → Except UnwritableFault (Option String)
  | none => .ok none
  | some schema => schema.typeText.map some

namespace Route

/-- The type of the result of a route. -/
def resultText (r : Route) : Except UnwritableFault String :=
  (slotText? r.slots.response).map fun text => text.getD anyText

/-- The fields of a descriptor: the slots that are supplied, and the result. -/
def descriptorFields (r : Route) : Except UnwritableFault (List String) := do
  let query ← slotText? r.slots.query
  let body ← slotText? r.slots.body
  let params ← slotText? r.slots.params
  let result ← r.resultText
  return (query.map ("query: " ++ ·)).toList ++ (body.map ("body: " ++ ·)).toList ++
    (params.map ("params: " ++ ·)).toList ++ ["return: " ++ result]

/-- Fields as a descriptor whose entry stands at a level: a lone field on one line, several on a
line each, with the closing brace below the entry. -/
def layOutFields (level : Int) : List String → String
  | [field] => "\x7b " ++ field ++ " \x7d"
  | fields =>
    lines (["\x7b"] ++ fields.map (padding (level + 1) ++ ·) ++ [padding level ++ "\x7d"])

/-- The descriptor of a route whose entry stands at a level. -/
def descriptor (r : Route) (level : Int) : Except UnwritableFault String :=
  r.descriptorFields.map (layOutFields level)

/-- The parameters of a call: a streaming one has to be given its query and the callbacks, another
one may be given a query and a configuration. Parameters of the path are not among them. -/
def parameters (streaming : Bool) (body query : Option String) (result : String) : List String :=
  (body.map ("body: " ++ ·)).toList ++
    if streaming then
      (query.map ("query: " ++ ·)).toList ++
        ["callbacks: SSECallbacks<" ++ result ++ ">", "options?: SSESubscribeOptions"]
    else (query.map ("query?: " ++ ·)).toList ++ ["config?: RequestConfig"]

/-- What a call gives: a subscription, or the promise of a response. -/
def callResult (streaming : Bool) (result : String) : String :=
  if streaming then "SSESubscription<" ++ result ++ ">"
  else "Promise<ApiResponse<" ++ result ++ ">>"

/-- The signature of a route. -/
def signature (r : Route) : Except UnwritableFault String := do
  let result ← r.resultText
  let body ← slotText? r.slots.body
  let query ← slotText? r.slots.query
  return "(" ++ ", ".intercalate (parameters r.streaming body query result) ++ ") => " ++
    callResult r.streaming result

end Route
end TypedRoutes
