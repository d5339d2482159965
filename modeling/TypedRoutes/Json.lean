import TypedRoutes.Number.Binary64

/-!
# JSON values

A JSON value keeps integers apart from other numbers and keeps the members of an object in order.
`Json.Reader` reads a text, `Json.Writer` writes one.
-/

set_option autoImplicit false

namespace TypedRoutes

/-- A JSON value. The numbers may also be `NaN` and the infinities, which the format of the texts
here includes. -/
inductive Json where
  | null
  | bool (value : Bool)
  | int (value : Int)
  | float (value : Binary64)
  | str (value : String)
  | array (items : List Json)
  | object (members : List (String × Json))
  deriving Repr, Inhabited

end TypedRoutes
