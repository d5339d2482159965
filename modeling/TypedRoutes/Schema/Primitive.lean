/-!
# Primitive types

The types without parts, as they are spelled and as schemas declare them.
-/

set_option autoImplicit false

namespace TypedRoutes

/-- The primitive types. -/
inductive Primitive where
  | string
  | number
  | boolean
  | null
  deriving DecidableEq, Repr

/-- The name of a primitive type. -/
def Primitive.name : Primitive → String
  | .string => "string"
  | .number => "number"
  | .boolean => "boolean"
  | .null => "null"

/-- The primitive type that a declared type name stands for; the integers are numbers. -/
def Primitive.ofTypeName? (name : String) : Option Primitive :=
  if name = "string" then some .string
  else if name = "number" ∨ name = "integer" then some .number
  else if name = "boolean" then some .boolean
  else if name = "null" then some .null
  else none

end TypedRoutes
