import TypedRoutes.PropertyKey
import TypedRoutes.Schema

/-!
# The text of types

A schema as a TypeScript type. Unions are joined by ` | ` and intersections by ` & `, an array is
marked by `[]` after the text of its items, and literals are JSON text. Texts are joined as they
are: no brackets are put around an operand.
-/

set_option autoImplicit false

namespace TypedRoutes.Schema

/-- The type of which nothing is known. -/
def unknownText : String := "unknown"

/-- The type without values, which a union without members is. -/
def neverText : String := "never"

/-- The texts of literal types. -/
def literalTexts : List Literal → Except UnwritableFault (List String)
  | [] => .ok []
  | value :: rest => do
    let first ← value.text.get
    let others ← literalTexts rest
    return first :: others

/-- Texts joined by a separator, or the text for none. -/
def joined (separator empty : String) (parts : List String) : String :=
  if parts.isEmpty then empty else separator.intercalate parts

/-- An array type. -/
def arrayText (items : String) : String := items ++ "[]"

/-- The type of a mapping from strings. -/
def recordText (value : String) : String := "Record<string, " ++ value ++ ">"

/-- A field of an object type; one that is not required has a question mark. -/
def fieldText (name : String) (required : Bool) (type : String) : String :=
  PropertyKey.text name ++ (if required then "" else "?") ++ ": " ++ type

/-- An object type. -/
def objectText (fields : List String) : String := "\x7b " ++ "; ".intercalate fields ++ " \x7d"

mutual

/-- The text of the type that a schema is. -/
def typeText : Schema → Except UnwritableFault String
  | .primitive kind => .ok kind.name
  | .literal value => value.text.get
  | .enumeration values => (literalTexts values).map (joined " | " neverText)
  | .array none => .ok (arrayText unknownText)
  | .array (some items) => items.typeText.map arrayText
  | .fields properties required => (fieldTexts required properties).map objectText
  | .record value => value.typeText.map recordText
  | .union _ members => (typeTexts members).map (joined " | " neverText)
  | .intersection members => (typeTexts members).map (joined " & " unknownText)
  | .unknown => .ok unknownText

/-- The texts of several types. -/
def typeTexts : List Schema → Except UnwritableFault (List String)
  | [] => .ok []
  | member :: rest => do
    let first ← member.typeText
    let others ← typeTexts rest
    return first :: others

/-- The fields of an object type. -/
def fieldTexts (required : List String) :
    List (String × Schema) → Except UnwritableFault (List String)
  | [] => .ok []
  | (name, schema) :: rest => do
    let type ← schema.typeText
    let others ← fieldTexts required rest
    return fieldText name (required.contains name) type :: others

end

end TypedRoutes.Schema
