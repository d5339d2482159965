import TypedRoutes.Datum.Display
import TypedRoutes.Json.Writer

/-!
# Data as JSON

`Datum.toJson` turns data into a JSON value: pairs become arrays, atomic keys become names, and a
set, a date, a timestamp or bytes become the string of their plain text. It fails on a container
that holds itself, on a key that has no name, and on an integer beyond the limit on digits; of
several faults the first in reading order is reported.
-/

set_option autoImplicit false

namespace TypedRoutes

/-- Why a datum has no JSON form. -/
inductive UnwritableFault where
  | circular
  | key (key : Scalar)
  | digits (limit : DigitLimit)
  deriving DecidableEq, Repr

/-- What kind of value a scalar is. -/
def Scalar.kindName : Scalar → String
  | .null => "NoneType"
  | .bool _ => "bool"
  | .int _ => "int"
  | .float _ => "float"
  | .str _ => "str"
  | .bytes _ => "bytes"
  | .date _ => "datetime.date"
  | .timestamp _ => "datetime.datetime"

/-- The report of the fault. -/
def UnwritableFault.message : UnwritableFault → String
  | .circular => "Circular reference detected"
  | .key k => "keys must be str, int, float, bool or None, not " ++ k.kindName
  | .digits limit => limit.message

/-- Carries a conversion beyond the limit over. -/
def withinLimit {α : Type} : Except DigitLimit α → Except UnwritableFault α
  | .ok a => .ok a
  | .error limit => .error (.digits limit)

/-- The name that a key of a mapping becomes. -/
def Scalar.name : Scalar → Except UnwritableFault String
  | .null => .ok "null"
  | .bool b => .ok (if b then "true" else "false")
  | .int n => withinLimit (integerText n)
  | .float x => .ok (Json.floatText x)
  | .str s => .ok s
  | key => .error (.key key)

/-- The JSON form of a scalar. -/
def Scalar.toJson : Scalar → Except UnwritableFault Json
  | .null => .ok .null
  | .bool b => .ok (.bool b)
  | .int n => withinLimit ((integerText n).map fun _ => .int n)
  | .float x => .ok (.float x)
  | .str s => .ok (.str s)
  | s => withinLimit (s.text.map Json.str)

namespace Datum

/-- The JSON forms of the parts of a datum. -/
def jsonFold : Fold UnwritableFault Json where
  scalar := Scalar.toJson
  set members := withinLimit ((shownSet members).map Json.str)
  cycle _ := .error .circular
  key := Scalar.name
  pair first second := .array [first, second]
  list := Json.array
  map := Json.object

/-- The JSON form of a datum. -/
def toJson (d : Datum) : Except UnwritableFault Json := d.fold jsonFold

end Datum
end TypedRoutes
