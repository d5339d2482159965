import TypedRoutes.Json
import TypedRoutes.Number.Shortest

/-!
# Writing JSON

One line, with a blank after every comma and colon. Characters beyond ASCII stand for themselves;
quotes, backslashes and control characters are escaped.
-/

set_option autoImplicit false

namespace TypedRoutes.Json

/-- A hexadecimal digit. -/
def hexDigit (n : Nat) : Char := Nat.digitChar n

/-- A character inside quotes. -/
def quotedChar (c : Char) : List Char :=
  if c = '"' then ['\\', '"']
  else if c = '\\' then ['\\', '\\']
  else if c = '\n' then ['\\', 'n']
  else if c = '\r' then ['\\', 'r']
  else if c = '\t' then ['\\', 't']
  else if c = '\x0c' then ['\\', 'f']
  else if c = '\x08' then ['\\', 'b']
  else if c.toNat < 32 then ['\\', 'u', '0', '0', hexDigit (c.toNat / 16), hexDigit (c.toNat % 16)]
  else [c]

/-- A text between quotes. -/
def quoted (s : String) : String :=
  String.ofList ('"' :: s.toList.flatMap quotedChar ++ ['"'])

/-- Numbers in JSON are laid out as in plain text, but the values without digits are words of
their own. -/
def floatLayout : Layout := { Binary64.layout with nanText := "NaN", infinityText := "Infinity" }

/-- The text of a number that is not an integer. -/
def floatText (x : Binary64) : String := floatLayout.write x

mutual

/-- The text of a JSON value. -/
def write : Json → String
  | .null => "null"
  | .bool b => if b then "true" else "false"
  | .int n => decimalText n
  | .float x => floatText x
  | .str s => quoted s
  | .array items => "[" ++ ", ".intercalate (writeItems items) ++ "]"
  | .object members => "\x7b" ++ ", ".intercalate (writeMembers members) ++ "\x7d"

/-- The texts of the items of an array. -/
def writeItems : List Json → List String
  | [] => []
  | item :: rest => item.write :: writeItems rest

/-- The texts of the members of an object. -/
def writeMembers : List (String × Json) → List String
  | [] => []
  | (name, value) :: rest => (quoted name ++ ": " ++ value.write) :: writeMembers rest

end

example : write (.object [("a\n", .array [.int (-1), .float .nan, .null]), ("é", .str "\x01")]) =
    "\x7b\"a\\n\": [-1, NaN, null], \"é\": \"\\u0001\"\x7d" := by decide +kernel

end TypedRoutes.Json
