import TypedRoutes.Text.Hex
import TypedRoutes.Text.Printable

/-!
# Quoted text

The form in which a text is shown inside a message or a container: between single quotes, or
between double quotes if it holds a single quote and no double one. The quote, the backslash and
what is not printable are escaped.
-/

set_option autoImplicit false

namespace TypedRoutes.Text

/-- The quote that encloses a text. -/
def enclosing (holdsSingle holdsDouble : Bool) : Char :=
  if holdsSingle && !holdsDouble then '"' else '\''

/-- A character between quotes. -/
def quotedChar (quote c : Char) : List Char :=
  if c = quote ∨ c = '\\' then ['\\', c]
  else if c = '\t' then ['\\', 't']
  else if c = '\n' then ['\\', 'n']
  else if c = '\r' then ['\\', 'r']
  else if isPrintable c then [c]
  else if c.toNat < 256 then '\\' :: 'x' :: hex 2 c.toNat
  else if c.toNat < 65536 then '\\' :: 'u' :: hex 4 c.toNat
  else '\\' :: 'U' :: hex 8 c.toNat

/-- A text between quotes. -/
def quoted (s : String) : String :=
  let cs := s.toList
  let quote := enclosing (cs.contains '\'') (cs.contains '"')
  String.ofList (quote :: cs.flatMap (quotedChar quote) ++ [quote])

/-- A byte between quotes. -/
def quotedByte (quote : Char) (b : UInt8) : List Char :=
  let c := Char.ofNat b.toNat
  if c = quote ∨ c = '\\' then ['\\', c]
  else if c = '\t' then ['\\', 't']
  else if c = '\n' then ['\\', 'n']
  else if c = '\r' then ['\\', 'r']
  else if 32 ≤ b.toNat ∧ b.toNat < 127 then [c]
  else '\\' :: 'x' :: hex 2 b.toNat

/-- Bytes between quotes, marked by a `b`. -/
def quotedBytes (bytes : List UInt8) : String :=
  let quote := enclosing (bytes.contains 39) (bytes.contains 34)
  String.ofList ('b' :: quote :: bytes.flatMap (quotedByte quote) ++ [quote])

example : quoted "a'b\n" = "\"a'b\\n\"" := by decide +kernel
example : quoted "\u00a0\"'" = "'\\xa0\"\\''" := by decide +kernel
example : quotedBytes [104, 105, 0] = "b'hi\\x00'" := by decide +kernel

end TypedRoutes.Text
