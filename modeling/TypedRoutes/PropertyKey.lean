/-!
# Property keys

The keys of TypeScript object types. A plain identifier stands bare; any other key stands between
single quotes, in which the quote and the backslash are escaped by a backslash.
-/

set_option autoImplicit false

namespace TypedRoutes.PropertyKey

/-- The characters of plain identifiers; only ASCII counts. -/
def isNameChar (c : Char) : Bool := c.isAlphanum || c = '_' || c = '$'

/-- Is the key a plain identifier: not empty, of name characters only, not led by a digit? -/
def isPlain : List Char → Bool
  | [] => false
  | c :: rest => !c.isDigit && isNameChar c && rest.all isNameChar

/-- A text in which other characters stand for every occurrence of one. -/
def replaced (old : Char) (new cs : List Char) : List Char :=
  cs.flatMap fun c => if c = old then new else [c]

/-- A key between single quotes. The backslashes are escaped before the quotes, so those that escape
a quote stay single. -/
def quote (key : List Char) : List Char :=
  '\'' :: replaced '\'' ['\\', '\''] (replaced '\\' ['\\', '\\'] key) ++ ['\'']

/-- A key as it is written. -/
def encode (key : List Char) : List Char := if isPlain key then key else quote key

/-- Can the key stand bare? -/
def isIdentifier (key : String) : Bool := isPlain key.toList

/-- The text of a key. -/
def text (key : String) : String := String.ofList (encode key.toList)

theorem toList_text (key : String) : (text key).toList = encode key.toList := by
  simp [text]

example : text "users" = "users" := by decide
example : text ":id" = "':id'" := by decide
example : text "2fa" = "'2fa'" := by decide
example : text "it's\\" = "'it\\'s\\\\'" := by decide

end TypedRoutes.PropertyKey
