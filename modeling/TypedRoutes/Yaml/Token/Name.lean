import TypedRoutes.Text.Hex
import TypedRoutes.Text.Utf8
import TypedRoutes.Yaml.Cursor
import TypedRoutes.Yaml.Fault
import TypedRoutes.Yaml.Token

/-!
# Names in YAML texts

Anchors and aliases, tags, and directives: the tokens that are names and refer to nodes, to types
and to the text itself.
-/

set_option autoImplicit false

namespace TypedRoutes.Yaml.Name

/-- The characters that may follow the name of an anchor or an alias, besides a gap. -/
def anchorDelimiters : List Char := ['?', ':', ',', ']', '}', '%', '@', '`']

/-- The name of an anchor or an alias, after its indicator. -/
def anchor (c : Cursor) : Except Fault (String × Cursor) :=
  let (name, c) := c.span isNameChar
  let next := c.peek 0
  if !name.isEmpty && (isGap next || next.any anchorDelimiters.contains) then
    .ok (String.ofList name, c)
  else .error .malformed

/-- The characters that may occur in a tag besides letters and digits. -/
def tagPunctuation : List Char :=
  ['-', ';', '/', '?', ':', '@', '&', '=', '+', '$', ',', '_', '.', '!', '~', '*', '\'', '(', ')',
    '[', ']', '%']

/-- Can the character occur in a tag? -/
def isTagChar (c : Char) : Bool := c.isAlphanum || tagPunctuation.contains c

/-- The bytes that a run of percent signs with two digits each stands for, and what follows it. -/
def escapedBytes : List Char → Except Fault (List UInt8 × List Char)
  | '%' :: a :: b :: rest =>
    match Text.hexNumber? [a, b] with
    | some byte => (escapedBytes rest).map fun (bytes, rest) => (UInt8.ofNat byte :: bytes, rest)
    | none => .error .malformed
  | '%' :: _ => .error .malformed
  | cs => .ok ([], cs)

/-- The characters of a tag with its escapes undone: each run of escapes is a text of its own. -/
def unescape : (fuel : Nat) → List Char → Except Fault (List Char)
  | 0, _ => .ok []
  | fuel + 1, cs =>
    match cs with
    | [] => .ok []
    | '%' :: _ => do
      let (bytes, rest) ← escapedBytes cs
      match Text.Utf8.decode bytes with
      | .ok text => (unescape fuel rest).map (text ++ ·)
      | .error _ => throw .malformed
    | c :: rest => (unescape fuel rest).map (c :: ·)

/-- A tag without its handle, which is not empty. -/
def tagSuffix (c : Cursor) : Except Fault (String × Cursor) := do
  let (raw, c) := c.span isTagChar
  if raw.isEmpty then throw .malformed
  let text ← unescape (raw.length + 1) raw
  return (String.ofList text, c)

/-- A handle of tags: an exclamation mark alone before a space, or a name between two of them. -/
def handle (c : Cursor) : Except Fault (String × Cursor) :=
  if c.peek 0 ≠ some '!' then .error .malformed
  else if c.peek 1 = some ' ' then .ok ("!", c.step)
  else
    let (name, after) := c.step.span isNameChar
    if after.peek 0 = some '!' then .ok (String.ofList ('!' :: name ++ ['!']), after.step)
    else .error .malformed

/-- Does the word after an exclamation mark hold another one? -/
def hasHandle (c : Cursor) : Bool :=
  ((c.step.span fun ch => !endsWord (some ch)).1).contains '!'

/-- A tag, at its exclamation mark. -/
def tag (c : Cursor) : Except Fault (TagName × Cursor) := do
  let (name, c) ←
    if c.peek 1 = some '<' then do
      let (suffix, c) ← tagSuffix (c.skip 2)
      if c.peek 0 ≠ some '>' then throw .malformed
      pure (⟨none, suffix⟩, c.step)
    else if isGap (c.peek 1) then pure (⟨none, "!"⟩, c.step)
    else if hasHandle c then do
      let (name, c) ← handle c
      let (suffix, c) ← tagSuffix c
      pure (⟨some name, suffix⟩, c)
    else do
      let (suffix, c) ← tagSuffix c.step
      pure (⟨some "!", suffix⟩, c)
  if endsWord (c.peek 0) then return (name, c) else throw .malformed

/-- A number of a version. -/
def versionNumber (c : Cursor) : Except Fault (Int × Cursor) :=
  let (digits, c) := c.span Char.isDigit
  if digits.isEmpty then .error .malformed
  else match Numeral.readInteger 10 (String.ofList digits) with
    | .ok n => .ok (n, c)
    | .error fault => .error (.integer fault)

/-- The rest of a directive with a value: a word that ends where the value does. -/
def directiveValue (name : List Char) (c : Cursor) : Except Fault (Directive × Cursor) := do
  if name = "YAML".toList then
    let (major, c) ← versionNumber c.skipSpaces
    if c.peek 0 ≠ some '.' then throw .malformed
    let (_, c) ← versionNumber c.step
    if !endsWord (c.peek 0) then throw .malformed
    return (.version major, c)
  else if name = "TAG".toList then
    let (name, c) ← handle c.skipSpaces
    if c.peek 0 ≠ some ' ' then throw .malformed
    let (expansion, c) ← tagSuffix c.skipSpaces
    if !endsWord (c.peek 0) then throw .malformed
    return (.handle name expansion, c)
  else return (.other, (c.span fun ch => !isBreak ch).2)

/-- A directive, after its percent sign, and the rest of its line. -/
def directive (c : Cursor) : Except Fault (Directive × Cursor) := do
  let (name, c) := c.span isNameChar
  if name.isEmpty || !endsWord (c.peek 0) then throw .malformed
  let (result, c) ← directiveValue name c
  let c := c.skipSpaces.skipComment
  match c.lineBreak? with
  | some (_, after) => return (result, after)
  | none => if c.rest.isEmpty then return (result, c) else throw .malformed

end TypedRoutes.Yaml.Name
