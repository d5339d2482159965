/-!
# Reading positions

A `Cursor` is a place in a YAML text: the characters that are left, and the line, the column and the
index of the first of them. The classes of characters by which the format splits a text are here
too; the end of the text belongs to those that say so. What is left of a text is also the fuel of
the loops over it, each turn of which takes a character at least.
-/

set_option autoImplicit false

namespace TypedRoutes.Yaml

/-- The characters that end a line. -/
def isBreak (c : Char) : Bool :=
  c = '\n' || c = '\r' || c = '\x85' || c = '\u2028' || c = '\u2029'

/-- Does a word end here: with the line or at a space? -/
def endsWord : Option Char → Bool
  | none => true
  | some c => c = ' ' || isBreak c

/-- Does an indicator end here: with the line, at a space or at a tab? -/
def isGap : Option Char → Bool
  | none => true
  | some c => c = ' ' || c = '\t' || isBreak c

/-- The characters of names: of anchors, handles and directives. -/
def isNameChar (c : Char) : Bool := c.isAlphanum || c = '-' || c = '_'

/-- The characters that may occur in a text at all. -/
def isAllowed (c : Char) : Bool :=
  c = '\t' || c = '\n' || c = '\r' || c = '\x85' || (0x20 ≤ c.toNat && c.toNat ≤ 0x7E) ||
    (0xA0 ≤ c.toNat && c.toNat ≤ 0xD7FF) || (0xE000 ≤ c.toNat && c.toNat ≤ 0xFFFD) ||
    0x10000 ≤ c.toNat

/-- The mark that may stand before a text. -/
def byteOrderMark : Char := '\ufeff'

/-- A place in a text. -/
structure Cursor where
  rest : List Char
  index : Nat
  line : Nat
  column : Nat
  deriving Repr

namespace Cursor

/-- The start of a text. -/
def start (text : List Char) : Cursor := ⟨text, 0, 0, 0⟩

/-- The character at a distance. -/
def peek (c : Cursor) (distance : Nat) : Option Char := c.rest[distance]?

/-- The place after one character. A carriage return before a line feed does not end the line, and
a byte order mark has no width. -/
def step (c : Cursor) : Cursor :=
  match c.rest with
  | [] => c
  | ch :: rest =>
    if isBreak ch && !(ch = '\r' && rest.head? = some '\n') then ⟨rest, c.index + 1, c.line + 1, 0⟩
    else ⟨rest, c.index + 1, c.line, if ch = byteOrderMark then c.column else c.column + 1⟩

/-- The place after some characters. -/
def skip (c : Cursor) : Nat → Cursor
  | 0 => c
  | n + 1 => c.step.skip n

/-- The characters at the front that have a property, and the place after them. -/
def span (c : Cursor) (p : Char → Bool) : List Char × Cursor :=
  let taken := c.rest.takeWhile p
  (taken, c.skip taken.length)

/-- The place after the spaces at the front. -/
def skipSpaces (c : Cursor) : Cursor := (c.span (· = ' ')).2

/-- The place after a comment, if there is one. -/
def skipComment (c : Cursor) : Cursor :=
  if c.peek 0 = some '#' then (c.span fun ch => !isBreak ch).2 else c

/-- The line break at the front, and the place after it. All breaks but the two separators count
as a line feed. -/
def lineBreak? (c : Cursor) : Option (Char × Cursor) :=
  match c.rest with
  | '\r' :: '\n' :: _ => some ('\n', c.skip 2)
  | ch :: _ =>
    if ch = '\u2028' ∨ ch = '\u2029' then some (ch, c.step)
    else if isBreak ch then some ('\n', c.step)
    else none
  | [] => none

/-- Is there a mark that separates documents, `---` or `...`, at the front? -/
def atSeparator (c : Cursor) : Bool :=
  match c.rest with
  | '-' :: '-' :: '-' :: rest | '.' :: '.' :: '.' :: rest => isGap rest.head?
  | _ => false

/-- The breaks at the front, each after any characters that have a property, and the place after
them and after such characters. -/
def breaks (blank : Cursor → Cursor) : (fuel : List Char) → Cursor → List Char × Cursor
  | [], c => ([], c)
  | _ :: fuel, c =>
    let c := blank c
    match c.lineBreak? with
    | none => ([], c)
    | some (b, c) =>
      let (bs, c) := breaks blank fuel c
      (b :: bs, c)

end Cursor
end TypedRoutes.Yaml
