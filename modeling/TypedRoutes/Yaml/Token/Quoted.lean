import TypedRoutes.Text.Hex
import TypedRoutes.Yaml.Cursor
import TypedRoutes.Yaml.Fault

/-!
# Quoted scalars

Between single quotes only the quote itself is special and is written twice; between double quotes a
backslash starts an escape. Line breaks are folded as in plain scalars, and a backslash at the end
of a line joins it with the next one.
-/

set_option autoImplicit false

namespace TypedRoutes.Yaml.Quoted

/-- The characters that one letter after a backslash stands for. -/
def simpleEscapes : List (Char × Char) :=
  [('0', '\x00'), ('a', '\x07'), ('b', '\x08'), ('t', '\t'), ('\t', '\t'), ('n', '\n'),
    ('v', '\x0b'), ('f', '\x0c'), ('r', '\r'), ('e', '\x1b'), (' ', ' '), ('"', '"'),
    ('\\', '\\'), ('/', '/'), ('N', '\x85'), ('_', '\xa0'), ('L', '\u2028'), ('P', '\u2029')]

/-- The number of hexadecimal digits that follow a letter after a backslash. -/
def codeLength? (c : Char) : Option Nat :=
  if c = 'x' then some 2 else if c = 'u' then some 4 else if c = 'U' then some 8 else none

/-- The character with a code point. -/
def character (code : Nat) : Except Fault Char :=
  if 0x10FFFF < code then .error (.codePoint code)
  else if 0xD800 ≤ code ∧ code ≤ 0xDFFF then .error (.unpaired code)
  else .ok (Char.ofNat code)

/-- The empty lines after a break, and the place after them and after the blanks of the line that
follows. A separator of documents must not stand at the start of a line. -/
def emptyLines : (fuel : List Char) → Cursor → Except Fault (List Char × Cursor)
  | [], c => .ok ([], c)
  | _ :: fuel, c =>
    if c.atSeparator then .error .malformed
    else
      let c := (c.span fun ch => ch = ' ' || ch = '\t').2
      match c.lineBreak? with
      | none => .ok ([], c)
      | some (b, c) => (emptyLines fuel c).map fun (bs, c) => (b :: bs, c)

/-- What the blanks and breaks between two words count as. -/
def gap (c : Cursor) : Except Fault (List Char × Cursor) := do
  let (blanks, c) := c.span fun ch => ch = ' ' || ch = '\t'
  if c.rest.isEmpty then throw .malformed
  match c.lineBreak? with
  | none => return (blanks, c)
  | some (b, c) =>
    let (bs, c) ← emptyLines c.rest c
    return ((if b ≠ '\n' then [b] else if bs.isEmpty then [' '] else []) ++ bs, c)

/-- An escape, after its backslash. -/
def escape (c : Cursor) : Except Fault (List Char × Cursor) :=
  match c.rest with
  | [] => .error .malformed
  | letter :: rest =>
    match simpleEscapes.lookup letter, codeLength? letter with
    | some ch, _ => .ok ([ch], c.step)
    | none, some length =>
      let digits := rest.take length
      match Text.hexNumber? digits with
      | some code =>
        if digits.length = length then
          (character code).map fun ch => ([ch], c.skip (length + 1))
        else .error .malformed
      | none => .error .malformed
    | none, none =>
      match c.lineBreak? with
      | some (_, after) => emptyLines after.rest after
      | none => .error .malformed

/-- Characters that are no blank, no break, no quote and no backslash. -/
def isOrdinary (c : Char) : Bool := !isGap (some c) && c ≠ '\'' && c ≠ '"' && c ≠ '\\'

/-- The text up to a blank, a break or the closing quote. -/
def word (double : Bool) : (fuel : List Char) → Cursor → Except Fault (List Char × Cursor)
  | [], c => .ok ([], c)
  | _ :: fuel, c =>
    let (front, c) := c.span isOrdinary
    let goOn (text : List Char) (c : Cursor) : Except Fault (List Char × Cursor) :=
      (word double fuel c).map fun (more, c) => (front ++ text ++ more, c)
    match c.rest with
    | '\'' :: '\'' :: _ => if double then goOn ['\''] c.step else goOn ['\''] (c.skip 2)
    | '\'' :: _ => if double then goOn ['\''] c.step else .ok (front, c)
    | '"' :: _ => if double then .ok (front, c) else goOn ['"'] c.step
    | '\\' :: _ =>
      if double then do
        let (text, c) ← escape c.step
        goOn text c
      else goOn ['\\'] c.step
    | _ => .ok (front, c)

/-- The rest of a quoted scalar up to its closing quote. -/
def readOn (double : Bool) : (fuel : List Char) → Cursor → Except Fault (List Char × Cursor)
  | [], _ => .error .malformed
  | _ :: fuel, c => do
    let (text, c) ← word double c.rest c
    if c.peek 0 = some (if double then '"' else '\'') then return (text, c.step)
    let (between, c) ← gap c
    let (more, c) ← readOn double fuel c
    return (text ++ between ++ more, c)

/-- A quoted scalar, after its opening quote. -/
def read (double : Bool) (c : Cursor) : Except Fault (List Char × Cursor) :=
  readOn double c.rest c

end TypedRoutes.Yaml.Quoted
