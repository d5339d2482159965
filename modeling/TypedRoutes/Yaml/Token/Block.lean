import TypedRoutes.Yaml.Cursor
import TypedRoutes.Yaml.Fault

/-!
# Block scalars

A block scalar holds the lines below its header that are indented. The header says whether lines are
kept or folded, what becomes of the breaks at the end, and the indentation if the first line does
not show it.
-/

set_option autoImplicit false

namespace TypedRoutes.Yaml.Block

/-- What becomes of the breaks at the end: none stays, one stays, or all stay. -/
inductive Chomping where
  | strip
  | clip
  | keep
  deriving DecidableEq, Repr

/-- The mark of the header that says what becomes of the breaks at the end. -/
def chomping? : Option Char → Option Chomping
  | some '+' => some .keep
  | some '-' => some .strip
  | _ => none

/-- The digit of the header that gives the indentation, which is not zero. -/
def increment? (c : Cursor) : Except Fault (Option Nat × Cursor) :=
  match c.peek 0 with
  | some d =>
    if d = '0' then .error .malformed
    else if d.isDigit then .ok (some (d.toNat - 48), c.step)
    else .ok (none, c)
  | none => .ok (none, c)

/-- The rest of a line that holds nothing but a comment, and its break. -/
def lineEnd (c : Cursor) : Except Fault Cursor :=
  let c := c.skipSpaces.skipComment
  match c.lineBreak? with
  | some (_, after) => .ok after
  | none => if c.rest.isEmpty then .ok c else .error .malformed

/-- The header after its indicator: the two marks in either order, and the rest of the line. -/
def header (c : Cursor) : Except Fault (Chomping × Option Nat × Cursor) := do
  let (chomping, increment, c) ← match chomping? (c.peek 0) with
    | some chomping => do
      let (increment, c) ← increment? c.step
      pure (chomping, increment, c)
    | none => do
      let (increment, c) ← increment? c
      match increment, chomping? (c.peek 0) with
      | some _, some chomping => pure (chomping, increment, c.step)
      | _, _ => pure (.clip, increment, c)
  if !endsWord (c.peek 0) then throw .malformed
  let c ← lineEnd c
  return (chomping, increment, c)

/-- The breaks before the first line, the widest column reached before it, and its place. -/
def leadingBreaks : (fuel : List Char) → Cursor → List Char × Nat × Cursor
  | [], c => ([], c.column, c)
  | _ :: fuel, c =>
    let c := c.skipSpaces
    match c.lineBreak? with
    | none => ([], c.column, c)
    | some (b, after) =>
      let (bs, widest, end_) := leadingBreaks fuel after
      (b :: bs, max c.column widest, end_)

/-- The place after the spaces at the front that belong to the indentation. -/
def skipIndent (indent : Nat) (c : Cursor) : Cursor :=
  c.skip ((c.rest.takeWhile (· = ' ')).take (indent - c.column)).length

/-- The empty lines at a place, and the place after the indentation that follows them. -/
def emptyLines (indent : Nat) (c : Cursor) : List Char × Cursor :=
  Cursor.breaks (skipIndent indent) c.rest c

/-- Does the line start with text and not with a blank? -/
def startsWithText (c : Cursor) : Bool := c.peek 0 ≠ some ' ' && c.peek 0 ≠ some '\t'

/-- The lines from a place on, with the break after the last and the empty lines below it. -/
def body (folded : Bool) (indent : Nat) :
    (fuel : List Char) → (before : List Char) → Cursor →
      List Char × List Char × List Char × Cursor
  | [], before, c => ([], [], before, c)
  | _ :: fuel, before, c =>
    if c.column ≠ indent || c.rest.isEmpty then ([], [], before, c)
    else
      let isText := startsWithText c
      let (line, c) := c.span fun ch => !isBreak ch
      let (lineBreak, c) := match c.lineBreak? with
        | some (b, after) => ([b], after)
        | none => ([], c)
      let (bs, c) := emptyLines indent c
      if c.column = indent && !c.rest.isEmpty then
        let join :=
          if folded && lineBreak == ['\n'] && isText && startsWithText c then
            (if bs.isEmpty then [' '] else [])
          else lineBreak
        let (more, lastBreak, tail, c) := body folded indent fuel bs c
        (before ++ line ++ join ++ more, lastBreak, tail, c)
      else (before ++ line, lineBreak, bs, c)

/-- A block scalar after its indicator. `parent` is the indentation around it, -1 outside all
collections. -/
def read (folded : Bool) (parent : Int) (c : Cursor) : Except Fault (List Char × Cursor) := do
  let (chomping, increment, c) ← header c
  let least := max (parent + 1).toNat 1
  let (indent, before, c) := match increment with
    | some n =>
      let (bs, c) := emptyLines (least + n - 1) c
      (least + n - 1, bs, c)
    | none =>
      let (bs, widest, c) := leadingBreaks c.rest c
      (max least widest, bs, c)
  let (text, lastBreak, tail, c) := body folded indent c.rest before c
  let ending := match chomping with
    | .strip => []
    | .clip => lastBreak
    | .keep => lastBreak ++ tail
  return (text ++ ending, c)

end TypedRoutes.Yaml.Block
