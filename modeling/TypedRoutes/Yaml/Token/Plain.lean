import TypedRoutes.Yaml.Cursor

/-!
# Plain scalars

A plain scalar goes on until a comment, an indicator that ends it, or a line that is indented too
little. A single line break inside it counts as a space, and of several the first is dropped.
-/

set_option autoImplicit false

namespace TypedRoutes.Yaml.Plain

/-- The characters that end a plain scalar inside brackets. -/
def flowIndicators : List Char := [',', '?', '[', ']', '{', '}']

/-- The characters after which a colon ends a plain scalar inside brackets. -/
def flowDelimiters : List Char := [',', '[', ']', '{', '}']

/-- Does the colon before this character end a plain scalar? -/
def colonEnds (inFlow : Bool) (next : Option Char) : Bool :=
  isGap next || (inFlow && next.any flowDelimiters.contains)

/-- The characters up to a gap or an indicator that ends the scalar. -/
def word (inFlow : Bool) : List Char → List Char
  | [] => []
  | c :: rest =>
    if isGap (some c) || (c = ':' && colonEnds inFlow rest.head?) ||
        (inFlow && flowIndicators.contains c) then []
    else c :: word inFlow rest

/-- What lies between two words: the text that it counts as, the place after it, and whether a line
ended. -/
structure Gap where
  text : List Char
  after : Cursor
  broken : Bool

/-- The breaks and spaces after the end of a line; nothing if a separator of documents follows. -/
def emptyLines : (fuel : List Char) → Cursor → Option (List Char) × Cursor
  | [], c => (some [], c)
  | _ :: fuel, c =>
    let c := c.skipSpaces
    match c.lineBreak? with
    | none => (some [], c)
    | some (b, c) =>
      if c.atSeparator then (none, c)
      else
        let (bs, c) := emptyLines fuel c
        (bs.map (b :: ·), c)

/-- What lies between two words. Its text is empty if the scalar ends here. -/
def gap (c : Cursor) : Gap :=
  let (spaces, c) := c.span (· = ' ')
  match c.lineBreak? with
  | none => ⟨spaces, c, false⟩
  | some (b, c) =>
    if c.atSeparator then ⟨[], c, true⟩
    else match emptyLines c.rest c with
      | (none, c) => ⟨[], c, true⟩
      | (some bs, c) =>
        let first := if b ≠ '\n' then [b] else if bs.isEmpty then [' '] else []
        ⟨first ++ bs, c, true⟩

/-- A plain scalar as read so far, the place after it, and whether a line ended before that. -/
structure Reading where
  text : List Char
  after : Cursor
  broken : Bool

/-- Reads on: `between` is the gap before the next word. The text is kept with its last character
first. -/
def readOn (inFlow : Bool) (indent : Nat) :
    (fuel : List Char) → (between : List Char) → Reading → Reading
  | [], _, r => r
  | _ :: fuel, between, r =>
    match word inFlow r.after.rest with
    | [] => r
    | w =>
      let g := gap (r.after.skip w.length)
      let r : Reading := ⟨w.reverseAux (between.reverseAux r.text), g.after, g.broken⟩
      if g.text.isEmpty || g.after.peek 0 = some '#' || (!inFlow && g.after.column < indent) then r
      else readOn inFlow indent fuel g.text r

/-- A plain scalar at a place. Outside brackets its lines are indented at least as given. -/
def read (inFlow : Bool) (indent : Nat) (c : Cursor) : Reading :=
  let r := readOn inFlow indent c.rest [] ⟨[], c, false⟩
  { r with text := r.text.reverse }

end TypedRoutes.Yaml.Plain
