import TypedRoutes.Json.Reader
import TypedRoutes.Proofs.Json.Datum
import TypedRoutes.Proofs.PropertyKey
import TypedRoutes.Proofs.TypeTree.Phrase

/-!
# Reading types

`TypeTree.read` reads the text of a type, with the precedence that types have: the mark `[]` binds
to the operand before it, `&` joins operands to groups, and `|` joins groups. There are no brackets.
An operand is the name of a type, a record, an object with its fields, or a literal, which is read
as JSON.

The reader works on the list of the remaining characters. `depth` bounds the number of nested calls,
of which there are at most two for a character.
-/

set_option autoImplicit false

namespace TypedRoutes.TypeTree

namespace Reader

open Json.Reader (after?)

/-- The names of types. -/
def words : List (String × TypeTree) :=
  [("string", .primitive .string), ("number", .primitive .number), ("boolean", .primitive .boolean),
    ("null", .primitive .null), ("unknown", .unknown), ("never", .never)]

/-- A name of a type at the front of a text. -/
def word? (cs : List Char) : Option (TypeTree × List Char) :=
  words.findSome? fun (word, tree) => (after? word cs).map fun left => (tree, left)

/-- A literal. -/
def literal (cs : List Char) : Option (TypeTree × List Char) :=
  match Json.Reader.value none (2 * cs.length + 2) cs with
  | .ok (json, rest) => some (.literal json.toDatum, rest)
  | .error _ => none

/-- An operand with the array marks that follow it. -/
def suffixes : TypeTree → List Char → TypeTree × List Char
  | t, '[' :: ']' :: rest => suffixes (.array t) rest
  | t, rest => (t, rest)

/-- The mark of a field that is not required. -/
def optionalMark : List Char → Bool × List Char
  | '?' :: rest => (false, rest)
  | rest => (true, rest)

mutual

/-- An operand without the array marks that follow it. -/
def unit : (depth : Nat) → List Char → Option (TypeTree × List Char)
  | 0, _ => none
  | depth + 1, cs =>
    match word? cs with
    | some reading => some reading
    | none =>
      match after? "Record<string, " cs with
      | some rest => do
        let (value, rest) ← phrase depth rest
        let left ← after? ">" rest
        return (.record value.tree, left)
      | none =>
        match after? "\x7b " cs with
        | some rest =>
          match after? " \x7d" rest with
          | some left => some (.fields [], left)
          | none => (entries depth rest).map fun (es, left) => (.fields es, left)
        | none => literal cs

/-- A type whose operators are grouped: the first operand, the operator after it, and the rest. -/
def phrase : (depth : Nat) → List Char → Option (Phrase × List Char)
  | 0, _ => none
  | depth + 1, cs => do
    let (first, rest) ← unit depth cs
    let (operand, rest) := suffixes first rest
    match after? " | " rest with
    | some rest =>
      let (others, left) ← phrase depth rest
      return ([operand] :: others, left)
    | none =>
      match after? " & " rest with
      | some rest =>
        let (others, left) ← phrase depth rest
        return (Phrase.joinUnit operand others, left)
      | none => return ([[operand]], rest)

/-- The fields of an object up to its closing brace. -/
def entries : (depth : Nat) → List Char → Option (List (String × Bool × TypeTree) × List Char)
  | 0, _ => none
  | depth + 1, cs => do
    let (name, rest) ← PropertyKey.scan cs
    let (required, rest) := optionalMark rest
    let rest ← after? ": " rest
    let (type, rest) ← phrase depth rest
    let entry := (String.ofList name, required, type.tree)
    match after? "; " rest with
    | some rest =>
      let (others, left) ← entries depth rest
      return (entry :: others, left)
    | none =>
      let left ← after? " \x7d" rest
      return ([entry], left)

end

end Reader

/-- Reads the text of a type. -/
def read (text : String) : Option TypeTree :=
  match Reader.phrase (2 * text.toList.length + 1) text.toList with
  | some (p, []) => some p.tree
  | _ => none

end TypedRoutes.TypeTree
