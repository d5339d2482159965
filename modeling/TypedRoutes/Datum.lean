import TypedRoutes.Calendar

/-!
# Data read from documents

`Scalar` is an atomic value: what may be a key of a mapping or a leaf of a document. `Datum` is a
value as a finite tree, in which a container that holds itself is cut at the second visit.
-/

set_option autoImplicit false

namespace TypedRoutes

/-- An atomic value. -/
inductive Scalar where
  | null
  | bool (value : Bool)
  | int (value : Int)
  | float (value : Binary64)
  | str (value : String)
  | bytes (value : List UInt8)
  | date (value : Date)
  | timestamp (value : Timestamp)
  deriving DecidableEq, Repr, Inhabited

namespace Scalar

/-- Scalars compared as numbers: a boolean counts as 0 or 1, and an integer is the same number as
a float of its value. -/
def sameNumber : Scalar → Scalar → Bool
  | .bool a, .bool b => a == b
  | .bool a, .int b | .int b, .bool a => (if a then 1 else 0) == b
  | .int a, .int b => a == b
  | .float a, .float b => a.sameNumber b
  | .float a, .int b | .int b, .float a => a.toInt? == some b
  | .float a, .bool b | .bool b, .float a => a.toInt? == some (if b then 1 else 0)
  | _, _ => false

/-- Two scalars are one key of a mapping if they are the same number, the same moment, or equal
values of one kind. A NaN is one key, although it is no number. -/
def sameKey (a b : Scalar) : Bool :=
  match a, b with
  | .timestamp s, .timestamp t => s.sameMoment t
  | a, b => a.sameNumber b || decide (a = b)

/-- What counts as absent where something may be supplied: null, false, a zero, and what is
empty. -/
def isBlank : Scalar → Bool
  | .null => true
  | .bool b => !b
  | .int n => n == 0
  | .float x => x.isZero
  | .str s => s.isEmpty
  | .bytes b => b.isEmpty
  | .date _ | .timestamp _ => false

end Scalar

/-- The kinds of container that can hold themselves. -/
inductive Container where
  | list
  | pair
  | map
  deriving DecidableEq, Repr

/-- A value of a document as a tree. `cycle` stands where a container holds itself. -/
inductive Datum where
  | scalar (value : Scalar)
  | set (members : List Scalar)
  | pair (first second : Datum)
  | list (items : List Datum)
  | map (entries : List (Scalar × Datum))
  | cycle (container : Container)
  deriving Repr, Inhabited

/-- The head of a value whose parts have type `α`. -/
inductive Shape (α : Type) where
  | scalar (value : Scalar)
  | set (members : List Scalar)
  | pair (first second : α)
  | list (items : List α)
  | map (entries : List (Scalar × α))
  | cycle
  deriving Repr

/-- The head of a datum. -/
def Datum.shape : Datum → Shape Datum
  | .scalar s => .scalar s
  | .set members => .set members
  | .pair a b => .pair a b
  | .list items => .list items
  | .map entries => .map entries
  | .cycle _ => .cycle

/-- The value under a string key among the entries of a mapping. -/
def field? {α : Type} (name : String) (entries : List (Scalar × α)) : Option α :=
  (entries.find? fun (key, _) => key == .str name).map Prod.snd

end TypedRoutes
