import TypedRoutes.Datum
import TypedRoutes.Json

/-!
# Documents

A document is a finite graph: containers are nodes of a table, and a value refers to them by
number, so that containers can be shared and can hold themselves. `Document.unfold` gives the tree
below a value, cut where a container would hold itself; `Document.ofJson` stores a JSON value, whose
tree has no such place.
-/

set_option autoImplicit false

namespace TypedRoutes

/-- A value of a document: atomic, or a reference to a node. -/
inductive Document.Value where
  | scalar (value : Scalar)
  | node (id : Nat)
  deriving DecidableEq, Repr, Inhabited

/-- A container of a document. -/
inductive Document.Node where
  | list (items : List Document.Value)
  | set (members : List Scalar)
  | pair (first second : Document.Value)
  | map (entries : List (Scalar × Document.Value))
  deriving DecidableEq, Repr, Inhabited

/-- A document: its table of nodes and the value at its root. -/
structure Document where
  nodes : Array Document.Node
  root : Document.Value
  deriving Repr, Inhabited

namespace Document

/-- Is the node a mapping? -/
def Node.isMap : Node → Bool
  | .map _ => true
  | _ => false

/-- The number of mappings. -/
def mappingCount (doc : Document) : Nat := doc.nodes.countP Node.isMap

/-- The head of a value. A reference to no node counts as null. -/
def shape (doc : Document) : Value → Shape Value
  | .scalar s => .scalar s
  | .node id =>
    match doc.nodes[id]? with
    | some (.list items) => .list items
    | some (.set members) => .set members
    | some (.pair a b) => .pair a b
    | some (.map entries) => .map entries
    | none => .scalar .null

/-- The number and the entries of a mapping. -/
def mapping? (doc : Document) : Value → Option (Nat × List (Scalar × Value))
  | .node id =>
    match doc.nodes[id]? with
    | some (.map entries) => some (id, entries)
    | _ => none
  | _ => none

/-- What stands for a container that is found inside itself; a set holds no containers. -/
def Node.cut : Node → Datum
  | .list _ => .cycle .list
  | .set members => .set members
  | .pair _ _ => .cycle .pair
  | .map _ => .cycle .map

/-- The tree below a value, for as many nested nodes as `depth` allows; `active` holds the nodes
that are being unfolded. -/
def unfoldWithin (doc : Document) : (depth : Nat) → (active : List Nat) → Value → Datum
  | _, _, .scalar s => .scalar s
  | 0, _, .node _ => .scalar .null
  | depth + 1, active, .node id =>
    match doc.nodes[id]? with
    | none => .scalar .null
    | some node =>
      if id ∈ active then node.cut
      else
        let below := unfoldWithin doc depth (id :: active)
        match node with
        | .list items => .list (items.map below)
        | .set members => .set members
        | .pair a b => .pair (below a) (below b)
        | .map entries => .map (entries.map fun (key, v) => (key, below v))

/-- The tree below a value. No path without a repetition has more nodes than the table. -/
def unfold (doc : Document) (v : Value) : Datum := doc.unfoldWithin (doc.nodes.size + 1) [] v

/-- The tree of the whole document. -/
def tree (doc : Document) : Datum := doc.unfold doc.root

mutual

/-- Stores a JSON value: its containers are appended to the table, inner ones first. -/
def store (nodes : Array Node) : Json → Array Node × Value
  | .null => (nodes, .scalar .null)
  | .bool b => (nodes, .scalar (.bool b))
  | .int n => (nodes, .scalar (.int n))
  | .float x => (nodes, .scalar (.float x))
  | .str s => (nodes, .scalar (.str s))
  | .array items =>
    let (nodes, values) := storeItems nodes items
    (nodes.push (.list values), .node nodes.size)
  | .object members =>
    let (nodes, entries) := storeMembers nodes members
    (nodes.push (.map entries), .node nodes.size)

/-- Stores the items of an array. -/
def storeItems (nodes : Array Node) : List Json → Array Node × List Value
  | [] => (nodes, [])
  | item :: rest =>
    let (nodes, value) := store nodes item
    let (nodes, values) := storeItems nodes rest
    (nodes, value :: values)

/-- Stores the members of an object. -/
def storeMembers (nodes : Array Node) : List (String × Json) → Array Node × List (Scalar × Value)
  | [] => (nodes, [])
  | (name, item) :: rest =>
    let (nodes, value) := store nodes item
    let (nodes, entries) := storeMembers nodes rest
    (nodes, (.str name, value) :: entries)

end

/-- The document that a JSON value is. -/
def ofJson (json : Json) : Document :=
  let (nodes, root) := store #[] json
  ⟨nodes, root⟩

end Document

example : (Document.ofJson (.object [("a", .array [.null])])).tree =
    .map [(.str "a", .list [.scalar .null])] := by rfl

end TypedRoutes
