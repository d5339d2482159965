import TypedRoutes.Yaml.Node
import TypedRoutes.Yaml.Tag

/-!
# Graphs of YAML nodes

A document with its aliases resolved: nodes are entries of a table and refer to their parts by
number, so that an alias is just another reference. Every node has its tag. `Graph.ofNode` builds
the graph; an anchor counts from the start of its node, so that an alias may be inside it.
-/

set_option autoImplicit false

namespace TypedRoutes.Yaml

/-- A node whose parts are entries of a table. -/
inductive Graph.Node where
  | scalar (tag : Tag) (text : String)
  | sequence (tag : Tag) (items : List Nat)
  | mapping (tag : Tag) (entries : List (Nat × Nat))
  deriving Repr

/-- A table of nodes. -/
abbrev Graph := Array Graph.Node

namespace Graph

/-- A graph that is being built, with the numbers of the anchored nodes. -/
structure Builder where
  nodes : Graph
  anchors : List (String × Nat)
  deriving Repr

/-- The tag of a scalar. Without a tag, or with one that says nothing, a plain one shows it. -/
def scalarTag (properties : Properties) (text : String) (plain : Bool) : Tag :=
  match properties.tag with
  | none => if plain then Tag.ofPlain text else .str
  | some name => if name = "!" then Tag.ofPlain text else Tag.ofName name

/-- The tag of a collection. -/
def collectionTag (properties : Properties) (default : Tag) : Tag :=
  match properties.tag with
  | none => default
  | some name => if name = "!" then default else Tag.ofName name

namespace Builder

/-- Adds a node to the table and sets its anchor. -/
def add (b : Builder) (properties : Properties) (node : Node) : Nat × Builder :=
  let id := b.nodes.size
  let nodes := b.nodes.push node
  match properties.anchor with
  | none => (id, { b with nodes })
  | some name => (id, { nodes, anchors := (name, id) :: b.anchors })

/-- Puts a node in the place of the one with a number. -/
def set (b : Builder) (id : Nat) (node : Node) : Builder :=
  { b with nodes := b.nodes.setIfInBounds id node }

mutual

/-- Adds a node with all its parts: its place in the table comes before theirs. There is nothing to
add for an alias whose anchor has not been set. -/
def addTree (b : Builder) : Yaml.Node → Except Fault (Nat × Builder)
  | .alias name =>
    match b.anchors.lookup name with
    | some id => .ok (id, b)
    | none => .error .malformed
  | .scalar properties text plain =>
    .ok (b.add properties (.scalar (scalarTag properties text plain) text))
  | .sequence properties items => do
    let tag := collectionTag properties .seq
    let (id, b) := b.add properties (.sequence tag [])
    let (ids, b) ← addItems b items
    return (id, b.set id (.sequence tag ids))
  | .mapping properties entries => do
    let tag := collectionTag properties .map
    let (id, b) := b.add properties (.mapping tag [])
    let (ids, b) ← addEntries b entries
    return (id, b.set id (.mapping tag ids))

/-- Adds the items of a sequence. -/
def addItems (b : Builder) : List Yaml.Node → Except Fault (List Nat × Builder)
  | [] => .ok ([], b)
  | item :: rest => do
    let (id, b) ← addTree b item
    let (ids, b) ← addItems b rest
    return (id :: ids, b)

/-- Adds the entries of a mapping. -/
def addEntries (b : Builder) :
    List (Yaml.Node × Yaml.Node) → Except Fault (List (Nat × Nat) × Builder)
  | [] => .ok ([], b)
  | (key, value) :: rest => do
    let (keyId, b) ← addTree b key
    let (valueId, b) ← addTree b value
    let (ids, b) ← addEntries b rest
    return ((keyId, valueId) :: ids, b)

end

end Builder

/-- The graph of a node; its root has the number given. -/
def ofNode (node : Yaml.Node) : Except Fault (Nat × Graph) :=
  (Builder.addTree ⟨#[], []⟩ node).map fun (root, b) => (root, b.nodes)

/-- The tag of the node with a number. -/
def tagOf (g : Graph) (id : Nat) : Tag :=
  match g[id]? with
  | some (.scalar tag _) | some (.sequence tag _) | some (.mapping tag _) => tag
  | none => .other

/-- The entries of the mapping with a number. -/
def entriesOf (g : Graph) (id : Nat) : List (Nat × Nat) :=
  match g[id]? with
  | some (.mapping _ entries) => entries
  | _ => []

/-- Puts other entries in the place of those of a mapping. -/
def setEntries (g : Graph) (id : Nat) (entries : List (Nat × Nat)) : Graph :=
  match g[id]? with
  | some (.mapping tag _) => g.setIfInBounds id (.mapping tag entries)
  | _ => g

/-- Gives a node another tag. -/
def retag (g : Graph) (id : Nat) (tag : Tag) : Graph :=
  match g[id]? with
  | some (.scalar _ text) => g.setIfInBounds id (.scalar tag text)
  | some (.sequence _ items) => g.setIfInBounds id (.sequence tag items)
  | some (.mapping _ entries) => g.setIfInBounds id (.mapping tag entries)
  | none => g

end Graph
end TypedRoutes.Yaml
