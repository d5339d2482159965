import TypedRoutes.Document
import TypedRoutes.Entries
import TypedRoutes.Limits
import TypedRoutes.Yaml.Merge
import TypedRoutes.Yaml.Scalar
import TypedRoutes.Yaml.Token.Stream

/-!
# Documents from YAML texts

`Document.ofYaml` gives the document that a YAML text is. Containers keep the numbers that they have
in the graph of nodes, so a shared node is a shared container and a node inside itself is a
container that holds itself. They are filled breadth first, which settles which of several faults is
reported. Nodes that are followed inside one another, to be read, merged or taken for a text, are
followed within limits.
-/

set_option autoImplicit false

namespace TypedRoutes.Yaml

/-- A document that is being filled: the graph, in which merging takes place, the limits on what is
nested there, the containers, the numbers of those that were met, in the order in which they are to
be filled, and which nodes were met. -/
structure Filling where
  graph : Graph
  limits : Limits
  nodes : Array Document.Node
  order : Array Nat
  met : Array Bool

/-- A key of a mapping that is being filled. A NaN without a name is the one of the node that made
it: no other NaN is the same key. -/
structure Key where
  scalar : Scalar
  maker : Option Nat
  deriving DecidableEq, Repr

/-- Are two keys the same? -/
def Key.same (a b : Key) : Bool := a.scalar.sameKey b.scalar && a.maker = b.maker

namespace Filling

/-- The text of a scalar. A mapping counts as the scalar under its special key of values; `steps` is
the number of nodes that can be passed, of which a mapping that leads to itself takes all. -/
def textOf (g : Graph) : (steps : Nat) → Nat → Except Fault String
  | 0, _ => .error .nesting
  | steps + 1, id =>
    match g[id]? with
    | some (.scalar _ text) => .ok text
    | some (.mapping _ entries) =>
      match entries.find? fun (key, _) => g.tagOf key = .value with
      | some (_, value) => textOf g steps value
      | none => .error .malformed
    | _ => .error .malformed

/-- Does a scalar tag fit a node? A timestamp has to be a scalar itself. -/
def checkKind (g : Graph) (tag : Tag) (id : Nat) : Except Fault Unit :=
  if tag = .timestamp ∧ g.isMapping id then .error .timestampMapping else .ok ()

/-- Is the tag one of containers? -/
def isContainer : Tag → Bool
  | .omap | .pairs | .set | .seq | .map => true
  | _ => false

/-- The text of a scalar in the graph. -/
def text (f : Filling) (id : Nat) : Except Fault String := textOf f.graph f.limits.references id

/-- The value of a node. A container that was not met before has to wait for being filled. -/
def value (f : Filling) (id : Nat) : Except Fault (Document.Value × Filling) := do
  let tag := f.graph.tagOf id
  if isContainer tag then
    if f.met.getD id false then return (.node id, f)
    else
      let order := f.order.push id
      return (.node id, { f with order, met := f.met.setIfInBounds id true })
  else if tag = .merge ∨ tag = .value ∨ tag = .other then throw .malformed
  else
    let text ← f.text id
    checkKind f.graph tag id
    match tag.read? text with
    | some read => do
      let scalar ← read
      return (.scalar scalar, f)
    | none => throw .malformed

/-- The values of several nodes. -/
def values (f : Filling) : List Nat → Except Fault (List Document.Value × Filling)
  | [] => .ok ([], f)
  | id :: rest => do
    let (v, f) ← f.value id
    let (vs, f) ← values f rest
    return (v :: vs, f)

/-- The key that a scalar makes where it stands for a node. -/
def key (f : Filling) (id : Nat) (scalar : Scalar) : Key :=
  let isMade := scalar = .float .nan && !(f.text id).toOption.any isNaNName
  ⟨scalar, if isMade then some id else none⟩

/-- The key and the value of an entry. A key has to be a scalar. -/
def assignment (f : Filling) (keyId valueId : Nat) :
    Except Fault ((Key × Document.Value) × Filling) := do
  let (key, f) ← f.value keyId
  match key with
  | .scalar scalar =>
    let (v, f) ← f.value valueId
    return ((f.key keyId scalar, v), f)
  | .node _ => throw .malformed

/-- The keys and values of entries, after those that are `done`, of which the last comes first. -/
def assignments (f : Filling) (done : List (Key × Document.Value)) :
    List (Nat × Nat) → Except Fault (List (Key × Document.Value) × Filling)
  | [] => .ok (done.reverse, f)
  | (keyId, valueId) :: rest =>
    match f.assignment keyId valueId with
    | .ok (entry, f) => assignments f (entry :: done) rest
    | .error fault => .error fault

/-- The entries of a mapping: its merge keys are resolved, and equal keys are one. -/
def entries (f : Filling) (id : Nat) :
    Except Fault (List (Scalar × Document.Value) × Filling) := do
  if !f.graph.isMapping id then throw .malformed
  let graph ← f.graph.flattenWithin f.limits.merges id
  let (list, f) ← assignments { f with graph } [] (graph.entriesOf id)
  let distinct := Entries.ofAssignments Key.same list
  return (distinct.map fun (key, v) => (key.scalar, v), f)

/-- The numbers of the items of a sequence. -/
def itemsOf (f : Filling) (id : Nat) : Except Fault (List Nat) :=
  match f.graph[id]? with
  | some (.sequence _ items) => .ok items
  | _ => .error .malformed

/-- Adds a container that no node stands for. -/
def add (f : Filling) (node : Document.Node) : Document.Value × Filling :=
  (.node f.nodes.size, { f with nodes := f.nodes.push node })

/-- The pairs that mappings of one entry each are. -/
def pairs (f : Filling) : List Nat → Except Fault (List Document.Value × Filling)
  | [] => .ok ([], f)
  | id :: rest =>
    match f.graph[id]? with
    | some (.mapping _ [(keyId, valueId)]) => do
      let (key, f) ← f.value keyId
      let (v, f) ← f.value valueId
      let (pair, f) := f.add (.pair key v)
      let (others, f) ← pairs f rest
      return (pair :: others, f)
    | _ => .error .malformed

/-- The container that a node is. -/
def container (f : Filling) (id : Nat) : Except Fault (Document.Node × Filling) := do
  match f.graph.tagOf id with
  | .map =>
    let (list, f) ← f.entries id
    return (.map list, f)
  | .set =>
    let (list, f) ← f.entries id
    return (.set (list.map Prod.fst), f)
  | .seq =>
    let (list, f) ← f.values (← f.itemsOf id)
    return (.list list, f)
  | _ =>
    let (list, f) ← f.pairs (← f.itemsOf id)
    return (.list list, f)

/-- Fills the containers that were met, from an index of their order on. Filling one may add others
to the order; every node is in it once at most. -/
def fill : (fuel : Nat) → (index : Nat) → Filling → Except Fault Filling
  | 0, _, f => .ok f
  | fuel + 1, index, f =>
    match f.order[index]? with
    | none => .ok f
    | some id => do
      let (node, f) ← container f id
      fill fuel (index + 1) { f with nodes := f.nodes.setIfInBounds id node }

end Filling

/-- The document that a graph of nodes is, seen from a node. -/
def documentOf (limits : Limits) (root : Nat) (graph : Graph) : Except Fault Document := do
  let start : Filling := {
    graph
    limits
    nodes := Array.replicate graph.size (.list [])
    order := #[]
    met := Array.replicate graph.size false }
  let (value, f) ← start.value root
  let f ← f.fill (graph.size + 1) 0
  return ⟨f.nodes, value⟩

end TypedRoutes.Yaml

namespace TypedRoutes

/-- The document that a YAML text is. A text without a document is null. -/
def Document.ofYaml (limits : Limits) (text : String) : Except Yaml.Fault Document := do
  match ← Yaml.Node.ofTokens limits.collections (Yaml.Token.ofText text) with
  | none => return ⟨#[], .scalar .null⟩
  | some node =>
    let (root, graph) ← Yaml.Graph.ofNode node
    Yaml.documentOf limits root graph

end TypedRoutes
