import TypedRoutes.Yaml.Graph

/-!
# Merge keys

An entry with the merge key puts the entries of one mapping, or of several, in front of those around
it, so that the own entries win, and of several merged mappings the earlier one. Merging changes the
mapping in place: a merge key is gone before the mapping that it names is looked at, which is what
ends the merging of mappings that name each other.
-/

set_option autoImplicit false

namespace TypedRoutes.Yaml.Graph

/-- Is there a mapping with this number? -/
def isMapping (g : Graph) (id : Nat) : Bool :=
  match g[id]? with
  | some (.mapping _ _) => true
  | _ => false

/-- Merges several mappings: the entries of the last one come first. -/
def mergeAll (flatten : Graph → Nat → Except Fault Graph) :
    Graph → List Nat → Except Fault (Graph × List (Nat × Nat))
  | g, [] => .ok (g, [])
  | g, id :: rest => do
    if !g.isMapping id then throw .malformed
    let g ← flatten g id
    let entries := g.entriesOf id
    let (g, others) ← mergeAll flatten g rest
    return (g, others ++ entries)

/-- The entries that the value of a merge key gives. -/
def mergedBy (flatten : Graph → Nat → Except Fault Graph) (g : Graph) (value : Nat) :
    Except Fault (Graph × List (Nat × Nat)) :=
  match g[value]? with
  | some (.mapping _ _) => (flatten g value).map fun g => (g, g.entriesOf value)
  | some (.sequence _ items) => mergeAll flatten g items
  | _ => .error .malformed

/-- Walks over the entries of a mapping from an index on, takes the merge keys out and collects what
they give. The special key of values becomes a string. `rest` holds the entries from the index on;
merging may change the mapping itself, so they are looked up again after it. -/
def collect (flatten : Graph → Nat → Except Fault Graph) (id : Nat) :
    (steps : Nat) → (index : Nat) → (rest : List (Nat × Nat)) → Graph →
      Except Fault (Graph × List (Nat × Nat))
  | 0, _, _, g | _ + 1, _, [], g => .ok (g, [])
  | steps + 1, index, (key, value) :: rest, g =>
    match g.tagOf key with
    | .merge => do
      let g := g.setEntries id ((g.entriesOf id).eraseIdx index)
      let (g, first) ← mergedBy flatten g value
      let (g, others) ← collect flatten id steps index ((g.entriesOf id).drop index) g
      return (g, first ++ others)
    | .value => collect flatten id steps (index + 1) rest (g.retag key .str)
    | _ => collect flatten id steps (index + 1) rest g

/-- Takes the merge keys out of a mapping and puts the entries that they give in front. `depth` is
the number of mappings that can be merged at a time. -/
def flattenWithin : (depth : Nat) → Graph → Nat → Except Fault Graph
  | 0, _, _ => .error .nesting
  | depth + 1, g, id => do
    let entries := g.entriesOf id
    let (g, merged) ← collect (flattenWithin depth) id (entries.length + 1) 0 entries g
    return if merged.isEmpty then g else g.setEntries id (merged ++ g.entriesOf id)

end TypedRoutes.Yaml.Graph
