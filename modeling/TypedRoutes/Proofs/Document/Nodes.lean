import Mathlib.Data.List.Basic
import TypedRoutes.Document

/-!
# Nodes of a document

`Document.Node.parts` are the values in a node. The values whose heads are mappings and lists refer
to nodes that are such (`exists_node_of_mapping?`, `exists_node_of_shape_list`).

A walk through a document that goes no further at a node that it is inside of already is bounded by
the number of nodes, or of those of one kind if it enters no others. `Document.idle` counts the
nodes of a kind that a walk is not inside of: at first these are all of them (`idle_nil`), and with
every node that is entered they become fewer (`idle_cons_lt`).
-/

set_option autoImplicit false

namespace TypedRoutes.Document

/-- The values that a node holds. -/
def Node.parts : Node → List Value
  | .list items => items
  | .set _ => []
  | .pair a b => [a, b]
  | .map entries => entries.map Prod.snd

/-! ## Nodes behind values -/

section

variable {doc : Document} {v : Value}

/-- A value that is a mapping is a node of the document with these entries. -/
theorem exists_node_of_mapping? {id : Nat} {entries : List (Scalar × Value)}
    (h : doc.mapping? v = some (id, entries)) :
    v = .node id ∧ doc.nodes[id]? = some (.map entries) := by
  unfold mapping? at h
  split at h
  · split at h
    · next hnode =>
      obtain ⟨rfl, rfl⟩ := Prod.mk.inj (Option.some.inj h)
      exact ⟨rfl, hnode⟩
    · cases h
  · cases h

/-- A value with the shape of a list is a node of the document with these items. -/
theorem exists_node_of_shape_list {items : List Value} (h : doc.shape v = .list items) :
    ∃ id, v = .node id ∧ doc.nodes[id]? = some (.list items) := by
  unfold shape at h
  split at h
  · cases h
  · next id =>
    split at h
    · next hnode =>
      obtain rfl := Shape.list.inj h
      exact ⟨id, rfl, hnode⟩
    · cases h
    · cases h
    · cases h
    · cases h

end

/-! ## Idle nodes -/

section

variable (doc : Document) (kind : Node → Bool)

/-- The number of nodes of a kind that are not among the active ones. -/
def idle (active : List Nat) : Nat :=
  (List.range doc.nodes.size).countP fun id => doc.nodes[id]?.any kind && !active.contains id

theorem idle_nil : doc.idle kind [] = doc.nodes.countP kind := by
  have hmap : (List.range doc.nodes.size).map (doc.nodes[·]?) = doc.nodes.toList.map some := by
    apply List.ext_getElem
    · simp
    · intro id hrange hnodes
      have hid : id < doc.nodes.size := by simpa using hnodes
      simp [hid]
  calc doc.idle kind []
      = (List.range doc.nodes.size).countP fun id => doc.nodes[id]?.any kind := by simp [idle]
    _ = ((List.range doc.nodes.size).map (doc.nodes[·]?)).countP (Option.any kind) := by
        rw [List.countP_map]
        rfl
    _ = (doc.nodes.toList.map some).countP (Option.any kind) := by rw [hmap]
    _ = doc.nodes.countP kind := by
        rw [List.countP_map, ← Array.countP_toList]
        rfl

/-- There are fewer idle mappings than the fuel that decoding starts with. -/
theorem idle_isMap_nil_lt : doc.idle Node.isMap [] < doc.mappingCount + 1 := by
  rw [idle_nil]
  exact Nat.lt_succ_self _

variable {doc kind} {id : Nat} {node : Node} {active : List Nat}

/-- Entering a node of a kind that was idle leaves one idle node less. -/
theorem idle_cons_lt (hnode : doc.nodes[id]? = some node) (hkind : kind node = true)
    (hidle : id ∉ active) : doc.idle kind (id :: active) < doc.idle kind active := by
  obtain ⟨hid, -⟩ := Array.getElem?_eq_some_iff.1 hnode
  simp only [idle, List.countP_eq_length_filter]
  have hfilter : (List.range doc.nodes.size).filter
        (fun other => doc.nodes[other]?.any kind && !(id :: active).contains other) =
      ((List.range doc.nodes.size).filter
        (fun other => doc.nodes[other]?.any kind && !active.contains other)).filter (· ≠ id) := by
    rw [List.filter_filter]
    apply List.filter_congr
    intro other _
    by_cases heq : other = id
    · simp [heq]
    · simp [heq]
  -- The node that becomes active is the one that is lost.
  rw [hfilter, List.length_filter_lt_length_iff_exists]
  refine ⟨id, List.mem_filter.2 ⟨List.mem_range.2 hid, ?_⟩, by simp⟩
  rw [hnode]
  simp [hkind, hidle]

end

end TypedRoutes.Document
