import TypedRoutes.Proofs.Document.Nodes

/-!
# Larger documents

`Document.Extends` says that a table has the nodes of another one. A document is closed if every
reference in it leads to a node (`Document.isClosed`). Below a value of a closed document there is
the same tree in every document that has its nodes (`unfold_of_extends`), since nothing that is
added can be reached from there.
-/

set_option autoImplicit false

namespace TypedRoutes.Document

/-- A table that has the nodes of another one. -/
def Extends (before after : Array Node) : Prop :=
  before.size ≤ after.size ∧ ∀ (id : Nat) (node : Node), before[id]? = some node →
    after[id]? = some node

section

variable {nodes more : Array Node}

theorem Extends.refl (nodes : Array Node) : Extends nodes nodes :=
  ⟨Nat.le_refl _, fun _ _ h => h⟩

theorem Extends.trans {last : Array Node} (h : Extends nodes more) (hlast : Extends more last) :
    Extends nodes last :=
  ⟨Nat.le_trans h.1 hlast.1, fun id node hnode => hlast.2 id node (h.2 id node hnode)⟩

theorem extends_push (nodes : Array Node) (node : Node) : Extends nodes (nodes.push node) := by
  refine ⟨by simp, ?_⟩
  intro id old hold
  obtain ⟨hlt, -⟩ := Array.getElem?_eq_some_iff.1 hold
  rw [Array.getElem?_push, if_neg (by omega), hold]

end

/-! ## Closed documents -/

/-- Is the value no reference beyond a table of this size? -/
def Value.isIn (size : Nat) : Value → Bool
  | .scalar _ => true
  | .node id => id < size

/-- Does every reference in a node lead to a node? -/
def isClosed (doc : Document) : Bool :=
  doc.nodes.all fun node => node.parts.all (Value.isIn doc.nodes.size)

variable {doc larger : Document} {v : Value}

/-- The parts of a node of a closed document are values of the document. -/
theorem isIn_of_mem_parts (hclosed : doc.isClosed = true) {id : Nat} {node : Node}
    (hnode : doc.nodes[id]? = some node) : ∀ w ∈ node.parts, w.isIn doc.nodes.size = true := by
  rw [isClosed, Array.all_eq_true'] at hclosed
  exact List.all_eq_true.1 (hclosed node (Array.mem_of_getElem? hnode))

section Extended

variable (hmore : Extends doc.nodes larger.nodes) (hv : v.isIn doc.nodes.size = true)
include hmore hv

theorem getElem?_of_extends {id : Nat} (hid : v = .node id) :
    larger.nodes[id]? = doc.nodes[id]? := by
  subst hid
  have hlt : id < doc.nodes.size := by simpa [Value.isIn] using hv
  rw [Array.getElem?_eq_getElem hlt]
  exact hmore.2 id _ (Array.getElem?_eq_getElem hlt)

/-- A value keeps its shape in a larger document. -/
theorem shape_of_extends : larger.shape v = doc.shape v := by
  cases v with
  | scalar s => rfl
  | node id => rw [shape, shape, getElem?_of_extends hmore hv rfl]

theorem mapping?_of_extends : larger.mapping? v = doc.mapping? v := by
  cases v with
  | scalar s => rfl
  | node id => rw [mapping?, mapping?, getElem?_of_extends hmore hv rfl]

end Extended

/-! ## Trees -/

/-- The tree below a node is put together from the trees of its parts. -/
theorem unfoldWithin_congr {depth depth' id : Nat} {active active' : List Nat}
    (hnodes : larger.nodes[id]? = doc.nodes[id]?) (hactives : id ∈ active' ↔ id ∈ active)
    (hparts : ∀ node, doc.nodes[id]? = some node → id ∉ active → ∀ w ∈ node.parts,
      larger.unfoldWithin depth' (id :: active') w = doc.unfoldWithin depth (id :: active) w) :
    larger.unfoldWithin (depth' + 1) active' (.node id) =
      doc.unfoldWithin (depth + 1) active (.node id) := by
  rw [unfoldWithin, unfoldWithin, hnodes]
  cases hnode : doc.nodes[id]? with
  | none => rfl
  | some node =>
    dsimp only
    -- An active node is cut off in both; any other has the same parts, which unfold alike.
    by_cases hactive : id ∈ active
    · rw [if_pos hactive, if_pos (hactives.2 hactive)]
    · rw [if_neg hactive, if_neg (mt hactives.1 hactive)]
      have hbelow := hparts node hnode hactive
      cases node with
      | list items => exact congrArg Datum.list (List.map_congr_left hbelow)
      | set members => rfl
      | pair a b =>
        have hfirst := hbelow a (by simp [Node.parts])
        have hsecond := hbelow b (by simp [Node.parts])
        exact congrArg₂ Datum.pair hfirst hsecond
      | map entries =>
        refine congrArg Datum.map (List.map_congr_left fun entry hentry => ?_)
        rw [hbelow entry.2 (List.mem_map_of_mem hentry)]

/-- A value of a closed document is unfolded alike in a larger one, by induction on the depth. -/
theorem unfoldWithin_of_extends (hmore : Extends doc.nodes larger.nodes)
    (hclosed : doc.isClosed = true) (hv : v.isIn doc.nodes.size = true) (depth : Nat)
    (active : List Nat) : larger.unfoldWithin depth active v = doc.unfoldWithin depth active v := by
  induction depth generalizing active v with
  | zero => cases v <;> rfl
  | succ depth ih =>
    cases v with
    | scalar s => rfl
    | node id =>
      refine unfoldWithin_congr (getElem?_of_extends hmore hv rfl) Iff.rfl ?_
      intro node hnode _ w hw
      exact ih (isIn_of_mem_parts hclosed hnode w hw) (id :: active)

/-- One level for each node that is not active, and one more, are enough for a tree. -/
theorem unfoldWithin_eq_of_idle_lt {depth deeper : Nat} {active : List Nat}
    (hdepth : doc.idle (fun _ => true) active < depth) (hle : depth ≤ deeper) :
    doc.unfoldWithin deeper active v = doc.unfoldWithin depth active v := by
  induction depth generalizing active v deeper with
  | zero => exact absurd hdepth (Nat.not_lt_zero _)
  | succ depth ih =>
    obtain ⟨deeper, rfl⟩ := Nat.exists_eq_add_of_le' (show 1 ≤ deeper by omega)
    cases v with
    | scalar s => rfl
    | node id =>
      refine unfoldWithin_congr rfl Iff.rfl fun node hnode hactive w _ => ?_
      have hless : doc.idle (fun _ => true) (id :: active) < doc.idle (fun _ => true) active :=
        idle_cons_lt hnode rfl hactive
      exact ih (by omega) (by omega)

/-- A value of a closed document is the same tree in a larger document. -/
theorem unfold_of_extends (hmore : Extends doc.nodes larger.nodes) (hclosed : doc.isClosed = true)
    (hv : v.isIn doc.nodes.size = true) : larger.unfold v = doc.unfold v := by
  have henough : doc.idle (fun _ => true) [] < doc.nodes.size + 1 := by
    rw [idle_nil]
    exact Nat.lt_succ_of_le Array.countP_le_size
  rw [unfold, unfold, unfoldWithin_of_extends hmore hclosed hv]
  exact unfoldWithin_eq_of_idle_lt henough (Nat.succ_le_succ hmore.1)

end TypedRoutes.Document
