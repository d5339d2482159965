import Mathlib.Logic.Relation
import TypedRoutes.Document.Display
import TypedRoutes.Json.OfDatum
import TypedRoutes.Proofs.Document.Nodes
import TypedRoutes.Proofs.Json.Datum

/-!
# What a value contains

`Document.Holds` says that a value is a part of another one, looking at one node of the document,
and `Document.Contains` that it is in it at any depth. A value of a document without oversized
integers has a JSON form unless it contains a container that contains itself, or a mapping with a
key that has no name (`exists_fold_jsonFold_iff`): the walk that writes a value finds every such
fault, and it finds no other. A plain text it always has (`exists_text`).
-/

set_option autoImplicit false

namespace TypedRoutes

/-- Keys that JSON has no name for. -/
def Scalar.isNameless : Scalar → Bool
  | .bytes _ | .date _ | .timestamp _ => true
  | _ => false

/-- Is the scalar no integer of more digits than can be written? -/
def Scalar.isWithinLimit : Scalar → Bool
  | .int n => n.natAbs < tenTo digitLimit
  | _ => true

namespace Document

/-- The keys of a mapping. -/
def Node.keys : Node → List Scalar
  | .map entries => entries.map Prod.fst
  | _ => []

/-- The members of a set. -/
def Node.members : Node → List Scalar
  | .set members => members
  | _ => []

/-- The scalar that a value is. -/
def Value.scalar? : Value → Option Scalar
  | .scalar s => some s
  | .node _ => none

/-- The scalars in a node. -/
def Node.scalars (node : Node) : List Scalar :=
  node.keys ++ node.members ++ node.parts.filterMap Value.scalar?

variable (doc : Document)

/-- Has no integer of the document more digits than can be written? -/
def isWithinLimit : Bool := doc.nodes.all fun node => node.scalars.all Scalar.isWithinLimit

/-- A value is a part of the node that another one refers to. -/
inductive Holds : Value → Value → Prop
  | part {id : Nat} {node : Node} {v : Value} :
      doc.nodes[id]? = some node → v ∈ node.parts → Holds (.node id) v

/-- A value is in another one at some depth, or is the same. -/
def Contains : Value → Value → Prop := Relation.ReflTransGen doc.Holds

/-- The value contains a container that contains itself. -/
def HasCycle (v : Value) : Prop :=
  ∃ w, doc.Contains v w ∧ Relation.TransGen doc.Holds w w

/-- The value contains a mapping with a key that is a date, a timestamp or bytes. -/
def HasNamelessKey (v : Value) : Prop :=
  ∃ id node, doc.Contains v (.node id) ∧ doc.nodes[id]? = some node ∧
    ∃ key ∈ node.keys, key.isNameless = true

/-- The value has no JSON form, whatever the limit on digits is. -/
def IsUnwritable (v : Value) : Prop := doc.HasCycle v ∨ doc.HasNamelessKey v

variable {doc}

/-- A value that contains one that cannot be written cannot be written. -/
theorem IsUnwritable.of_contains {v w : Value} (h : doc.Contains v w) (hw : doc.IsUnwritable w) :
    doc.IsUnwritable v := by
  rcases hw with ⟨x, hx, hcycle⟩ | ⟨id, node, hid, hnode, hkey⟩
  · exact .inl ⟨x, Relation.ReflTransGen.trans h hx, hcycle⟩
  · exact .inr ⟨id, node, Relation.ReflTransGen.trans h hid, hnode, hkey⟩

/-! ## Values that are written -/

/-- The value has a JSON form as far as its parts have: keys have names, and nothing contains
itself. -/
inductive Plain (doc : Document) : Value → Prop
  | scalar (s : Scalar) : Plain doc (.scalar s)
  | absent {id : Nat} : doc.nodes[id]? = none → Plain doc (.node id)
  | node {id : Nat} {node : Node} :
      doc.nodes[id]? = some node → (∀ key ∈ node.keys, key.isNameless = false) →
        (∀ v ∈ node.parts, Plain doc v) → Plain doc (.node id)

theorem Plain.of_holds {v w : Value} (h : doc.Plain v) (hw : doc.Holds v w) : doc.Plain w := by
  obtain ⟨hnode, hmem⟩ := hw
  cases h with
  | absent hnone => cases hnode.symm.trans hnone
  | node hnode' _ hparts =>
    obtain rfl := Option.some.inj (hnode.symm.trans hnode')
    exact hparts w hmem

/-- What a plain value contains at any depth is plain. -/
theorem Plain.of_contains {v w : Value} (h : doc.Plain v) (hw : doc.Contains v w) :
    doc.Plain w := by
  induction hw with
  | refl => exact h
  | tail _ hstep ih => exact ih.of_holds hstep

/-- A plain value does not contain itself. -/
theorem Plain.not_transGen {v : Value} (h : doc.Plain v) : ¬ Relation.TransGen doc.Holds v v := by
  induction h with
  | scalar s =>
    intro hcycle
    obtain ⟨w, hstep, -⟩ := Relation.TransGen.head'_iff.1 hcycle
    cases hstep
  | absent hnone =>
    intro hcycle
    obtain ⟨w, hstep, -⟩ := Relation.TransGen.head'_iff.1 hcycle
    obtain ⟨hnode, -⟩ := hstep
    cases hnode.symm.trans hnone
  | node hnode _ _ ih =>
    intro hcycle
    obtain ⟨w, hstep, hback⟩ := Relation.TransGen.head'_iff.1 hcycle
    -- The part through which the cycle leads contains itself as well.
    have hpart := Relation.TransGen.tail' hback hstep
    obtain ⟨hnode', hmem⟩ := hstep
    obtain rfl := Option.some.inj (hnode'.symm.trans hnode)
    exact ih w hmem hpart

/-- A plain value can be written: it has no cycle and no nameless key. -/
theorem Plain.not_isUnwritable {v : Value} (h : doc.Plain v) : ¬ doc.IsUnwritable v := by
  rintro (⟨w, hw, hcycle⟩ | ⟨id, node, hid, hnode, key, hkey, hnameless⟩)
  · exact (h.of_contains hw).not_transGen hcycle
  · cases h.of_contains hid with
    | absent hnone => cases hnode.symm.trans hnone
    | node hnode' hnames _ =>
      obtain rfl := Option.some.inj (hnode.symm.trans hnode')
      rw [hnames key hkey] at hnameless
      cases hnameless

end Document

/-! ## Folding a value -/

theorem Scalar.integerText_of_isWithinLimit {n : Int} (h : (Scalar.int n).isWithinLimit = true) :
    integerText n = .ok (decimalText n) := by
  rw [isWithinLimit, decide_eq_true_iff] at h
  exact integerText_eq_ok_iff.2 ⟨h, rfl⟩

theorem Scalar.exists_shown {s : Scalar} (h : s.isWithinLimit = true) :
    ∃ text, s.shown = .ok text := by
  cases s with
  | int n => rw [shown, integerText_of_isWithinLimit h]; exact ⟨_, rfl⟩
  | _ => exact ⟨_, rfl⟩

theorem Scalar.exists_text {s : Scalar} (h : s.isWithinLimit = true) :
    ∃ text, s.text = .ok text := by
  have hshown := exists_shown h
  cases s with
  | str s => exact ⟨s, rfl⟩
  | date d => exact ⟨d.text, rfl⟩
  | timestamp t => exact ⟨t.text, rfl⟩
  | _ => exact hshown

theorem Scalar.exists_toJson {s : Scalar} (h : s.isWithinLimit = true) : ∃ j, s.toJson = .ok j := by
  cases s with
  | int n => rw [toJson, integerText_of_isWithinLimit h]; exact ⟨_, rfl⟩
  | _ => exact ⟨_, rfl⟩

/-- A scalar within the limit has a name exactly when it is one of the kinds that have names. -/
theorem Scalar.exists_name_iff {s : Scalar} (h : s.isWithinLimit = true) :
    (∃ name, s.name = .ok name) ↔ s.isNameless = false := by
  cases s with
  | int n => rw [name, integerText_of_isWithinLimit h]; exact ⟨fun _ => rfl, fun _ => ⟨_, rfl⟩⟩
  | bytes _ | date _ | timestamp _ =>
    constructor
    · rintro ⟨name, hname⟩
      cases hname
    · intro hnamed
      cases hnamed
  | _ => exact ⟨fun _ => rfl, fun _ => ⟨_, rfl⟩⟩

namespace Document

theorem isWithinLimit_of_mem_scalars {doc : Document} (hdoc : doc.isWithinLimit = true) {id : Nat}
    {node : Node} (hnode : doc.nodes[id]? = some node) :
    ∀ s ∈ node.scalars, s.isWithinLimit = true := by
  rw [isWithinLimit, Array.all_eq_true'] at hdoc
  exact List.all_eq_true.1 (hdoc node (Array.mem_of_getElem? hnode))

theorem mem_scalars_of_mem_parts {node : Node} {s : Scalar} (h : .scalar s ∈ node.parts) :
    s ∈ node.scalars :=
  List.mem_append_right _ (List.mem_filterMap.2 ⟨.scalar s, h, rfl⟩)

/-- A set can be shown when its members are within the limit. -/
theorem exists_shownSet {members : List Scalar} (h : ∀ s ∈ members, s.isWithinLimit = true) :
    ∃ text, shownSet members = .ok text := by
  obtain ⟨shown, hshown⟩ := Outcome.exists_mapM_iff.2 fun s hs => Scalar.exists_shown (h s hs)
  exact ⟨_, Outcome.bind_eq_ok.2 ⟨shown, hshown, rfl⟩⟩

variable {doc : Document}

/-- A node has a result if and only if its members, its keys and its parts have. -/
theorem exists_foldWithin_iff {ε β : Type} {f : Datum.Fold ε β} (hempty : ∃ x, f.set [] = .ok x)
    {depth : Nat} {active : List Nat} {id : Nat} {node : Node}
    (hnode : doc.nodes[id]? = some node) (hidle : id ∉ active) :
    (∃ x, foldWithin doc f (depth + 1) active (.node id) = .ok x) ↔
      (∃ x, f.set node.members = .ok x) ∧
      (∀ key ∈ node.keys, ∃ name, f.key key = .ok name) ∧
      ∀ v ∈ node.parts, ∃ x, foldWithin doc f depth (id :: active) v = .ok x := by
  rw [foldWithin, hnode]
  simp only [if_neg hidle]
  -- A node has members, keys or parts, according to its kind; what it lacks asks for nothing.
  cases node with
  | list items =>
    simp only [Outcome.exists_map_iff, Outcome.exists_mapM_iff, Node.members, Node.keys,
      Node.parts, hempty]
    simp
  | set members =>
    simp only [Node.members, Node.keys, Node.parts]
    simp
  | pair a b =>
    simp only [Outcome.exists_seq_iff, Node.members, Node.keys, Node.parts, hempty]
    simp
  | map entries =>
    have hentry (entry : Scalar × Value) :
        (∃ member, f.entry (foldWithin doc f depth (id :: active)) entry = .ok member) ↔
          (∃ name, f.key entry.1 = .ok name) ∧
            ∃ x, foldWithin doc f depth (id :: active) entry.2 = .ok x :=
      Outcome.exists_seq_iff
    simp only [Outcome.exists_map_iff, Outcome.exists_mapM_iff, Node.members, Node.keys,
      Node.parts, hempty, hentry, List.forall_mem_map, forall_and, true_and]

theorem exists_jsonFold_set {members : List Scalar} (h : ∃ text, shownSet members = .ok text) :
    ∃ j, Datum.jsonFold.set members = .ok j := by
  obtain ⟨text, htext⟩ := h
  refine ⟨.str text, withinLimit_eq_ok.2 ?_⟩
  rw [htext]
  rfl

/-- What the walk has written contains no fault: the active nodes, at which it stops, have no JSON
form, so it has met none of them. -/
theorem plain_of_foldWithin {depth : Nat} {active : List Nat} {v : Value}
    (h : ∃ j, foldWithin doc Datum.jsonFold depth active v = .ok j)
    (hdoc : doc.isWithinLimit = true) (hdepth : doc.idle (fun _ => true) active < depth) :
    doc.Plain v := by
  induction depth generalizing active v with
  | zero => exact absurd hdepth (Nat.not_lt_zero _)
  | succ depth ih =>
    cases v with
    | scalar s => exact .scalar s
    | node id =>
      cases hnode : doc.nodes[id]? with
      | none => exact .absent hnode
      | some node =>
        by_cases hactive : id ∈ active
        -- Of the nodes that stop the walk only sets have a JSON form, and they hold nothing.
        · obtain ⟨j, hj⟩ := h
          rw [foldWithin, hnode] at hj
          simp only [if_pos hactive] at hj
          cases node with
          | set members => exact .node hnode (List.forall_mem_nil _) (List.forall_mem_nil _)
          | _ => cases hj
        · obtain ⟨-, hkeys, hparts⟩ :=
            (exists_foldWithin_iff (f := Datum.jsonFold) ⟨_, rfl⟩ hnode hactive).1 h
          have hless : doc.idle (fun _ => true) (id :: active) <
            doc.idle (fun _ => true) active := idle_cons_lt hnode rfl hactive
          refine .node hnode (fun key hkey => ?_) fun part hpart =>
            ih (hparts part hpart) (by omega)
          have hkeyLimit : key.isWithinLimit = true :=
            isWithinLimit_of_mem_scalars hdoc hnode key (by simp [Node.scalars, hkey])
          exact (Scalar.exists_name_iff hkeyLimit).1 (hkeys key hkey)

/-- A value without a fault is written if the walk does not lead to an active node. -/
theorem exists_foldWithin {depth : Nat} {active : List Nat} {v : Value}
    (hdoc : doc.isWithinLimit = true) (hscalar : ∀ s, v = .scalar s → s.isWithinLimit = true)
    (hwritable : ¬ doc.IsUnwritable v) (hactive : ∀ id ∈ active, ¬ doc.Contains v (.node id)) :
    ∃ j, foldWithin doc Datum.jsonFold depth active v = .ok j := by
  induction depth generalizing active v with
  | zero =>
    cases v with
    | scalar s => exact Scalar.exists_toJson (hscalar s rfl)
    | node id => exact ⟨.null, rfl⟩
  | succ depth ih =>
    cases v with
    | scalar s => exact Scalar.exists_toJson (hscalar s rfl)
    | node id =>
      cases hnode : doc.nodes[id]? with
      | none => exact ⟨.null, by rw [foldWithin, hnode]; rfl⟩
      | some node =>
        have hidle : id ∉ active := fun hmem => hactive id hmem .refl
        have hlimit := isWithinLimit_of_mem_scalars hdoc hnode
        have hset : ∃ text, shownSet node.members = .ok text :=
          exists_shownSet fun s hs => hlimit s (by simp [Node.scalars, hs])
        refine (exists_foldWithin_iff (f := Datum.jsonFold) ⟨_, rfl⟩ hnode hidle).2
          ⟨exists_jsonFold_set hset, fun key hkey => ?_, fun part hpart => ?_⟩
        · refine (Scalar.exists_name_iff (hlimit key (by simp [Node.scalars, hkey]))).2 ?_
          by_contra hnameless
          exact hwritable (.inr ⟨id, node, .refl, hnode, key, hkey, by simpa using hnameless⟩)
        · have hholds : doc.Holds (.node id) part := .part hnode hpart
          refine ih (fun s hs => hlimit s (mem_scalars_of_mem_parts (hs ▸ hpart)))
            (fun hpart => hwritable (hpart.of_contains (.single hholds)))
            (List.forall_mem_cons.2 ⟨fun hback => ?_, fun other hother hcontains => ?_⟩)
          -- A part that leads back to the node closes a cycle.
          · exact hwritable (.inl ⟨.node id, .refl, Relation.TransGen.head' hholds hback⟩)
          · exact hactive other hother (Relation.ReflTransGen.head hholds hcontains)

/-- A value has a JSON form if and only if it contains neither a cycle nor a key without a name. -/
theorem exists_fold_jsonFold_iff (hdoc : doc.isWithinLimit = true) {v : Value}
    (hscalar : ∀ s, v = .scalar s → s.isWithinLimit = true) :
    (∃ j, doc.fold Datum.jsonFold v = .ok j) ↔ ¬ doc.IsUnwritable v := by
  constructor
  · intro h
    refine (plain_of_foldWithin h hdoc ?_).not_isUnwritable
    rw [idle_nil]
    exact Nat.lt_succ_of_le Array.countP_le_size
  · exact fun hwritable => exists_foldWithin hdoc hscalar hwritable nofun

/-! ## Showing a value -/

/-- Every value of a document without oversized integers is shown: a container that is met inside
itself has a text as well. -/
theorem exists_foldWithin_shownFold (hdoc : doc.isWithinLimit = true) {depth : Nat}
    {active : List Nat} {v : Value} (hscalar : ∀ s, v = .scalar s → s.isWithinLimit = true) :
    ∃ text, foldWithin doc Datum.shownFold depth active v = .ok text := by
  induction depth generalizing active v with
  | zero =>
    cases v with
    | scalar s => exact Scalar.exists_shown (hscalar s rfl)
    | node id => exact ⟨_, rfl⟩
  | succ depth ih =>
    cases v with
    | scalar s => exact Scalar.exists_shown (hscalar s rfl)
    | node id =>
      cases hnode : doc.nodes[id]? with
      | none => exact ⟨"None", by rw [foldWithin, hnode]; rfl⟩
      | some node =>
        have hlimit := isWithinLimit_of_mem_scalars hdoc hnode
        have hset : ∃ text, shownSet node.members = .ok text :=
          exists_shownSet fun s hs => hlimit s (by simp [Node.scalars, hs])
        -- In a cycle only a set is shown by its members, and those are scalars.
        by_cases hactive : id ∈ active
        · rw [foldWithin, hnode]
          simp only [if_pos hactive]
          cases node with
          | set members => exact hset
          | _ => exact ⟨_, rfl⟩
        · refine (exists_foldWithin_iff (f := Datum.shownFold) ⟨_, rfl⟩ hnode hactive).2
            ⟨hset, fun key hkey => ?_, fun part hpart => ?_⟩
          · exact Scalar.exists_shown (hlimit key (by simp [Node.scalars, hkey]))
          · exact ih fun s hs => hlimit s (mem_scalars_of_mem_parts (hs ▸ hpart))

theorem exists_text (hdoc : doc.isWithinLimit = true) {v : Value}
    (hscalar : ∀ s, v = .scalar s → s.isWithinLimit = true) : ∃ text, doc.text v = .ok text := by
  cases v with
  | scalar s => exact Scalar.exists_text (hscalar s rfl)
  | node id => exact exists_foldWithin_shownFold hdoc nofun

end Document

end TypedRoutes
