import TypedRoutes.Proofs.Document.Contents
import TypedRoutes.Proofs.Document.Extension
import TypedRoutes.Proofs.Schema.Unfolding

/-!
# Schemas without cycles

A value without a cycle is a tree with the same head, and what is in it are trees in the same way
(`Document.shape_unfold`). It does not matter there which nodes are being read, as long as none of
them is met again. So a schema without a cycle is decoded as its tree is, without regard to what has
been met (`decodeWithin_eq_decodePlain_unfold`). Even with cycles, what is being decoded matters
only where it is met again (`decodeWithin_congr_active`).
-/

set_option autoImplicit false

namespace TypedRoutes

namespace Document

variable {doc : Document} {v w : Value} {id : Nat} {active : List Nat}

/-! ## Parts -/

/-- What a value without a cycle contains has no cycle. -/
theorem not_hasCycle_of_contains (h : ¬ doc.HasCycle v) (hw : doc.Contains v w) :
    ¬ doc.HasCycle w := by
  rintro ⟨x, hx, hcycle⟩
  exact h ⟨x, Relation.ReflTransGen.trans hw hx, hcycle⟩

/-- No part of a node leads back to the node or to what the node does not lead to. -/
theorem not_contains_of_holds (h : ¬ doc.HasCycle (.node id))
    (hactive : ∀ other ∈ active, ¬ doc.Contains (.node id) (.node other))
    (hw : doc.Holds (.node id) w) : ∀ other ∈ id :: active, ¬ doc.Contains w (.node other) := by
  refine List.forall_mem_cons.2 ⟨fun hback => ?_, fun other hother hcontains => ?_⟩
  · exact h ⟨.node id, .refl, Relation.TransGen.head' hw hback⟩
  · exact hactive other hother (Relation.ReflTransGen.head hw hcontains)

/-! ## Trees -/

/-- Active nodes make no difference to a value that does not lead to them. -/
theorem unfoldWithin_of_not_contains {active' : List Nat} (depth : Nat) (h : ¬ doc.HasCycle v)
    (hactive : ∀ other ∈ active, ¬ doc.Contains v (.node other))
    (hactive' : ∀ other ∈ active', ¬ doc.Contains v (.node other)) :
    doc.unfoldWithin depth active' v = doc.unfoldWithin depth active v := by
  induction depth generalizing active active' v with
  | zero => cases v <;> rfl
  | succ depth ih =>
    cases v with
    | scalar s => rfl
    | node id =>
      have hidle : id ∉ active := fun hmem => hactive id hmem .refl
      have hidle' : id ∉ active' := fun hmem => hactive' id hmem .refl
      refine unfoldWithin_congr rfl (iff_of_false hidle' hidle) fun node hnode _ w hw => ?_
      have hholds : doc.Holds (.node id) w := .part hnode hw
      exact ih (not_hasCycle_of_contains h (.single hholds))
        (not_contains_of_holds h hactive hholds) (not_contains_of_holds h hactive' hholds)

/-- A part of a value without a cycle is the same tree by itself. -/
theorem unfoldWithin_part {node : Node} (hnode : doc.nodes[id]? = some node)
    (h : ¬ doc.HasCycle (.node id)) :
    ∀ part ∈ node.parts, doc.unfoldWithin doc.nodes.size [id] part = doc.unfold part := by
  intro part hpart
  have hholds : doc.Holds (.node id) part := .part hnode hpart
  have henough : doc.idle (fun _ => true) [id] < doc.nodes.size := by
    have hless : doc.idle (fun _ => true) [id] < doc.idle (fun _ => true) [] :=
      idle_cons_lt hnode rfl List.not_mem_nil
    rw [idle_nil] at hless
    exact Nat.lt_of_lt_of_le hless Array.countP_le_size
  calc doc.unfoldWithin doc.nodes.size [id] part
      = doc.unfoldWithin (doc.nodes.size + 1) [id] part :=
        (unfoldWithin_eq_of_idle_lt henough (Nat.le_succ _)).symm
    _ = doc.unfold part :=
        unfoldWithin_of_not_contains _ (not_hasCycle_of_contains h (.single hholds))
          (List.forall_mem_nil _) (not_contains_of_holds h (List.forall_mem_nil _) hholds)

/-- The tree of a value without a cycle has the head of the value and the trees of its parts. -/
theorem shape_unfold (h : ¬ doc.HasCycle v) :
    (doc.unfold v).shape = (doc.shape v).mapParts doc.unfold := by
  cases v with
  | scalar s => rfl
  | node id =>
    cases hnode : doc.nodes[id]? with
    | none =>
      rw [unfold, unfoldWithin, shape, hnode]
      rfl
    | some node =>
      have hparts := unfoldWithin_part hnode h
      rw [unfold, unfoldWithin, shape, hnode]
      simp only [List.not_mem_nil, if_false]
      cases node with
      | list items => exact congrArg Shape.list (List.map_congr_left hparts)
      | set members => rfl
      | pair a b =>
        have hfirst := hparts a (by simp [Node.parts])
        have hsecond := hparts b (by simp [Node.parts])
        exact congrArg₂ Shape.pair hfirst hsecond
      | map entries =>
        refine congrArg Shape.map (List.map_congr_left fun entry hentry => ?_)
        rw [hparts entry.2 (List.mem_map_of_mem hentry)]

end Document

namespace Schema

open Document (Value Node)

variable {doc : Document} {v : Value}

/-! ## What is looked at -/

section Looked

variable (h : ¬ doc.HasCycle v)
include h

/-- The string that a value is does not change when the value is unfolded. -/
theorem string?_unfold : string? Datum.shape (doc.unfold v) = string? doc.shape v := by
  rw [string?, string?, Document.shape_unfold h]
  cases doc.shape v with
  | scalar s => cases s <;> rfl
  | _ => rfl

theorem isNull_unfold : isNull Datum.shape (doc.unfold v) = isNull doc.shape v := by
  rw [isNull, isNull, Document.shape_unfold h]
  cases doc.shape v with
  | scalar s => cases s <;> rfl
  | _ => rfl

theorem items?_unfold :
    (doc.unfold v).shape.items? = (doc.shape v).items?.map (·.map doc.unfold) := by
  rw [Document.shape_unfold h, Shape.items?_mapParts]

theorem entries?_unfold : (doc.unfold v).shape.entries? =
    (doc.shape v).entries?.map (·.map fun (key, value) => (key, doc.unfold value)) := by
  rw [Document.shape_unfold h, Shape.entries?_mapParts]

end Looked

/-- A value holds its items. -/
theorem holds_of_items? {items : List Value} (h : (doc.shape v).items? = some items) :
    ∀ item ∈ items, doc.Holds v item := by
  cases hshape : doc.shape v with
  | list found =>
    rw [hshape] at h
    obtain rfl := Option.some.inj h
    obtain ⟨id, rfl, hnode⟩ := Document.exists_node_of_shape_list hshape
    exact fun item hitem => .part hnode hitem
  | _ =>
    rw [hshape] at h
    cases h

theorem holds_of_entries? {entries : List (Scalar × Value)}
    (h : (doc.shape v).entries? = some entries) : ∀ entry ∈ entries, doc.Holds v entry.2 := by
  rw [entries?_shape, Option.map_eq_some_iff] at h
  obtain ⟨⟨id, found⟩, hmapping, rfl⟩ := h
  obtain ⟨rfl, hnode⟩ := Document.exists_node_of_mapping? hmapping
  exact fun entry hentry => .part hnode (List.mem_map_of_mem hentry)

/-- A value without a cycle agrees with its tree in every role if what is in it is decoded as its
trees are. -/
theorem agrees_unfold {decode : Value → Except DecodeFault Schema}
    {decode' : Datum → Except DecodeFault Schema} (h : ¬ doc.HasCycle v)
    (hdecode : ∀ w, doc.Contains v w → decode w = decode' (doc.unfold w)) (role : Role) :
    role.Agrees doc.shape Datum.shape (Literal.ofDocument doc) Literal.ofDatum decode decode' v
      (doc.unfold v) := by
  -- What the value holds has no cycle either and is decoded alike, which is all that the roles ask
  -- for.
  have hstep {w : Value} (hw : doc.Holds v w) :
      ¬ doc.HasCycle w ∧ decode w = decode' (doc.unfold w) :=
    ⟨Document.not_hasCycle_of_contains h (.single hw), hdecode w (.single hw)⟩
  cases role with
  | plain =>
    refine ⟨Literal.ofDocument_eq doc v, (string?_unfold h).symm, ?_, ?_⟩
    · rw [items?_unfold h, Option.map_map]
      refine Option.map_congr fun items _ => ?_
      rw [Function.comp_apply, List.map_map]
      exact List.map_congr_left fun item _ => Literal.ofDocument_eq doc item
    · rw [items?_unfold h, Option.map_map]
      refine Option.map_congr fun items hitems => ?_
      rw [Function.comp_apply, List.map_map]
      refine List.map_congr_left fun item hitem => ?_
      exact (string?_unfold (hstep (holds_of_items? hitems item hitem)).1).symm
  | schema => exact ⟨(isNull_unfold h).symm, hdecode v .refl⟩
  | schemas =>
    simp only [Role.Agrees, items?_unfold h, Option.map_map]
    refine Option.map_congr fun items hitems => ?_
    rw [Function.comp_apply, List.map_map]
    exact List.map_congr_left fun item hitem => (hstep (holds_of_items? hitems item hitem)).2
  | properties =>
    simp only [Role.Agrees, entries?_unfold h, Option.map_map]
    refine Option.map_congr fun entries hentries => ?_
    rw [Function.comp_apply, List.map_map]
    refine List.map_congr_left fun entry hentry => ?_
    rw [Function.comp_apply, (hstep (holds_of_entries? hentries entry hentry)).2]
  | patterns =>
    simp only [Role.Agrees, entries?_unfold h, Option.map_map]
    refine Option.map_congr fun entries hentries => ?_
    rw [Function.comp_apply, List.head?_map, Option.map_map]
    refine Option.map_congr fun entry hentry => ?_
    exact (hstep (holds_of_entries? hentries entry (List.mem_of_head? hentry))).2

/-! ## Decoding -/

/-- A schema without a cycle is decoded as its tree. -/
theorem decodeWithin_eq_decodePlain_unfold {depth : Nat} {active : List Nat}
    (h : ¬ doc.HasCycle v) (hactive : ∀ other ∈ active, ¬ doc.Contains v (.node other))
    (hdepth : doc.idle Node.isMap active < depth) :
    decodeWithin doc depth active v =
      decodePlain Datum.shape Literal.ofDatum depth (doc.unfold v) := by
  induction depth generalizing active v with
  | zero => exact absurd hdepth (Nat.not_lt_zero _)
  | succ depth ih =>
    rw [decodeWithin, decodePlain, entries?_unfold h, entries?_shape]
    cases hv : doc.mapping? v with
    | none => rfl
    | some mapping =>
      obtain ⟨id, entries⟩ := mapping
      obtain ⟨rfl, hnode⟩ := Document.exists_node_of_mapping? hv
      have hidle : id ∉ active := fun hmem => hactive id hmem .refl
      have hless : doc.idle Node.isMap (id :: active) < doc.idle Node.isMap active :=
        Document.idle_cons_lt hnode rfl hidle
      obtain ⟨below, rfl⟩ := Nat.exists_eq_add_of_le' (show 1 ≤ depth by omega)
      -- What an entry contains is in the mapping, and leads to no node that is being read.
      have hpart (entry : Scalar × Value) (hentry : entry ∈ entries) (w : Value)
          (hw : doc.Contains entry.2 w) :
          decodeWithin doc (below + 1) (id :: active) w =
            decodePlain Datum.shape Literal.ofDatum (below + 1) (doc.unfold w) := by
        have hholds : doc.Holds (.node id) entry.2 := .part hnode (List.mem_map_of_mem hentry)
        have hfresh := Document.not_contains_of_holds h hactive hholds
        refine ih (Document.not_hasCycle_of_contains h (.head hholds hw)) ?_ (by omega)
        exact fun other hother hback => hfresh other hother (Relation.ReflTransGen.trans hw hback)
      have hview : View.ofEntries doc.shape (Literal.ofDocument doc)
            (decodeWithin doc (below + 1) (id :: active)) entries =
          View.ofEntries Datum.shape Literal.ofDatum
            (decodePlain Datum.shape Literal.ofDatum (below + 1))
            (entries.map fun (key, value) => (key, doc.unfold value)) := by
        apply View.ofEntries_congr
        rw [List.forall₂_map_right_iff, List.forall₂_same]
        intro entry hentry
        have hholds : doc.Holds (.node id) entry.2 := .part hnode (List.mem_map_of_mem hentry)
        exact ⟨rfl, agrees_unfold (Document.not_hasCycle_of_contains h (.single hholds))
          (hpart entry hentry) (Role.ofKey entry.1)⟩
      simp only [Option.map_some, if_neg hidle]
      rw [Layer.decoded_ofEntries (ignoresOthers_decodeWithin below (id :: active)), hview]
      exact (Layer.decoded_ofEntries (ignoresOthers_decodePlain below)).symm

/-! ## Active mappings -/

/-- A value agrees with itself in every role under two ways of decoding that give the same for what
is in it. -/
theorem agrees_self {decode decode' : Value → Except DecodeFault Schema}
    (hdecode : ∀ w, doc.Contains v w → decode w = decode' w) (role : Role) :
    role.Agrees doc.shape doc.shape (Literal.ofDocument doc) (Literal.ofDocument doc) decode decode'
      v v := by
  have hstep {w : Value} (hw : doc.Holds v w) : decode w = decode' w := hdecode w (.single hw)
  cases role with
  | plain => exact ⟨rfl, rfl, rfl, rfl⟩
  | schema => exact ⟨rfl, hdecode v .refl⟩
  | schemas =>
    refine Option.map_congr fun items hitems => ?_
    exact List.map_congr_left fun item hitem => hstep (holds_of_items? hitems item hitem)
  | properties =>
    refine Option.map_congr fun entries hentries => List.map_congr_left fun entry hentry => ?_
    exact congrArg (Prod.mk entry.1) (hstep (holds_of_entries? hentries entry hentry))
  | patterns =>
    refine Option.map_congr fun entries hentries => Option.map_congr fun entry hentry => ?_
    exact hstep (holds_of_entries? hentries entry (List.mem_of_head? hentry))

/-- Which mappings are being decoded matters only for those that the value leads to. -/
theorem decodeWithin_congr_active {depth : Nat} {active active' : List Nat}
    (h : ∀ id, doc.Contains v (.node id) → (id ∈ active ↔ id ∈ active')) :
    decodeWithin doc depth active v = decodeWithin doc depth active' v := by
  induction depth generalizing active active' v with
  | zero => rfl
  | succ depth ih =>
    rw [decodeWithin, decodeWithin]
    cases hv : doc.mapping? v with
    | none => rfl
    | some mapping =>
      obtain ⟨id, entries⟩ := mapping
      obtain ⟨rfl, hnode⟩ := Document.exists_node_of_mapping? hv
      simp only [h id .refl]
      split
      · rfl
      · cases depth with
        | zero => rfl
        | succ depth =>
          have hview : View.ofEntries doc.shape (Literal.ofDocument doc)
                (decodeWithin doc (depth + 1) (id :: active)) entries =
              View.ofEntries doc.shape (Literal.ofDocument doc)
                (decodeWithin doc (depth + 1) (id :: active')) entries := by
            apply View.ofEntries_congr
            rw [List.forall₂_same]
            intro entry hentry
            have hholds : doc.Holds (.node id) entry.2 := .part hnode (List.mem_map_of_mem hentry)
            -- What is contained in an entry is contained in the mapping, so the two lists agree on
            -- it.
            refine ⟨rfl, agrees_self (fun w hw => ih fun other hother => ?_) (Role.ofKey entry.1)⟩
            have hcontains : doc.Contains (.node id) (.node other) :=
              .head hholds (Relation.ReflTransGen.trans hw hother)
            rw [List.mem_cons, List.mem_cons, h other hcontains]
          rw [Layer.decoded_ofEntries (ignoresOthers_decodeWithin depth (id :: active)), hview]
          exact (Layer.decoded_ofEntries (ignoresOthers_decodeWithin depth (id :: active'))).symm

end Schema
end TypedRoutes
