import TypedRoutes.Client.Artifact
import TypedRoutes.Contract.OfDocument
import TypedRoutes.Proofs.Client.Parts
import TypedRoutes.Proofs.RouteTree.Routes
import TypedRoutes.Proofs.Schema.Written

/-!
# Contracts with a client module

The module of a contract is generated if and only if the schemas of all routes in its forest have
texts (`Artifact.exists_ofContract_iff`).
-/

set_option autoImplicit false

namespace TypedRoutes

/-! ## Routes -/

/-- The type of a slot can be written exactly when that of the schema in it can. -/
theorem exists_slotText_iff {slot : Option Schema} :
    (∃ type, slotText? slot = .ok type) ↔
      ∀ schema ∈ slot.toList, ∃ text, schema.typeText = .ok text := by
  cases slot with
  | none => exact ⟨fun _ => nofun, fun _ => ⟨none, rfl⟩⟩
  | some schema =>
    rw [Option.toList_some, List.forall_mem_singleton]
    exact Outcome.exists_map_iff

namespace Route

/-- All schemas of the route have texts. -/
def IsWritable (r : Route) : Prop :=
  ∀ schema ∈ r.slots.schemas, ∃ text, schema.typeText = .ok text

/-- The type of the result can be written exactly when that of the response can. -/
theorem exists_resultText_iff {r : Route} :
    (∃ result, r.resultText = .ok result) ↔
      ∀ schema ∈ r.slots.response.toList, ∃ text, schema.typeText = .ok text :=
  Outcome.exists_map_iff.trans exists_slotText_iff

/-- A descriptor takes the types of all slots. -/
theorem exists_descriptor_iff (r : Route) (level : Int) :
    (∃ text, r.descriptor level = .ok text) ↔ r.IsWritable := by
  have hfields : (∃ fields, r.descriptorFields = .ok fields) ↔
      (∃ query, slotText? r.slots.query = .ok query) ∧ (∃ body, slotText? r.slots.body = .ok body) ∧
        (∃ params, slotText? r.slots.params = .ok params) ∧ ∃ result, r.resultText = .ok result :=
    Outcome.exists_bind_iff fun _ => Outcome.exists_bind_iff fun _ => Outcome.exists_seq_iff
  rw [descriptor, Outcome.exists_map_iff, hfields]
  simp only [exists_slotText_iff, exists_resultText_iff, IsWritable, RouteSlots.schemas,
    List.forall_mem_append, and_assoc]

/-- A signature takes the types of some slots. -/
theorem IsWritable.exists_signature {r : Route} (h : r.IsWritable) :
    ∃ text, r.signature = .ok text := by
  simp only [IsWritable, RouteSlots.schemas, List.forall_mem_append] at h
  obtain ⟨⟨⟨hquery, hbody⟩, -⟩, hresponse⟩ := h
  have hsignature : (∃ text, r.signature = .ok text) ↔ (∃ result, r.resultText = .ok result) ∧
      (∃ body, slotText? r.slots.body = .ok body) ∧ ∃ query, slotText? r.slots.query = .ok query :=
    Outcome.exists_bind_iff fun _ => Outcome.exists_seq_iff
  exact hsignature.2 ⟨exists_resultText_iff.2 hresponse, exists_slotText_iff.2 hbody,
    exists_slotText_iff.2 hquery⟩

end Route

/-! ## Forests -/

section

variable {write : RouteWriter} {written : Route → Prop}
  (hwrite : ∀ r level, (∃ text, write r level = .ok text) ↔ written r)

include hwrite

theorem exists_methodLines_iff {level : Int} {methods : List (String × Route)} :
    (∃ lines, methodLines write level methods = .ok lines) ↔
      ∀ r ∈ methods.map Prod.snd, written r := by
  induction methods with
  | nil => exact ⟨fun _ => nofun, fun _ => ⟨[], rfl⟩⟩
  | cons entry rest ih =>
    rw [List.map_cons, List.forall_mem_cons, ← ih, ← hwrite]
    exact Outcome.exists_seq_iff

end

mutual

/-- The lines below a node are printed exactly when each of its routes is, by induction on the
tree. -/
theorem RouteTree.exists_innerLines_iff {write : RouteWriter} {written : Route → Prop}
    (hwrite : ∀ r level, (∃ text, write r level = .ok text) ↔ written r)
    (level : Int) : ∀ tree : RouteTree,
      (∃ lines, tree.innerLines write level = .ok lines) ↔ ∀ r ∈ tree.routes, written r
  | .node _ methods children => by
    rw [RouteTree.routes, List.forall_mem_append, ← exists_methodLines_iff hwrite,
      ← exists_forestLines_iff hwrite (level + 1) children]
    exact Outcome.exists_seq_iff

/-- A forest is written if and only if every route in it is. -/
theorem exists_forestLines_iff {write : RouteWriter} {written : Route → Prop}
    (hwrite : ∀ r level, (∃ text, write r level = .ok text) ↔ written r)
    (level : Int) : ∀ forest : List (String × RouteTree),
      (∃ lines, forestLines write level forest = .ok lines) ↔ ∀ r ∈ forestRoutes forest, written r
  | [] => ⟨fun _ => nofun, fun _ => ⟨[], rfl⟩⟩
  | (key, tree) :: rest => by
    rw [forestRoutes, List.forall_mem_append, ← tree.exists_innerLines_iff hwrite level,
      ← exists_forestLines_iff hwrite level rest]
    exact Outcome.exists_seq_iff

end

/-- The module of a contract is generated if and only if the schemas of the routes that survive have
texts. -/
theorem Artifact.exists_ofContract_iff {c : Contract} {mount : Option String} :
    (∃ text, ofContract c mount = .ok text) ↔
      ∀ r : Route, r.Survives mount c.routes → r.IsWritable := by
  have hcontract : (∃ text, (RouteForest.ofRoutes mount c.routes).contractType 1 = .ok text) ↔
      ∀ r ∈ (RouteForest.ofRoutes mount c.routes).routes, r.IsWritable :=
    Outcome.exists_map_iff.trans (exists_forestLines_iff Route.exists_descriptor_iff 1 _)
  have hclient : (∃ text, (RouteForest.ofRoutes mount c.routes).clientType 1 = .ok text) ↔
      ∀ r ∈ (RouteForest.ofRoutes mount c.routes).routes, ∃ text, r.signature = .ok text :=
    Outcome.exists_map_iff.trans
      (exists_forestLines_iff (fun r _ => Iff.refl (∃ text, r.signature = .ok text)) 1 _)
  have hboth : (∃ text, ofContract c mount = .ok text) ↔
      (∃ text, (RouteForest.ofRoutes mount c.routes).contractType 1 = .ok text) ∧
        ∃ text, (RouteForest.ofRoutes mount c.routes).clientType 1 = .ok text :=
    Outcome.exists_seq_iff
  rw [hboth, hcontract, hclient]
  simp only [RouteForest.mem_routes_ofRoutes_iff]
  -- What the descriptor of a route needs is all that its signature needs.
  exact ⟨fun h => h.1, fun h => ⟨h, fun r hr => (h r hr).exists_signature⟩⟩

end TypedRoutes
