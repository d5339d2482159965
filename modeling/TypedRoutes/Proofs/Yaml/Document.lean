import TypedRoutes.Proofs.Yaml.Node
import TypedRoutes.Yaml.Document

/-!
# The faults of YAML documents

A YAML text that is no document has a fault that can arise (`Document.failsOnly_ofYaml`): its graph
and its merge keys can only break the format or go beyond the limits, and a container is filled with
scalars that are read under their tags.
-/

set_option autoImplicit false

namespace TypedRoutes

namespace Yaml

open Outcome

/-! ## Graphs -/

namespace Graph

namespace Builder

mutual

/-- Building a graph from a tree fails only by a fault that can arise, by induction on the tree. -/
theorem failsOnly_addTree : ∀ (node : Yaml.Node) (b : Builder),
    FailsOnly Fault.Arises (b.addTree node)
  | .alias name => fun b => by
    rw [addTree]
    split <;> simp
  | .scalar properties text plain => fun b => by simp [addTree]
  | .sequence properties items => fun b => by simp [addTree, failsOnly_addItems items]
  | .mapping properties entries => fun b => by simp [addTree, failsOnly_addEntries entries]

theorem failsOnly_addItems : ∀ (items : List Yaml.Node) (b : Builder),
    FailsOnly Fault.Arises (b.addItems items)
  | [] => fun b => by simp [addItems]
  | item :: rest => fun b => by simp [addItems, failsOnly_addTree item, failsOnly_addItems rest]

theorem failsOnly_addEntries : ∀ (entries : List (Yaml.Node × Yaml.Node)) (b : Builder),
    FailsOnly Fault.Arises (b.addEntries entries)
  | [] => fun b => by simp [addEntries]
  | (key, value) :: rest => fun b => by
    simp [addEntries, failsOnly_addTree key, failsOnly_addTree value, failsOnly_addEntries rest]

end

end Builder

theorem failsOnly_ofNode (node : Yaml.Node) : FailsOnly Fault.Arises (ofNode node) := by
  simp [ofNode, Builder.failsOnly_addTree]

section

variable {flatten : Graph → Nat → Except Fault Graph}

/-- Merging the mappings of a list fails as flattening them does. -/
theorem failsOnly_mergeAll (h : ∀ g id, FailsOnly Fault.Arises (flatten g id)) (g : Graph)
    (ids : List Nat) : FailsOnly Fault.Arises (mergeAll flatten g ids) := by
  induction ids generalizing g with
  | nil => simp [mergeAll]
  | cons id rest ih => simp [mergeAll, h, ih]

theorem failsOnly_mergedBy (h : ∀ g id, FailsOnly Fault.Arises (flatten g id)) (g : Graph)
    (value : Nat) : FailsOnly Fault.Arises (mergedBy flatten g value) := by
  unfold mergedBy
  split
  · simp [h]
  · exact failsOnly_mergeAll h g _
  · simp

/-- Collecting the entries of a mapping fails as flattening what it merges does. -/
theorem failsOnly_collect (h : ∀ g id, FailsOnly Fault.Arises (flatten g id)) (id steps index : Nat)
    (rest : List (Nat × Nat)) (g : Graph) :
    FailsOnly Fault.Arises (collect flatten id steps index rest g) := by
  fun_induction collect flatten id steps index rest g with
  | case3 _ _ _ _ _ _ _ _ ih => simp [failsOnly_mergedBy h, ih]
  | _ => simp_all

end

@[simp] theorem failsOnly_flattenWithin (depth : Nat) (g : Graph) (id : Nat) :
    FailsOnly Fault.Arises (flattenWithin depth g id) := by
  induction depth generalizing g id with
  | zero => simp [flattenWithin]
  | succ depth ih => simp [flattenWithin, failsOnly_collect ih]

end Graph

/-! ## Filling -/

namespace Filling

@[simp] theorem failsOnly_textOf (g : Graph) (steps id : Nat) :
    FailsOnly Fault.Arises (textOf g steps id) := by
  fun_induction textOf g steps id <;> simp_all

@[simp] theorem failsOnly_checkKind (g : Graph) (tag : Tag) (id : Nat) :
    FailsOnly Fault.Arises (checkKind g tag id) := by
  simp [checkKind]

variable (f : Filling)

@[simp] theorem failsOnly_text (id : Nat) : FailsOnly Fault.Arises (f.text id) := by
  simp [text]

/-- A scalar is read under its tag, and that is where its own faults arise. -/
@[simp] theorem failsOnly_value (id : Nat) : FailsOnly Fault.Arises (f.value id) := by
  unfold value
  refine failsOnly_ite.2 ⟨fun _ => by simp, fun _ => failsOnly_ite.2 ⟨fun _ => by simp, ?_⟩⟩
  refine fun _ => failsOnly_bind.2 ⟨by simp, fun text _ => failsOnly_bind.2 ⟨by simp, ?_⟩⟩
  intro _ _
  split
  · next read hread =>
    refine failsOnly_bind.2 ⟨fun fault hfault => ?_, by simp⟩
    exact .scalar (hread.trans (congrArg some hfault))
  · simp

@[simp] theorem failsOnly_values (ids : List Nat) : FailsOnly Fault.Arises (f.values ids) := by
  induction ids generalizing f with
  | nil => simp [values]
  | cons id rest ih => simp [values, ih]

@[simp] theorem failsOnly_assignment (keyId valueId : Nat) :
    FailsOnly Fault.Arises (f.assignment keyId valueId) := by
  unfold assignment
  refine failsOnly_bind.2 ⟨by simp, fun r _ => ?_⟩
  dsimp only
  split <;> simp

@[simp] theorem failsOnly_assignments (done : List (Key × Document.Value))
    (entries : List (Nat × Nat)) : FailsOnly Fault.Arises (f.assignments done entries) := by
  induction entries generalizing f done with
  | nil => simp [assignments]
  | cons entry rest ih =>
    rw [assignments]
    -- The first entry that fails ends the list with its own fault.
    split
    · exact ih _ _
    · next hfault => exact failsOnly_error.2 (failsOnly_assignment f _ _ _ hfault)

@[simp] theorem failsOnly_entries (id : Nat) : FailsOnly Fault.Arises (f.entries id) := by
  simp [entries]

@[simp] theorem failsOnly_itemsOf (id : Nat) : FailsOnly Fault.Arises (f.itemsOf id) := by
  unfold itemsOf
  split <;> simp

@[simp] theorem failsOnly_pairs (ids : List Nat) : FailsOnly Fault.Arises (f.pairs ids) := by
  induction ids generalizing f with
  | nil => simp [pairs]
  | cons id rest ih =>
    rw [pairs]
    split <;> simp [ih]

@[simp] theorem failsOnly_container (id : Nat) : FailsOnly Fault.Arises (f.container id) := by
  unfold container
  split <;> simp

@[simp] theorem failsOnly_fill (fuel index : Nat) :
    FailsOnly Fault.Arises (fill fuel index f) := by
  induction fuel generalizing f index with
  | zero => simp [fill]
  | succ fuel ih =>
    rw [fill]
    split <;> simp [ih]

end Filling

/-- A document is made from a graph, or fails by a fault that can arise. -/
theorem failsOnly_documentOf (limits : Limits) (root : Nat) (graph : Graph) :
    FailsOnly Fault.Arises (documentOf limits root graph) := by
  simp [documentOf]

end Yaml

/-- A YAML text fails only with what can arise. -/
theorem Document.failsOnly_ofYaml (limits : Limits) (text : String) :
    Outcome.FailsOnly Yaml.Fault.Arises (ofYaml limits text) := by
  have htokens : Yaml.TokensArise (Yaml.Token.ofText text) :=
    fun _ hfault => Yaml.Token.arises_of_mem_ofText hfault
  unfold ofYaml
  refine Outcome.failsOnly_bind.2 ⟨Yaml.Node.failsOnly_ofTokens _ htokens, fun node _ => ?_⟩
  split
  · simp
  · simp [Yaml.Graph.failsOnly_ofNode, Yaml.failsOnly_documentOf]

end TypedRoutes
