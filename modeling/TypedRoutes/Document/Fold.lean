import TypedRoutes.Datum.Fold
import TypedRoutes.Document

/-!
# Folds of documents

`Document.fold` runs a fold on the tree below a value without building that tree. Parts of a
document may be shared, so the tree can be far larger than the document, while a fold that meets a
fault has looked at nothing beyond it. `Document.fold_eq` says that the result is that of the tree.
-/

set_option autoImplicit false

namespace TypedRoutes.Document

open Datum (Fold)

variable {ε β : Type} (doc : Document) (f : Fold ε β)

/-- The result of a fold below a value, for as many nested nodes as `depth` allows; `active` holds
the nodes that are being read. -/
def foldWithin : (depth : Nat) → (active : List Nat) → Value → Except ε β
  | _, _, .scalar s => f.scalar s
  | 0, _, .node _ => f.scalar .null
  | depth + 1, active, .node id =>
    match doc.nodes[id]? with
    | none => f.scalar .null
    | some node =>
      if id ∈ active then node.cut.fold f
      else
        let below := foldWithin depth (id :: active)
        match node with
        | .list items => (items.mapM below).map f.list
        | .set members => f.set members
        | .pair a b => do
          let first ← below a
          let second ← below b
          return f.pair first second
        | .map entries => (entries.mapM (f.entry below)).map f.map

/-- The result of a fold below a value. -/
def fold (v : Value) : Except ε β := foldWithin doc f (doc.nodes.size + 1) [] v

/-- Folding a value within its depth is folding what it unfolds to. -/
theorem foldWithin_eq (depth : Nat) (active : List Nat) (v : Value) :
    foldWithin doc f depth active v = (doc.unfoldWithin depth active v).fold f := by
  induction depth generalizing active v with
  | zero => cases v <;> rfl
  | succ depth ih =>
    cases v with
    | scalar s => rfl
    | node id =>
      cases found : doc.nodes[id]? with
      | none => simp [foldWithin, unfoldWithin, found, Datum.fold]
      | some node =>
        by_cases inside : id ∈ active
        · simp [foldWithin, unfoldWithin, found, inside]
        · have below : foldWithin doc f depth (id :: active) =
              fun v => (doc.unfoldWithin depth (id :: active) v).fold f := funext (ih _)
          cases node with
          | list items =>
            simp [foldWithin, unfoldWithin, found, inside, Datum.fold, Datum.foldItems_eq_mapM,
              Function.comp_def, below]
          | set members => simp [foldWithin, unfoldWithin, found, inside, Datum.fold]
          | pair a b => simp [foldWithin, unfoldWithin, found, inside, Datum.fold, below]
          | map entries =>
            simp [foldWithin, unfoldWithin, found, inside, Datum.fold, Datum.foldEntries_eq_mapM,
              Function.comp_def, Fold.entry_below, below]

/-- Only a reference to no node stands for a leaf. -/
theorem eq_null_of_unfold_node {doc : Document} {id : Nat} {s : Scalar}
    (leaf : doc.unfold (.node id) = .scalar s) : s = .null := by
  cases found : doc.nodes[id]? with
  | none => simp_all [unfold, unfoldWithin]
  | some node => cases node <;> simp [unfold, unfoldWithin, found] at leaf

/-- A fold of a document is the fold of its tree. -/
theorem fold_eq (v : Value) : doc.fold f v = (doc.unfold v).fold f :=
  foldWithin_eq doc f _ _ v

end TypedRoutes.Document
