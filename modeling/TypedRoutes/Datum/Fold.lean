import TypedRoutes.Datum

/-!
# Folds of data

A fold says what every part of a tree becomes. `Datum.fold` runs it in reading order and stops at
the first leaf or key that becomes nothing, so what comes after a fault is never looked at.
-/

set_option autoImplicit false

namespace TypedRoutes

/-- What the parts of a tree become. A leaf or the key of a mapping may have no result; a container
is put together from the results of its parts. -/
structure Datum.Fold (ε β : Type) where
  scalar : Scalar → Except ε β
  set : List Scalar → Except ε β
  cycle : Container → Except ε β
  key : Scalar → Except ε String
  pair : β → β → β
  list : List β → β
  map : List (String × β) → β

namespace Datum

variable {ε β : Type}

mutual

/-- The result of a fold on a tree. -/
def fold (f : Fold ε β) : Datum → Except ε β
  | .scalar s => f.scalar s
  | .set members => f.set members
  | .pair a b => do
    let first ← fold f a
    let second ← fold f b
    return f.pair first second
  | .list items => (foldItems f items).map f.list
  | .map entries => (foldEntries f entries).map f.map
  | .cycle container => f.cycle container

/-- The results of a fold on the items of a list. -/
def foldItems (f : Fold ε β) : List Datum → Except ε (List β)
  | [] => .ok []
  | item :: rest => do
    let first ← fold f item
    let others ← foldItems f rest
    return first :: others

/-- The results of a fold on the entries of a mapping: each key, then its value. -/
def foldEntries (f : Fold ε β) : List (Scalar × Datum) → Except ε (List (String × β))
  | [] => .ok []
  | (key, value) :: rest => do
    let name ← f.key key
    let first ← fold f value
    let others ← foldEntries f rest
    return (name, first) :: others

end

/-- What a fold makes of one entry of a mapping whose value becomes `below value`. -/
def Fold.entry {α : Type} (f : Fold ε β) (below : α → Except ε β) (entry : Scalar × α) :
    Except ε (String × β) := do
  let name ← f.key entry.1
  let value ← below entry.2
  return (name, value)

theorem Fold.entry_below {α γ : Type} (f : Fold ε β) (below : α → Except ε β) (g : γ → α) :
    (fun entry : Scalar × γ => f.entry below (entry.1, g entry.2)) =
      f.entry fun value => below (g value) := rfl

theorem foldItems_eq_mapM (f : Fold ε β) (items : List Datum) :
    foldItems f items = items.mapM (fold f) := by
  induction items with
  | nil => rfl
  | cons item rest ih => simp [foldItems, ih]

theorem foldEntries_eq_mapM (f : Fold ε β) (entries : List (Scalar × Datum)) :
    foldEntries f entries = entries.mapM (f.entry (fold f)) := by
  induction entries with
  | nil => rfl
  | cons entry rest ih => simp [foldEntries, Fold.entry, ih]

end Datum
end TypedRoutes
