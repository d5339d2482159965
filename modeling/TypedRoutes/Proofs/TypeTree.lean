import Mathlib.Data.List.Basic
import TypedRoutes.Datum
import TypedRoutes.Schema.Primitive

/-!
# Trees of types

What the text of a type means. A tree is in normal form if no union is a member of a union, no
intersection of an intersection, and both have at least two members: `TypeTree.join` and
`TypeTree.meet` put trees together and keep the form.
-/

set_option autoImplicit false

namespace TypedRoutes

/-- The tree of a type. A field has its name, whether it is required, and its type. -/
inductive TypeTree where
  | primitive (kind : Primitive)
  | unknown
  | never
  | literal (value : Datum)
  | array (items : TypeTree)
  | record (value : TypeTree)
  | fields (entries : List (String × Bool × TypeTree))
  | union (members : List TypeTree)
  | intersection (members : List TypeTree)
  deriving Repr, Inhabited

namespace TypeTree

/-- Is the tree a union? -/
def IsUnion : TypeTree → Prop
  | .union _ => True
  | _ => False

/-- Is the tree an intersection? -/
def IsIntersection : TypeTree → Prop
  | .intersection _ => True
  | _ => False

/-- The members of a union; any other tree is a union of itself. -/
def alternatives : TypeTree → List TypeTree
  | .union members => members
  | t => [t]

/-- The members of an intersection; any other tree is an intersection of itself. -/
def operands : TypeTree → List TypeTree
  | .intersection members => members
  | t => [t]

/-- The union of trees that are no unions. -/
def unionOf : List TypeTree → TypeTree
  | [t] => t
  | ts => .union ts

/-- The intersection of trees that are no intersections. -/
def intersectionOf : List TypeTree → TypeTree
  | [t] => t
  | ts => .intersection ts

/-- The union of trees, in normal form. -/
def join (ts : List TypeTree) : TypeTree := unionOf (ts.flatMap alternatives)

/-- The intersection of trees, in normal form. -/
def meet (ts : List TypeTree) : TypeTree := intersectionOf (ts.flatMap operands)

/-- A tree that a text can name without `|` and `&` on its outermost level. -/
def IsUnit (t : TypeTree) : Prop := ¬ t.IsUnion ∧ ¬ t.IsIntersection

variable {t : TypeTree}

theorem alternatives_of_not_isUnion (h : ¬ t.IsUnion) : t.alternatives = [t] := by
  cases t with
  | union members => exact absurd trivial h
  | _ => rfl

theorem operands_of_not_isIntersection (h : ¬ t.IsIntersection) : t.operands = [t] := by
  cases t with
  | intersection members => exact absurd trivial h
  | _ => rfl

theorem unionOf_of_two_le {ts : List TypeTree} (h : 2 ≤ ts.length) : unionOf ts = .union ts := by
  match ts, h with
  | _ :: _ :: _, _ => rfl

theorem intersectionOf_of_two_le {ts : List TypeTree} (h : 2 ≤ ts.length) :
    intersectionOf ts = .intersection ts := by
  match ts, h with
  | _ :: _ :: _, _ => rfl

/-! ## Groups of operands -/

section Groups

variable {group : List TypeTree}

/-- Lists have one member or at least two, unless they are empty. -/
theorem eq_singleton_or_two_le {α : Type} {xs : List α} (h : xs ≠ []) :
    (∃ x, xs = [x]) ∨ 2 ≤ xs.length := by
  match xs with
  | [x] => exact .inl ⟨x, rfl⟩
  | x :: y :: rest => exact .inr (by simp)

/-- An intersection of units is no union. -/
theorem not_isUnion_intersectionOf (hne : group ≠ []) (h : ∀ t ∈ group, t.IsUnit) :
    ¬ (intersectionOf group).IsUnion := by
  rcases eq_singleton_or_two_le hne with ⟨t, rfl⟩ | htwo
  · exact (h t (by simp)).1
  · rw [intersectionOf_of_two_le htwo]
    exact id

/-- The operands of an intersection of units are the units. -/
theorem operands_intersectionOf (hne : group ≠ []) (h : ∀ t ∈ group, t.IsUnit) :
    (intersectionOf group).operands = group := by
  rcases eq_singleton_or_two_le hne with ⟨t, rfl⟩ | htwo
  · exact operands_of_not_isIntersection (h t (by simp)).2
  · rw [intersectionOf_of_two_le htwo]
    rfl

end Groups

end TypeTree
end TypedRoutes
