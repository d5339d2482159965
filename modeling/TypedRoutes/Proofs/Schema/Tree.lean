import TypedRoutes.Proofs.Schema.Literal
import TypedRoutes.Proofs.Schema.Phrase

/-!
# The trees of schemas

`Schema.tree` is what a schema means: its members, names, marks and literals, with nested unions and
nested intersections flattened. A schema is grouped if no operator comes out of the items of an
array and no `|` out of a member of an intersection; then the phrase that its text is has its tree
(`tree_phrase`).
-/

set_option autoImplicit false

namespace TypedRoutes

namespace TypeTree

/-- The union of several trees, or the name for none. -/
def anyOf (ts : List TypeTree) : TypeTree := if ts.isEmpty then .never else join ts

/-- The intersection of several trees, or the name for none. -/
def allOf (ts : List TypeTree) : TypeTree := if ts.isEmpty then .unknown else meet ts

end TypeTree

namespace Phrase

variable {ps : List Phrase}

theorem tree_anyOf (h : ∀ p ∈ ps, Proper p) : (anyOf ps).tree = TypeTree.anyOf (ps.map tree) := by
  cases ps with
  | nil => rfl
  | cons p rest => exact tree_flatten h

theorem tree_allOf (h : ∀ p ∈ ps, Proper p) (hor : ∀ p ∈ ps, ¬ p.HasOr) :
    (allOf ps).tree = TypeTree.allOf (ps.map tree) := by
  cases ps with
  | nil => rfl
  | cons p rest =>
    exact tree_glueAll (by simp) h fun q hq hunion => hor q hq ((h q hq).isUnion_tree_iff.1 hunion)

end Phrase

namespace Schema

mutual

/-- The tree of a schema. -/
def tree : Schema → TypeTree
  | .primitive kind => .primitive kind
  | .literal value => value.tree
  | .enumeration values => TypeTree.anyOf (values.map Literal.tree)
  | .array none => .array .unknown
  | .array (some items) => .array items.tree
  | .fields properties required => .fields (fieldTrees required properties)
  | .record value => .record value.tree
  | .union _ members => TypeTree.anyOf (trees members)
  | .intersection members => TypeTree.allOf (trees members)
  | .unknown => .unknown

/-- The trees of several schemas. -/
def trees : List Schema → List TypeTree
  | [] => []
  | member :: rest => member.tree :: trees rest

/-- The fields of an object: names, marks and trees. -/
def fieldTrees (required : List String) :
    List (String × Schema) → List (String × Bool × TypeTree)
  | [] => []
  | (name, schema) :: rest =>
    (name, required.contains name, schema.tree) :: fieldTrees required rest

end

mutual

/-- Does the text of no items of an array have an operator on its outermost level, and that of no
member of an intersection an `|`? -/
def grouped : Schema → Bool
  | .array (some items) => !items.hasOr && !items.hasAnd && items.grouped
  | .fields properties _ => fieldsGrouped properties
  | .record value => value.grouped
  | .union _ members => allGrouped members
  | .intersection members => !anyHasOr members && allGrouped members
  | _ => true

/-- Are all the schemas grouped? -/
def allGrouped : List Schema → Bool
  | [] => true
  | member :: rest => member.grouped && allGrouped rest

/-- Are the schemas of all the properties grouped? -/
def fieldsGrouped : List (String × Schema) → Bool
  | [] => true
  | (_, schema) :: rest => schema.grouped && fieldsGrouped rest

end

mutual

/-- The phrase of a grouped schema has its tree. -/
theorem tree_phrase : ∀ (schema : Schema), schema.grouped = true →
    (schema.phrase Literal.tree).tree = schema.tree
  | .primitive _ => fun _ => rfl
  | .literal _ => fun _ => rfl
  | .enumeration values => by
    intro _
    have hproper := proper_literals Literal.isUnit_tree values
    rw [phrase, Phrase.tree_anyOf hproper, List.map_map, tree]
    rfl
  | .array none => fun _ => rfl
  | .array (some items) => by
    intro h
    simp only [grouped, Bool.and_eq_true, Bool.not_eq_true'] at h
    -- Without an operator the mark of the array is about the whole of the items.
    have hunit := (isUnit_tree_phrase Literal.isUnit_tree items).2 h.1
    rw [phrase, (Phrase.tree_arrayed_iff (proper_phrase Literal.isUnit_tree items)).2 hunit,
      tree_phrase items h.2, tree]
  | .fields properties required => by
    intro h
    have hfields := fieldEntries_eq_fieldTrees required properties h
    rw [phrase, tree, ← hfields]
    rfl
  | .record value => by
    intro h
    rw [phrase, tree_phrase value h, tree]
    rfl
  | .union _ members => by
    intro h
    rw [phrase, Phrase.tree_anyOf (proper_phrases Literal.isUnit_tree members),
      map_tree_phrases members h, tree]
  | .intersection members => by
    intro h
    simp only [grouped, Bool.and_eq_true, Bool.not_eq_true'] at h
    -- No member has an `|`, so the glued phrase is the meet of the members.
    have hor : ∀ p ∈ phrases Literal.tree members, ¬ p.HasOr := by
      intro p hp hor
      have hany := (hasOr_phrases Literal.isUnit_tree members).1 ⟨p, hp, hor⟩
      rw [h.1] at hany
      cases hany
    rw [phrase, Phrase.tree_allOf (proper_phrases Literal.isUnit_tree members) hor,
      map_tree_phrases members h.2, tree]
  | .unknown => fun _ => rfl

theorem map_tree_phrases : ∀ members : List Schema, allGrouped members = true →
    (phrases Literal.tree members).map Phrase.tree = trees members
  | [] => fun _ => rfl
  | member :: rest => by
    intro h
    rw [allGrouped, Bool.and_eq_true] at h
    rw [phrases, List.map_cons, tree_phrase member h.1, map_tree_phrases rest h.2, trees]

theorem fieldEntries_eq_fieldTrees (required : List String) :
    ∀ properties : List (String × Schema), fieldsGrouped properties = true →
      fieldEntries Literal.tree required properties = fieldTrees required properties
  | [] => fun _ => rfl
  | (name, schema) :: rest => by
    intro h
    rw [fieldsGrouped, Bool.and_eq_true] at h
    rw [fieldEntries, tree_phrase schema h.1, fieldEntries_eq_fieldTrees required rest h.2,
      fieldTrees]

end

end Schema
end TypedRoutes
