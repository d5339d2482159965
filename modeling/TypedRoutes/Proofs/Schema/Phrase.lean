import TypedRoutes.Proofs.TypeTree.Phrase
import TypedRoutes.Schema

/-!
# Schemas as phrases

`Schema.phrase` is what the text of a schema is before its operators are grouped. Texts are put
together without brackets, so the operators of a part come out on the outermost level of the whole
wherever nothing encloses it: `Schema.hasOr` and `Schema.hasAnd` find them in the schema
(`hasOr_phrase`, `hasAnd_phrase`).
-/

set_option autoImplicit false

namespace TypedRoutes.Schema

open Phrase (HasOr HasAnd Proper)

/-! ## Operators -/

mutual

/-- Does the text of the schema have an `|` on its outermost level? -/
def hasOr : Schema → Bool
  | .enumeration values => 2 ≤ values.length
  | .array (some items) => items.hasOr
  | .union _ members => 2 ≤ members.length || anyHasOr members
  | .intersection members => anyHasOr members
  | _ => false

/-- Does one of the texts have an `|` on its outermost level? -/
def anyHasOr : List Schema → Bool
  | [] => false
  | member :: rest => member.hasOr || anyHasOr rest

end

mutual

/-- Does the text of the schema have an `&` on its outermost level? -/
def hasAnd : Schema → Bool
  | .array (some items) => items.hasAnd
  | .union _ members => anyHasAnd members
  | .intersection members => 2 ≤ members.length || anyHasAnd members
  | _ => false

/-- Does one of the texts have an `&` on its outermost level? -/
def anyHasAnd : List Schema → Bool
  | [] => false
  | member :: rest => member.hasAnd || anyHasAnd rest

end

/-! ## Phrases -/

section Reading

variable (literal : Literal → TypeTree)

mutual

/-- The phrase that the text of a schema is, if the literals are the given trees. -/
def phrase : Schema → Phrase
  | .primitive kind => [[.primitive kind]]
  | .literal value => [[literal value]]
  | .enumeration values => Phrase.anyOf (values.map fun value => [[literal value]])
  | .array none => [[.array .unknown]]
  | .array (some items) => items.phrase.arrayed
  | .fields properties required => [[.fields (fieldEntries required properties)]]
  | .record value => [[.record value.phrase.tree]]
  | .union _ members => Phrase.anyOf (phrases members)
  | .intersection members => Phrase.allOf (phrases members)
  | .unknown => [[.unknown]]

/-- The phrases of several schemas. -/
def phrases : List Schema → List Phrase
  | [] => []
  | member :: rest => member.phrase :: phrases rest

/-- The fields of an object type. -/
def fieldEntries (required : List String) :
    List (String × Schema) → List (String × Bool × TypeTree)
  | [] => []
  | (name, schema) :: rest =>
    (name, required.contains name, schema.phrase.tree) :: fieldEntries required rest

end

variable {literal}

theorem phrases_eq_map (members : List Schema) :
    phrases literal members = members.map (phrase literal) := by
  induction members with
  | nil => rfl
  | cons member rest ih => rw [phrases, ih, List.map_cons]

theorem proper_literals (hliteral : ∀ value, (literal value).IsUnit) (values : List Literal) :
    ∀ p ∈ values.map fun value => [[literal value]], Proper p := by
  intro p hp
  obtain ⟨value, -, rfl⟩ := List.mem_map.1 hp
  exact .singleton (hliteral value)

mutual

/-- The phrase of a schema is proper: it has groups, and each of them has members that are units. -/
theorem proper_phrase (hliteral : ∀ value, (literal value).IsUnit) :
    ∀ schema : Schema, Proper (schema.phrase literal)
  | .primitive _ => .singleton ⟨id, id⟩
  | .literal value => .singleton (hliteral value)
  | .enumeration values => .anyOf (proper_literals hliteral values)
  | .array none => .singleton ⟨id, id⟩
  | .array (some items) => (proper_phrase hliteral items).arrayed
  | .fields _ _ => .singleton ⟨id, id⟩
  | .record _ => .singleton ⟨id, id⟩
  | .union _ members => .anyOf (proper_phrases hliteral members)
  | .intersection members => .allOf (proper_phrases hliteral members)
  | .unknown => .singleton ⟨id, id⟩

theorem proper_phrases (hliteral : ∀ value, (literal value).IsUnit) :
    ∀ members : List Schema, ∀ p ∈ phrases literal members, Proper p
  | [] => by simp [phrases]
  | member :: rest =>
    List.forall_mem_cons.2 ⟨proper_phrase hliteral member, proper_phrases hliteral rest⟩

end

/-! ## Operators of phrases -/

theorem not_hasOr_singleton (t : TypeTree) : ¬ HasOr [[t]] := by
  simp [HasOr]

theorem not_hasAnd_singleton (t : TypeTree) : ¬ HasAnd [[t]] := by
  simp [HasAnd]

mutual

/-- An `|` on the outermost level of the text is one of the schema. -/
theorem hasOr_phrase (hliteral : ∀ value, (literal value).IsUnit) :
    ∀ schema : Schema, (schema.phrase literal).HasOr ↔ schema.hasOr = true
  | .primitive _ => iff_of_false (not_hasOr_singleton _) Bool.false_ne_true
  | .literal _ => iff_of_false (not_hasOr_singleton _) Bool.false_ne_true
  | .enumeration values => by
    have hproper := proper_literals hliteral values
    rw [phrase, Phrase.hasOr_anyOf hproper, hasOr]
    simp [HasOr]
  | .array none => iff_of_false (not_hasOr_singleton _) Bool.false_ne_true
  | .array (some items) => by
    rw [phrase, Phrase.hasOr_arrayed, hasOr_phrase hliteral items, hasOr]
  | .fields _ _ => iff_of_false (not_hasOr_singleton _) Bool.false_ne_true
  | .record _ => iff_of_false (not_hasOr_singleton _) Bool.false_ne_true
  | .union _ members => by
    rw [phrase, Phrase.hasOr_anyOf (proper_phrases hliteral members),
      hasOr_phrases hliteral members, phrases_eq_map, List.length_map, hasOr, Bool.or_eq_true,
      decide_eq_true_eq]
  | .intersection members => by
    rw [phrase, Phrase.hasOr_allOf (proper_phrases hliteral members),
      hasOr_phrases hliteral members, hasOr]
  | .unknown => iff_of_false (not_hasOr_singleton _) Bool.false_ne_true

theorem hasOr_phrases (hliteral : ∀ value, (literal value).IsUnit) :
    ∀ members : List Schema, (∃ p ∈ phrases literal members, p.HasOr) ↔ anyHasOr members = true
  | [] => by simp [phrases, anyHasOr]
  | member :: rest => by
    rw [phrases, anyHasOr, Bool.or_eq_true, ← hasOr_phrase hliteral member,
      ← hasOr_phrases hliteral rest]
    exact List.exists_mem_cons_iff HasOr _ _

end

mutual

/-- An `&` on the outermost level of the text is one of the schema. -/
theorem hasAnd_phrase (hliteral : ∀ value, (literal value).IsUnit) :
    ∀ schema : Schema, (schema.phrase literal).HasAnd ↔ schema.hasAnd = true
  | .primitive _ => iff_of_false (not_hasAnd_singleton _) Bool.false_ne_true
  | .literal _ => iff_of_false (not_hasAnd_singleton _) Bool.false_ne_true
  | .enumeration values => by
    -- Every alternative of an enumeration is a single operand.
    have hnone : (enumeration values).hasAnd = false := rfl
    rw [phrase, Phrase.hasAnd_anyOf, hnone]
    simp [HasAnd]
  | .array none => iff_of_false (not_hasAnd_singleton _) Bool.false_ne_true
  | .array (some items) => by
    rw [phrase, Phrase.hasAnd_arrayed, hasAnd_phrase hliteral items, hasAnd]
  | .fields _ _ => iff_of_false (not_hasAnd_singleton _) Bool.false_ne_true
  | .record _ => iff_of_false (not_hasAnd_singleton _) Bool.false_ne_true
  | .union _ members => by
    rw [phrase, Phrase.hasAnd_anyOf, hasAnd_phrases hliteral members, hasAnd]
  | .intersection members => by
    rw [phrase, Phrase.hasAnd_allOf (proper_phrases hliteral members),
      hasAnd_phrases hliteral members, phrases_eq_map, List.length_map, hasAnd, Bool.or_eq_true,
      decide_eq_true_eq]
  | .unknown => iff_of_false (not_hasAnd_singleton _) Bool.false_ne_true

theorem hasAnd_phrases (hliteral : ∀ value, (literal value).IsUnit) :
    ∀ members : List Schema, (∃ p ∈ phrases literal members, p.HasAnd) ↔ anyHasAnd members = true
  | [] => by simp [phrases, anyHasAnd]
  | member :: rest => by
    rw [phrases, anyHasAnd, Bool.or_eq_true, ← hasAnd_phrase hliteral member,
      ← hasAnd_phrases hliteral rest]
    exact List.exists_mem_cons_iff HasAnd _ _

end

/-- The tree of a phrase is an operand exactly if the schema has no operator on its outermost
level. -/
theorem isUnit_tree_phrase (hliteral : ∀ value, (literal value).IsUnit) (schema : Schema) :
    (schema.phrase literal).tree.IsUnit ↔ schema.hasOr = false ∧ schema.hasAnd = false := by
  rw [(proper_phrase hliteral schema).isUnit_tree_iff, hasOr_phrase hliteral,
    hasAnd_phrase hliteral, Bool.not_eq_true, Bool.not_eq_true]

end Reading

end TypedRoutes.Schema
