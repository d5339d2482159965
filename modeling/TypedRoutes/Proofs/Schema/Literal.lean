import TypedRoutes.Proofs.Json.Parsed
import TypedRoutes.Proofs.TypeTree.Operand

/-!
# Literals are read

The text of a literal is the name of a primitive type or the text of a JSON value
(`Datum.literalText_cases`), so it is read as an operand (`Datum.exists_unitReads_literalText`). The
literal of a JSON value that comes from a text is read as the tree of the literal
(`Json.unitReads_literalTree`).
-/

set_option autoImplicit false

namespace TypedRoutes

open TypeTree (UnitReads unitReads_word exists_unitReads_write)

/-- The tree of a literal type. Null is a primitive type, and a number that is not finite is shown
as the type of numbers. -/
def Datum.literalTree : Datum → TypeTree
  | .scalar .null => .primitive .null
  | .scalar (.float x) => if x.isFinite then .literal (.scalar (.float x)) else .primitive .number
  | d => .literal d

/-- The tree of a literal. -/
def Literal.tree (l : Literal) : TypeTree := l.value.get.literalTree

theorem TypeTree.unitReads_primitive (kind : Primitive) :
    UnitReads (.primitive kind) kind.name.toList := by
  cases kind with
  | _ => exact unitReads_word (by simp [Reader.words, Primitive.name])

namespace Datum

/-- A literal is a unit of the syntax of types. -/
theorem isUnit_literalTree (d : Datum) : d.literalTree.IsUnit := by
  unfold literalTree
  split
  · exact ⟨id, id⟩
  · split
    · exact ⟨id, id⟩
    · exact ⟨id, id⟩
  · exact ⟨id, id⟩

/-- Only null has the JSON form null. -/
theorem eq_null_of_toJson {d : Datum} (h : d.toJson = .ok .null) : d = .scalar .null := by
  cases d with
  | scalar s =>
    cases Scalar.hasForm_of_toJson h with
    | null => rfl
  | set members =>
    obtain ⟨text, heq⟩ := exists_str_of_toJson_set h
    cases heq
  | pair a b =>
    obtain ⟨first, second, -, -, heq⟩ := exists_array_of_toJson_pair h
    cases heq
  | list items =>
    obtain ⟨js, -, heq⟩ := Outcome.map_eq_ok.1 h
    cases heq
  | map entries =>
    obtain ⟨ms, -, heq⟩ := Outcome.map_eq_ok.1 h
    cases heq
  | cycle container => cases h

/-- The text of a literal is the name of a primitive type or the text of a JSON value that is not
null. -/
theorem literalText_cases {d : Datum} {text : String} (h : d.literalText = .ok text) :
    (∃ kind : Primitive, text = kind.name ∧ d.literalTree = .primitive kind) ∨
      ∃ j, j ≠ .null ∧ d.toJson = .ok j ∧ text = j.write ∧ d.literalTree = .literal d := by
  by_cases hnull : d = .scalar .null
  · subst hnull
    obtain rfl := Except.ok.inj h
    exact .inl ⟨.null, by rw [Json.write]; rfl, rfl⟩
  -- Numbers are written as literals or as their type; other values in their JSON form.
  · unfold literalText at h
    split at h
    · next x =>
      obtain rfl := Except.ok.inj h
      unfold Binary64.literalText
      split
      · next hfinite => exact .inr ⟨.float x, nofun, rfl, by rw [Json.write], if_pos hfinite⟩
      · next hfinite => exact .inl ⟨.number, rfl, if_neg hfinite⟩
    · next hfloat =>
      obtain ⟨j, hj, rfl⟩ := Outcome.map_eq_ok.1 h
      refine .inr ⟨j, ?_, hj, rfl, ?_⟩
      · rintro rfl
        exact hnull (eq_null_of_toJson hj)
      · unfold literalTree
        split
        · exact absurd rfl hnull
        · next x => exact absurd rfl (hfloat x)
        · rfl

/-- The text of every literal is read as an operand. -/
theorem exists_unitReads_literalText {d : Datum} {text : String} (h : d.literalText = .ok text) :
    ∃ t, UnitReads t text.toList := by
  rcases literalText_cases h with ⟨kind, rfl, -⟩ | ⟨j, hnull, hj, rfl, -⟩
  · exact ⟨_, TypeTree.unitReads_primitive kind⟩
  · obtain ⟨k, hreads, -⟩ := exists_unitReads_write hnull (within_of_toJson d hj)
    exact ⟨_, hreads⟩

/-- A value that can be written has a literal text. -/
theorem exists_literalText {d : Datum} {j : Json} (h : d.toJson = .ok j) :
    ∃ text, d.literalText = .ok text := by
  unfold literalText
  split
  · exact ⟨_, rfl⟩
  · exact ⟨_, Outcome.map_eq_ok.2 ⟨j, h, rfl⟩⟩

end Datum

/-- The type of a literal needs no parentheses. -/
theorem Literal.isUnit_tree (l : Literal) : l.tree.IsUnit :=
  Datum.isUnit_literalTree _

/-- The literal of a JSON value has a text, which is read as the tree of the literal. -/
theorem Json.unitReads_literalTree {j : Json} (h : j.WellFormed) :
    ∃ text, j.toDatum.literalText = .ok text ∧
      UnitReads j.toDatum.literalTree text.toList := by
  have hjson := toJson_toDatum j h.within
  obtain ⟨text, htext⟩ := Datum.exists_literalText hjson
  refine ⟨text, htext, ?_⟩
  rcases Datum.literalText_cases htext with ⟨kind, rfl, htree⟩ | ⟨j', hnull, hj', rfl, htree⟩
  · rw [htree]
    exact TypeTree.unitReads_primitive kind
  · obtain rfl := Except.ok.inj (hjson.symm.trans hj')
    obtain ⟨k, hreads, hk⟩ := exists_unitReads_write hnull h.within
    -- What comes from a text is canonical, so the very value is read.
    obtain rfl := hk h.canonical
    rw [htree]
    exact hreads

end TypedRoutes
