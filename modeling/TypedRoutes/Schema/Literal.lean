import TypedRoutes.Document.Fold
import TypedRoutes.Json.OfDatum
import TypedRoutes.Schema.Primitive

/-!
# Literals

A literal is a value that a schema names, with the text of the type that has this value only.
Neither is found before it is asked for: a schema may name values of any size, in routes that are
never printed, and the text of a value with a fault ends there. `Literal.ofDocument_eq` says that
the literal of a value of a document is the one of its tree.
-/

set_option autoImplicit false

namespace TypedRoutes

/-- The text of the type of one number. A number that is not finite has no such type and is shown
as the type of numbers. -/
def Binary64.literalText (x : Binary64) : String :=
  if x.isFinite then Json.floatText x else Primitive.number.name

/-- The text of a literal type: the value as JSON. -/
def Datum.literalText : Datum → Except UnwritableFault String
  | .scalar (.float x) => .ok x.literalText
  | d => d.toJson.map Json.write

namespace Document

/-- The text of the literal type of a value. -/
def literalText (doc : Document) : Value → Except UnwritableFault String
  | .scalar s => (Datum.scalar s).literalText
  | .node id => (doc.fold Datum.jsonFold (.node id)).map Json.write

/-- The text of a literal is that of the unfolded value. -/
theorem literalText_eq (doc : Document) (v : Value) :
    doc.literalText v = (doc.unfold v).literalText := by
  cases v with
  | scalar s => rfl
  | node id =>
    rw [literalText, fold_eq]
    cases tree : doc.unfold (.node id) with
    | scalar s => rw [eq_null_of_unfold_node tree]; rfl
    | _ => rfl

end Document

/-- A literal: its value and the text of its type. -/
structure Literal where
  value : Thunk Datum
  text : Thunk (Except UnwritableFault String)
  text_eq : text.get = value.get.literalText

namespace Literal

/-- Two literals of the same value are the same. -/
theorem eq_of_value {a b : Literal} (same : a.value.get = b.value.get) : a = b := by
  obtain ⟨value, text, text_eq⟩ := a
  obtain ⟨value', text', text_eq'⟩ := b
  have values : value = value' := Thunk.ext same
  have texts : text = text' := Thunk.ext (by rw [text_eq, text_eq', values])
  subst values texts
  rfl

/-- The literal of a datum. -/
def ofDatum (d : Datum) : Literal where
  value := Thunk.pure d
  text := Thunk.mk fun _ => d.literalText
  text_eq := rfl

/-- The literal of a value of a document. -/
def ofDocument (doc : Document) (v : Document.Value) : Literal where
  value := Thunk.mk fun _ => doc.unfold v
  text := Thunk.mk fun _ => doc.literalText v
  text_eq := doc.literalText_eq v

/-- The literal of a value is that of what it unfolds to. -/
theorem ofDocument_eq (doc : Document) (v : Document.Value) :
    ofDocument doc v = ofDatum (doc.unfold v) := eq_of_value rfl

instance : Repr Literal := ⟨fun l precedence => reprPrec l.value.get precedence⟩

end Literal

example : (Literal.ofDocument ⟨#[.list [.scalar .null, .node 0]], .node 0⟩ (.node 0)).text.get =
    .error .circular := by rfl
example : (Literal.ofDatum (.pair (.scalar (.bool true)) (.scalar .null))).text.get.toOption =
    some "[true, null]" := by decide +kernel

end TypedRoutes
