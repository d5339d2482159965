import TypedRoutes.Datum.Display
import TypedRoutes.Document.Fold

/-!
# The plain text of documents

`Document.text` is the plain text of the tree below a value, which `Document.text_eq` states. The
tree is read as far as its first fault and is not built.
-/

set_option autoImplicit false

namespace TypedRoutes.Document

/-- The plain text of a value. -/
def text (doc : Document) : Value → Except DigitLimit String
  | .scalar s => s.text
  | .node id => doc.fold Datum.shownFold (.node id)

theorem text_eq (doc : Document) (v : Value) : doc.text v = (doc.unfold v).text := by
  cases v with
  | scalar s => rfl
  | node id =>
    rw [text, fold_eq]
    cases tree : doc.unfold (.node id) with
    | scalar s => rw [eq_null_of_unfold_node tree]; rfl
    | _ => rfl

end TypedRoutes.Document
