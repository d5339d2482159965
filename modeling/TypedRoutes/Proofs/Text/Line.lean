import TypedRoutes.Text.Split

/-!
# Texts of one line

A text is one line if it holds no line feed.
-/

set_option autoImplicit false

namespace TypedRoutes.Text

/-- A text without a line feed. -/
def IsLine (s : String) : Prop := '\n' ∉ s.toList

instance (s : String) : Decidable (IsLine s) := inferInstanceAs (Decidable ('\n' ∉ s.toList))

theorem isLine_append {s t : String} : IsLine (s ++ t) ↔ IsLine s ∧ IsLine t := by
  simp [IsLine, not_or]

theorem isLine_ofList {cs : List Char} : IsLine (String.ofList cs) ↔ '\n' ∉ cs := by
  simp [IsLine]

end TypedRoutes.Text
