/-!
# Line ends

Texts from different systems end their lines in different ways. `unifyNewlines` makes all of them
line feeds.
-/

set_option autoImplicit false

namespace TypedRoutes.Text

/-- The text with a line feed for every carriage return, and one for both together. -/
def unifyNewlines : List Char → List Char
  | '\r' :: '\n' :: rest => '\n' :: unifyNewlines rest
  | '\r' :: rest => '\n' :: unifyNewlines rest
  | c :: rest => c :: unifyNewlines rest
  | [] => []

example : unifyNewlines ['a', '\r', '\n', '\r', '\r', '\n', '\n'] = ['a', '\n', '\n', '\n', '\n'] :=
  by decide

end TypedRoutes.Text
