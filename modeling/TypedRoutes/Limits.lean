/-!
# Limits on nesting

The readers of documents call themselves for what is nested, and only so many calls can be open at a
time. How many there are depends on the machine and on what has called the reader, so the limits are
given to the readers.
-/

set_option autoImplicit false

namespace TypedRoutes

/-- How deep the readers of documents can go. -/
structure Limits where
  /-- The arrays and objects of a JSON text that can be open at a time. -/
  json : Nat
  /-- The sequences and mappings of a YAML text that can be open at a time. -/
  collections : Nat
  /-- The mappings that can be merged at a time, one into the other. -/
  merges : Nat
  /-- The nodes that can be passed on the way to the text of a scalar. -/
  references : Nat
  deriving DecidableEq, Repr

/-- The limits where nothing is known of the machine: a thousand calls, some of which are open
before a reader is called. A collection takes two of them. -/
def Limits.usual : Limits := ⟨980, 480, 980, 980⟩

end TypedRoutes
