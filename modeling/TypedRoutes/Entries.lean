/-!
# Ordered entries

A list of keys with values that works as a mapping and keeps its keys in the order in which they
were first set.
-/

set_option autoImplicit false

namespace TypedRoutes.Entries

variable {κ α : Type}

/-- Changes the value of a key: a key that is there keeps its place, a new one goes to the end.
`same` says which keys are equal. -/
def alterBy (same : κ → κ → Bool) (key : κ) (change : Option α → α) :
    List (κ × α) → List (κ × α)
  | [] => [(key, change none)]
  | (k, v) :: rest =>
    if same k key then (k, change (some v)) :: rest else (k, v) :: alterBy same key change rest

/-- Changes the value of a key among keys that are compared as data. -/
def alter [BEq κ] (key : κ) (change : Option α → α) (entries : List (κ × α)) : List (κ × α) :=
  alterBy (· == ·) key change entries

/-- Sets the value of a key. -/
def put [BEq κ] (key : κ) (value : α) (entries : List (κ × α)) : List (κ × α) :=
  alter key (fun _ => value) entries

/-- The entries that a list of assignments leaves, made one after another. -/
def ofAssignments (same : κ → κ → Bool) (assignments : List (κ × α)) : List (κ × α) :=
  assignments.foldl (fun entries (key, value) => alterBy same key (fun _ => value) entries) []

example : ofAssignments (· == ·) [("a", 1), ("b", 2), ("a", 3)] = [("a", 3), ("b", 2)] := by decide

end TypedRoutes.Entries
