/-!
# Splitting text

A text cut at every separator, and a text cut at the first one. Cutting everywhere gives one part
more than there are separators, and the parts hold none.
-/

set_option autoImplicit false

namespace TypedRoutes.Text

/-- The parts of a text between its separators, the empty ones included. -/
def splitAt (separator : Char) : List Char → List (List Char)
  | [] => [[]]
  | c :: rest =>
    if c = separator then [] :: splitAt separator rest
    else match splitAt separator rest with
      | [] => [[c]]
      | part :: parts => (c :: part) :: parts

/-- What stands before the first separator, and what after it, if there is one. -/
def cut (separator : Char) (cs : List Char) : List Char × Option (List Char) :=
  (cs.takeWhile (· ≠ separator), (cs.dropWhile (· ≠ separator)).tail?)

theorem splitAt_ne_nil (separator : Char) (cs : List Char) : splitAt separator cs ≠ [] := by
  induction cs with
  | nil => simp [splitAt]
  | cons c rest ih =>
    by_cases h : c = separator
    · simp [splitAt, h]
    · simp only [splitAt, h, if_false]
      split <;> simp

example : splitAt '/' ['a', '/', '/', 'b'] = [['a'], [], ['b']] := by decide
example : cut '=' ['a', '=', 'b', '='] = (['a'], some ['b', '=']) := by decide
example : cut '=' ['a'] = (['a'], none) := by decide

end TypedRoutes.Text
