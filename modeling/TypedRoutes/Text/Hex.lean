/-!
# Hexadecimal digits
-/

set_option autoImplicit false

namespace TypedRoutes.Text

/-- The value of a hexadecimal digit; only ASCII digits and letters count. -/
def hexValue? (c : Char) : Option Nat :=
  if c.isDigit then some (c.toNat - 48)
  else if 'a' ≤ c ∧ c ≤ 'f' then some (c.toNat - 87)
  else if 'A' ≤ c ∧ c ≤ 'F' then some (c.toNat - 55)
  else none

/-- The number that hexadecimal digits stand for. -/
def hexNumber? (cs : List Char) : Option Nat :=
  (cs.mapM hexValue?).map fun digits => digits.foldl (fun n d => n * 16 + d) 0

/-- A number in hexadecimal, filled up with zeros to a width. -/
def hex (width n : Nat) : List Char :=
  let digits := Nat.toDigits 16 n
  List.replicate (width - digits.length) '0' ++ digits

example : hexNumber? ['0', '0', 'e', 'F'] = some 239 := by decide
example : hex 4 239 = ['0', '0', 'e', 'f'] := by decide +kernel

end TypedRoutes.Text
