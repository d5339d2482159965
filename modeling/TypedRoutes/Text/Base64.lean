/-!
# Base64

Reading bytes from their base64 text. Characters outside the alphabet are passed over, and padding
ends the text; what stands before it has to be a whole number of bytes.
-/

set_option autoImplicit false

namespace TypedRoutes.Text.Base64

/-- The six bits that a character stands for. -/
def sextet? (c : Char) : Option Nat :=
  if 'A' ≤ c ∧ c ≤ 'Z' then some (c.toNat - 65)
  else if 'a' ≤ c ∧ c ≤ 'z' then some (c.toNat - 71)
  else if '0' ≤ c ∧ c ≤ '9' then some (c.toNat + 4)
  else if c = '+' then some 62
  else if c = '/' then some 63
  else none

/-- Reads on in a group of four: `place` characters of it were read, `left` holds their bits that
are not in a byte yet, and `pads` padding characters followed them. -/
def readOn (place left pads : Nat) : List Char → Option (List UInt8)
  | [] => if place = 0 then some [] else none
  | '=' :: rest =>
    if 2 ≤ place ∧ 4 ≤ place + pads + 1 then some []
    else readOn place left (if 2 ≤ place then pads + 1 else pads) rest
  | c :: rest =>
    match sextet? c with
    | none => readOn place left pads rest
    | some bits =>
      match place with
      | 0 => readOn 1 bits 0 rest
      | 1 => (readOn 2 (bits % 16) 0 rest).map (UInt8.ofNat (left * 4 + bits / 16) :: ·)
      | 2 => (readOn 3 (bits % 4) 0 rest).map (UInt8.ofNat (left * 16 + bits / 4) :: ·)
      | _ => (readOn 0 0 0 rest).map (UInt8.ofNat (left * 64 + bits) :: ·)

/-- The bytes that a text stands for. -/
def decode? (text : List Char) : Option (List UInt8) := readOn 0 0 0 text

example : decode? "aGk=".toList = some [104, 105] := by decide +kernel
example : decode? "aG\nk".toList = none := by decide +kernel
example : decode? "a".toList = none := by decide +kernel

end TypedRoutes.Text.Base64
