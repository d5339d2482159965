import TypedRoutes.Number.Power

/-!
# Binary64 numbers

The floating-point numbers that documents hold, as exact data: `nan`, the two infinities, and
`± significand * 2 ^ exponent`. Every operation goes through one rounding rule, `ofRatio`: the
nearest number of the format, and of two equally near ones the one with the even significand.
No machine float is involved, so values compare and reduce like any other data.
-/

set_option autoImplicit false

namespace TypedRoutes

/-- A number of the IEEE 754 binary64 format.

A finite value is kept in its one canonical shape (`Binary64.IsCanonical`), so equal values are
equal data, except for the two zeros. -/
inductive Binary64 where
  | nan
  | infinite (negative : Bool)
  | finite (negative : Bool) (significand : Nat) (exponent : Int)
  deriving DecidableEq, Repr, Inhabited

namespace Binary64

/-- The exponent of the smallest steps of the format. -/
def minExponent : Int := -1074

/-- The exponent of the largest finite numbers of the format. -/
def maxExponent : Int := 971

/-- The significand of a normal number has its leading bit here. -/
def leadingBit : Nat := twoTo 52

/-- The shape in which a finite value is kept: the significand fills the format's 53 bits unless
the exponent is already the smallest. -/
def IsCanonical : Binary64 → Prop
  | .finite _ m e =>
      m < 2 * leadingBit ∧ minExponent ≤ e ∧ e ≤ maxExponent ∧
        (leadingBit ≤ m ∨ e = minExponent)
  | _ => True

/-- Positive zero. -/
def zero : Binary64 := .finite false 0 minExponent

/-- A finite number is one that is neither a NaN nor infinite. -/
def isFinite : Binary64 → Bool
  | .finite .. => true
  | _ => false

/-- Both zeros count as zero. -/
def isZero : Binary64 → Bool
  | .finite _ 0 _ => true
  | _ => false

/-- The quotient rounded to the nearest natural number, a half to the even neighbour. -/
def roundDiv (num den : Nat) : Nat :=
  let q := num / den
  let r := num % den
  if den < 2 * r ∨ (2 * r = den ∧ q % 2 = 1) then q + 1 else q

/-- `num / den * 2 ^ (-shift)` as a ratio of natural numbers. -/
def scaleDown (num den : Nat) (shift : Int) : Nat × Nat :=
  if 0 ≤ shift then (num, den * twoTo shift.toNat) else (num * twoTo (-shift).toNat, den)

/-- The exponent at which the significand of `num / den` has 53 bits, or the smallest one. -/
def exponentOfRatio (num den : Nat) : Int :=
  let guess : Int := (num.log2 : Int) - (den.log2 : Int) - 52
  let (n, d) := scaleDown num den guess
  let exact := if n < leadingBit * d then guess - 1 else guess
  max exact minExponent

/-- The number nearest to `± num / den`; a half goes to the even significand, and what lies past
the largest number is infinite. -/
def ofRatio (negative : Bool) (num den : Nat) : Binary64 :=
  if num = 0 ∨ den = 0 then .finite negative 0 minExponent
  else
    let e := exponentOfRatio num den
    let (n, d) := scaleDown num den e
    let m := roundDiv n d
    let (m, e) := if m = 2 * leadingBit then (leadingBit, e + 1) else (m, e)
    if maxExponent < e then .infinite negative else .finite negative m e

/-- The decimal exponents beyond which a number is certainly infinite, or certainly zero. -/
def decimalReach : Int := 400

/-- The number nearest to `± digits * 10 ^ exponent`. The reach is tested first, so a long
exponent costs nothing. -/
def ofDecimal (negative : Bool) (digits : Nat) (exponent : Int) : Binary64 :=
  let magnitude : Int := exponent + (Nat.toDigits 10 digits).length
  if digits = 0 ∨ magnitude < -decimalReach then .finite negative 0 minExponent
  else if decimalReach < magnitude then .infinite negative
  else if 0 ≤ exponent then ofRatio negative (digits * tenTo exponent.toNat) 1
  else ofRatio negative digits (tenTo (-exponent).toNat)

/-- The number nearest to an integer. -/
def ofInt (n : Int) : Binary64 := ofRatio (n < 0) n.natAbs 1

/-- The magnitude of a finite number as a ratio of natural numbers. -/
def toRatio (significand : Nat) (exponent : Int) : Nat × Nat :=
  if 0 ≤ exponent then (significand * twoTo exponent.toNat, 1)
  else (significand, twoTo (-exponent).toNat)

/-- The number with the other sign. -/
def neg : Binary64 → Binary64
  | .nan => .nan
  | .infinite s => .infinite (!s)
  | .finite s m e => .finite (!s) m e

/-- The rounded sum. A sum of opposite numbers is the positive zero. -/
def add : Binary64 → Binary64 → Binary64
  | .nan, _ | _, .nan => .nan
  | .infinite s, .infinite t => if s = t then .infinite s else .nan
  | .infinite s, _ | _, .infinite s => .infinite s
  | .finite s m e, .finite t n f =>
    let low := min e f
    let a : Int := (m * twoTo (e - low).toNat : Nat)
    let b : Int := (n * twoTo (f - low).toNat : Nat)
    let sum := (if s then -a else a) + (if t then -b else b)
    if sum = 0 then .finite (s && t) 0 minExponent
    else
      let (num, den) := toRatio sum.natAbs low
      ofRatio (sum < 0) num den

/-- The rounded product. -/
def mul : Binary64 → Binary64 → Binary64
  | .nan, _ | _, .nan => .nan
  | .infinite s, .infinite t => .infinite (s != t)
  | .infinite s, .finite t n _ => if n = 0 then .nan else .infinite (s != t)
  | .finite s m _, .infinite t => if m = 0 then .nan else .infinite (s != t)
  | .finite s m e, .finite t n f =>
    let (num, den) := toRatio (m * n) (e + f)
    ofRatio (s != t) num den

/-- The integer that a number is equal to, if there is one. -/
def toInt? : Binary64 → Option Int
  | .finite s m e =>
    let (num, den) := toRatio m e
    if num % den = 0 then
      let n : Int := (num / den : Nat)
      some (if s then -n else n)
    else none
  | _ => none

/-- Numeric equality: the zeros are equal to each other, and a NaN to nothing. -/
def sameNumber : Binary64 → Binary64 → Bool
  | .nan, _ | _, .nan => false
  | x, y => (x.isZero && y.isZero) || decide (x = y)

example : ofDecimal false 1 0 = .finite false (twoTo 52) (-52) := by decide
example : ofDecimal false 5 (-324) = .finite false 1 (-1074) := by decide +kernel
example : ofDecimal true 1 400 = .infinite true := by decide +kernel
example : ofRatio false (twoTo 53 + 1) 1 = .finite false (twoTo 52) 1 := by decide +kernel

end Binary64
end TypedRoutes
