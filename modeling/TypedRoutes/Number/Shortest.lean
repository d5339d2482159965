import TypedRoutes.Number.Binary64

/-!
# The shortest decimal of a binary64 number

`Shortest.decimal` finds the fewest digits that read back as the number, and of those the digits
nearest to it. `Layout` says how such digits are written: where positional notation ends, how an
exponent looks, and what stands for the values that have no digits.
-/

set_option autoImplicit false

namespace TypedRoutes

/-- The decimal digits of a natural number, most significant first. -/
def decimalDigits (n : Nat) : List Char := Nat.toDigits 10 n

/-- The decimal text of an integer. -/
def decimalText (n : Int) : String :=
  let digits := String.ofList (decimalDigits n.natAbs)
  if n < 0 then "-" ++ digits else digits

namespace Shortest

/-- A positive decimal: the digits, read as a number, times a power of ten. -/
structure Decimal where
  digits : Nat
  exponent : Int
  deriving DecidableEq, Repr

/-- The number of decimal places before the point of `num / den`: the least `k` with
`num / den < 10 ^ k`. -/
def places (num den : Nat) : Int :=
  if den ≤ num then ((decimalDigits (num / den)).length : Int)
  else
    let ceiling := (den + num - 1) / num
    if ceiling ≤ 1 then 0 else 1 - ((decimalDigits (ceiling - 1)).length : Int)

/-- The ends of the interval of reals that round to `m * 2 ^ e`, as numerators over the
denominator `4 * 2 ^ k` with the value itself between them: `(low, value, high, denominator)`. -/
def interval (m : Nat) (e : Int) : Nat × Nat × Nat × Nat :=
  let lowStep := if m = Binary64.leadingBit ∧ Binary64.minExponent < e then 1 else 2
  let up := twoTo e.toNat
  let den := 4 * twoTo (-e).toNat
  ((4 * m - lowStep) * up, 4 * m * up, (4 * m + 2) * up, den)

/-- Compares `digits * 10 ^ exponent` with `num / den`. -/
def Decimal.compare (d : Decimal) (num den : Nat) : Ordering :=
  if 0 ≤ d.exponent then Ord.compare (d.digits * tenTo d.exponent.toNat * den) num
  else Ord.compare (d.digits * den) (num * tenTo (-d.exponent).toNat)

/-- Does the decimal lie in the rounding interval? Its ends count when the significand is even. -/
def reads (m : Nat) (e : Int) (d : Decimal) : Bool :=
  let (low, _, high, den) := interval m e
  match d.compare low den, d.compare high den with
  | .gt, .lt => true
  | .eq, _ | _, .eq => m % 2 = 0
  | _, _ => false

/-- Of the two neighbours of the value on the grid of `10 ^ exponent`, those that read back, the
nearer first; of two equally near ones the one with the even last digit. -/
def onGrid? (m : Nat) (e : Int) (exponent : Int) : Option Decimal :=
  let (num, den) := Binary64.toRatio m e
  let (n, d) :=
    if 0 ≤ exponent then (num, den * tenTo exponent.toNat)
    else (num * tenTo (-exponent).toNat, den)
  let below := n / d
  let nearest := Binary64.roundDiv n d
  let other := if nearest = below then below + 1 else below
  [nearest, other].findSome? fun digits =>
    let candidate : Decimal := ⟨digits, exponent⟩
    if digits ≠ 0 ∧ reads m e candidate then some candidate else none

/-- The digits of a positive number `m * 2 ^ e`: grids of 1, 2, …, 17 digits are tried, and the
first that holds a decimal reading back gives it. -/
def decimal (m : Nat) (e : Int) : Decimal :=
  let (num, den) := Binary64.toRatio m e
  let k := places num den
  ((List.range 17).findSome? fun n => onGrid? m e (k - (n + 1 : Nat))).getD ⟨m, e⟩

end Shortest

/-- How a binary64 number is written. -/
structure Layout where
  /-- Numbers from `10 ^ lowestPositional` on are written without an exponent … -/
  lowestPositional : Int
  /-- … up to `10 ^ firstExponential`, which has one. -/
  firstExponential : Int
  /-- An exponent has at least this many digits, after its sign. -/
  exponentWidth : Nat
  nanText : String
  infinityText : String

namespace Layout

/-- The exponent part: the mark `e`, the sign, and the digits. -/
def exponentText (l : Layout) (x : Int) : String :=
  let digits := decimalDigits x.natAbs
  let zeros := List.replicate (l.exponentWidth - digits.length) '0'
  String.ofList (['e', if x < 0 then '-' else '+'] ++ zeros ++ digits)

/-- Digits with their point: `places` of them stand before it, and a number without a fraction
ends in `.0`. -/
def positional (digits : List Char) (places : Int) : String :=
  if places ≤ 0 then
    "0." ++ String.ofList (List.replicate (-places).toNat '0' ++ digits)
  else
    let whole := digits.take places.toNat
    let zeros := List.replicate (places.toNat - whole.length) '0'
    let rest := digits.drop places.toNat
    String.ofList (whole ++ zeros ++ '.' :: (if rest.isEmpty then ['0'] else rest))

/-- Digits with an exponent: one digit before the point, and no point after a lone digit. -/
def exponential (l : Layout) (digits : List Char) (places : Int) : String :=
  let mantissa := match digits with
    | [] => []
    | d :: [] => [d]
    | d :: rest => d :: '.' :: rest
  String.ofList mantissa ++ l.exponentText (places - 1)

/-- The decimal digits without the zeros at their end. -/
def significantDigits (n : Nat) : List Char :=
  ((decimalDigits n).reverse.dropWhile (· = '0')).reverse

/-- The text of a number. -/
def write (l : Layout) : Binary64 → String
  | .nan => l.nanText
  | .infinite s => (if s then "-" else "") ++ l.infinityText
  | .finite s 0 _ => (if s then "-" else "") ++ "0.0"
  | .finite s m e =>
    let d := Shortest.decimal m e
    let digits := significantDigits d.digits
    let places : Int := d.exponent + (decimalDigits d.digits).length
    let body :=
      if l.lowestPositional < places ∧ places ≤ l.firstExponential then positional digits places
      else l.exponential digits places
    (if s then "-" else "") ++ body

end Layout

/-- Numbers in plain text are positional from `0.0001` up to below `1e+16`, and an exponent has a
sign and at least two digits. -/
def Binary64.layout : Layout := ⟨-4, 16, 2, "nan", "inf"⟩

/-- The plain text of a number. -/
def Binary64.text (x : Binary64) : String := Binary64.layout.write x

example : (Binary64.ofDecimal false 1 22).text = "1e+22" := by decide +kernel
example : (Binary64.ofDecimal false 1 5).text = "100000.0" := by decide +kernel
example : (Binary64.ofDecimal false 1 (-4)).text = "0.0001" := by decide +kernel
example : (Binary64.ofDecimal false 1 (-5)).text = "1e-05" := by decide +kernel
example : (Binary64.ofDecimal true 1234567890123456789 0).text = "-1.2345678901234568e+18" := by
  decide +kernel
example : (Binary64.ofDecimal false 5 (-324)).text = "5e-324" := by decide +kernel
example : (Binary64.ofDecimal false 3 (-1)).text = "0.3" := by decide +kernel
example : (Binary64.ofDecimal false 1234567890123456 0).text = "1234567890123456.0" := by
  decide +kernel
example : (Binary64.ofDecimal false 1 16).text = "1e+16" := by decide +kernel

end TypedRoutes
