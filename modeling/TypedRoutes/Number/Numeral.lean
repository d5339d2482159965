import TypedRoutes.Number.Shortest
import TypedRoutes.Text.CharClass

/-!
# Numerals

Reading integers of a base and binary64 numbers from text, and the limit on decimal conversions:
an integer of more than `digitLimit` decimal digits is neither read nor written. Digits of any
script are accepted, blanks around the numeral are ignored, and single underscores may stand
between digits.
-/

set_option autoImplicit false

namespace TypedRoutes

/-- Integers are converted from and to decimal up to this many digits. -/
def digitLimit : Nat := 4300

/-- A decimal conversion that exceeds the limit. Reading knows how many digits there were. -/
inductive DigitLimit where
  | reading (digits : Nat)
  | writing
  deriving DecidableEq, Repr

/-- The report of a conversion that exceeds the limit. -/
def DigitLimit.message : DigitLimit → String
  | .reading digits =>
    "Exceeds the limit (4300 digits) for integer string conversion: value has " ++
      decimalText digits ++ " digits; use sys.set_int_max_str_digits() to increase the limit"
  | .writing =>
    "Exceeds the limit (4300 digits) for integer string conversion; " ++
      "use sys.set_int_max_str_digits() to increase the limit"

/-- The decimal text of an integer within the limit. -/
def integerText (n : Int) : Except DigitLimit String :=
  if n.natAbs < tenTo digitLimit then .ok (decimalText n) else .error .writing

/-- An integer has a text exactly when its digits are within the limit. -/
theorem integerText_eq_ok_iff {n : Int} {s : String} :
    integerText n = .ok s ↔ n.natAbs < tenTo digitLimit ∧ decimalText n = s := by
  unfold integerText
  by_cases h : n.natAbs < tenTo digitLimit
  · rw [if_pos h]
    exact ⟨fun e => ⟨h, Except.ok.inj e⟩, fun e => congrArg _ e.2⟩
  · rw [if_neg h]
    exact ⟨fun e => (nomatch e), fun e => absurd e.1 h⟩

namespace Numeral

/-- Why a text is not an integer. -/
inductive Fault where
  | malformed (base : Nat) (text : String)
  | tooLong (digits : Nat)
  deriving DecidableEq, Repr

/-- The value of a character as a digit: decimal digits of any script, then the Latin letters. -/
def digitOf (c : Char) : Option Nat :=
  if c.isLower then some (c.toNat - 'a'.toNat + 10)
  else if c.isUpper then some (c.toNat - 'A'.toNat + 10)
  else Text.digitValue? c

/-- The value of a character as a digit of the base. -/
def digitIn? (base : Nat) (c : Char) : Option Nat :=
  (digitOf c).filter (· < base)

/-- The digits that follow a digit, each with or without an underscore before it, and the rest of
the text. -/
def digitsAfter (base : Nat) : List Char → List Nat × List Char
  | '_' :: c :: rest =>
    match digitIn? base c with
    | some d => (d :: (digitsAfter base rest).1, (digitsAfter base rest).2)
    | none => ([], '_' :: c :: rest)
  | c :: rest =>
    match digitIn? base c with
    | some d => (d :: (digitsAfter base rest).1, (digitsAfter base rest).2)
    | none => ([], c :: rest)
  | [] => ([], [])

/-- The digits at the front, which single underscores may separate, and the rest of the text. -/
def digitRun (base : Nat) (cs : List Char) : List Nat × List Char :=
  if cs.head? = some '_' then ([], cs) else digitsAfter base cs

/-- The number that digits of a base stand for. -/
def ofDigits (base : Nat) (digits : List Nat) : Nat := digits.foldl (fun n d => n * base + d) 0

/-- A sign at the front: is it a minus, and what follows. -/
def splitSign : List Char → Bool × List Char
  | '-' :: rest => (true, rest)
  | '+' :: rest => (false, rest)
  | cs => (false, cs)

/-- The letter that announces a base after a zero. -/
def baseMark (base : Nat) : Option Char :=
  if base = 16 then some 'x' else if base = 8 then some 'o' else if base = 2 then some 'b' else none

/-- Drops the announcement of the base (`0x`, `0o` or `0b`) and one underscore after it. -/
def dropBaseMark (base : Nat) : List Char → List Char
  | '0' :: c :: rest =>
    if baseMark base = some c.toLower then
      match rest with
      | '_' :: digits => digits
      | digits => digits
    else '0' :: c :: rest
  | cs => cs

/-- Reads an integer written in a base. -/
def readInteger (base : Nat) (text : String) : Except Fault Int :=
  let (negative, body) := splitSign (Text.trimBlanks text.toList)
  let (digits, rest) := digitRun base (dropBaseMark base body)
  let value : Int := ofDigits base digits
  if digits.isEmpty || rest.head? = some '_' then .error (.malformed base text)
  else if base = 10 && digitLimit < digits.length then .error (.tooLong digits.length)
  else if rest.isEmpty then .ok (if negative then -value else value)
  else .error (.malformed base text)

/-- A decimal fraction as written: the digits on both sides of the point, and the exponent. -/
structure Scientific where
  whole : List Nat
  fraction : List Nat
  exponent : Int
  deriving DecidableEq, Repr

/-- The number nearest to what is written. -/
def Scientific.toBinary64 (negative : Bool) (s : Scientific) : Binary64 :=
  .ofDecimal negative (ofDigits 10 (s.whole ++ s.fraction)) (s.exponent - s.fraction.length)

/-- The exponent part, if the text has one with digits: its value and the rest. -/
def exponentPart (cs : List Char) : Int × List Char :=
  match cs with
  | c :: rest =>
    if c = 'e' ∨ c = 'E' then
      let (negative, body) := splitSign rest
      match digitRun 10 body with
      | ([], _) => (0, cs)
      | (digits, tail) =>
        let value : Int := ofDigits 10 digits
        (if negative then -value else value, tail)
    else (0, cs)
  | [] => (0, [])

/-- Reads a decimal fraction without a sign; at least one digit stands beside the point. -/
def readScientific (cs : List Char) : Option (Scientific × List Char) :=
  let (whole, rest) := digitRun 10 cs
  let (fraction, rest) := match rest with
    | '.' :: tail => digitRun 10 tail
    | _ => ([], rest)
  if whole.isEmpty && fraction.isEmpty then none
  else
    let (exponent, rest) := exponentPart rest
    some (⟨whole, fraction, exponent⟩, rest)

/-- Reads a binary64 number: a decimal fraction, an infinity or a NaN, in any letter case. -/
def readBinary64 (text : String) : Option Binary64 :=
  let (negative, body) := splitSign (Text.trimBlanks text.toList)
  let word := String.ofList (body.map Char.toLower)
  if word = "inf" ∨ word = "infinity" then some (.infinite negative)
  else if word = "nan" then some .nan
  else match readScientific body with
    | some (s, []) => some (s.toBinary64 negative)
    | _ => none

example : (readInteger 10 " -1_000 ").toOption = some (-1000) := by decide +kernel
example : (readInteger 16 "0x_1F").toOption = some 31 := by decide +kernel
example : (readInteger 10 "1__0").toOption = none := by decide +kernel
example : (readBinary64 " 1_0.5e1 ").map Binary64.text = some "105.0" := by decide +kernel
example : readBinary64 "1e_1" = none := by decide +kernel

end Numeral
end TypedRoutes
