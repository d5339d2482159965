import Mathlib.Data.List.TakeWhile
import TypedRoutes.Json.Reader
import TypedRoutes.Json.Writer
import TypedRoutes.Proofs.Number.Decimal
import TypedRoutes.Proofs.Text.Run

/-!
# Numerals of JSON

A `WrittenNumeral` is a number as it stands in a text: the digits before and after its point, and
its exponent. `Json.Reader.unsigned_append` says what the reader makes of one, if what follows it
does not continue it (`NumeralEnd`).
-/

set_option autoImplicit false

namespace TypedRoutes

open Text (Stops stops_cons takeWhile_append_stops dropWhile_append_stops)
open Numeral (ofDigits)
open Json.Reader (digitValues)

/-! ## Digits -/

/-- A text of ASCII digits. -/
def IsDigits (cs : List Char) : Prop := ∀ c ∈ cs, c.isDigit = true

theorem isDigits_nil : IsDigits [] := by
  simp [IsDigits]

theorem isDigits_zero : IsDigits ['0'] := by
  simp [IsDigits]

theorem isDigits_append {cs ds : List Char} : IsDigits (cs ++ ds) ↔ IsDigits cs ∧ IsDigits ds :=
  List.forall_mem_append

theorem isDigits_decimalDigits (n : Nat) : IsDigits (decimalDigits n) := fun _ hc =>
  Nat.isDigit_of_mem_toDigits (by decide) (by decide) hc

theorem isDigits_replicate (k : Nat) : IsDigits (List.replicate k '0') := by
  intro c hc
  rw [List.eq_of_mem_replicate hc]
  decide

/-- The number that a text of digits stands for. -/
def digitsNumber (cs : List Char) : Nat := Nat.ofDigitChars 10 cs 0

/-- Reading off the values of the digits one by one gives the number that they stand for. -/
theorem ofDigits_digitValues (cs : List Char) : ofDigits 10 (digitValues cs) = digitsNumber cs := by
  rw [ofDigits, digitValues, List.foldl_map, digitsNumber, Nat.ofDigitChars_eq_foldl]
  congr 1
  funext n c
  rw [Nat.mul_comm]
  rfl

/-- Digits in front count for as many powers of ten as there are digits behind them. -/
theorem digitsNumber_append (cs ds : List Char) :
    digitsNumber (cs ++ ds) = digitsNumber cs * 10 ^ ds.length + digitsNumber ds := by
  rw [digitsNumber, Nat.ofDigitChars_append, Nat.ofDigitChars_eq_ofDigitChars_zero, Nat.mul_comm]
  rfl

theorem digitsNumber_replicate (k : Nat) : digitsNumber (List.replicate k '0') = 0 := by
  rw [digitsNumber, Nat.ofDigitChars_replicate_zero, Nat.mul_zero]

/-- The decimal digits of a number stand for it. -/
theorem digitsNumber_decimalDigits (n : Nat) : digitsNumber (decimalDigits n) = n :=
  Nat.ofDigitChars_ten_toDigits

/-- As many digits as there are stand for less than that power of ten. -/
theorem digitsNumber_lt {cs : List Char} (h : IsDigits cs) : digitsNumber cs < 10 ^ cs.length := by
  induction cs with
  | nil => decide
  | cons c rest ih =>
    have hrest := ih fun d hd => h d (List.mem_cons_of_mem c hd)
    have hc : c.toNat - 48 ≤ 9 := by
      have := h c List.mem_cons_self
      simp only [Char.isDigit, Bool.and_eq_true, decide_eq_true_eq] at this
      have hupper : c.toNat ≤ 57 := this.2
      omega
    have hsplit := digitsNumber_append [c] rest
    have hone : digitsNumber [c] = c.toNat - 48 := by
      simp [digitsNumber, Nat.ofDigitChars_cons]
    rw [List.singleton_append, hone] at hsplit
    rw [hsplit, List.length_cons, Nat.pow_succ]
    nlinarith

/-! ## Numerals as they are written -/

/-- The digits before a point: a lone zero, or digits of which the first is not zero. -/
structure IsWhole (cs : List Char) : Prop where
  digits : IsDigits cs
  ne_nil : cs ≠ []
  lone : cs.head? = some '0' → cs = ['0']

/-- The decimal digits of a number are a whole number: they begin with no zero, or are the one digit
zero. -/
theorem isWhole_decimalDigits (n : Nat) : IsWhole (decimalDigits n) := by
  refine ⟨isDigits_decimalDigits n, Nat.toDigits_ne_nil, ?_⟩
  intro hhead
  obtain ⟨rest, hrest⟩ : ∃ rest, decimalDigits n = '0' :: rest := List.head?_eq_some_iff.1 hhead
  rcases Nat.eq_zero_or_pos n with rfl | hn
  · rfl
  · -- The digits after a leading zero would make the number already, and are too few for it.
    exfalso
    have hlow := Shortest.tenTo_length_le hn.ne'
    have hvalue := digitsNumber_decimalDigits n
    have hdigits := isDigits_decimalDigits n
    rw [hrest] at hlow hvalue hdigits
    have hlt := digitsNumber_lt fun c hc => hdigits c (List.mem_cons_of_mem '0' hc)
    have hsplit := digitsNumber_append ['0'] rest
    have hzero : digitsNumber ['0'] = 0 := by decide
    rw [List.singleton_append, hvalue, hzero] at hsplit
    simp only [List.length_cons, Nat.add_sub_cancel] at hlow
    omega

/-- A number as it is written, without its sign. An exponent is its sign and its digits. -/
structure WrittenNumeral where
  whole : List Char
  fraction : List Char
  exponent : Option (Bool × List Char)
  isWhole : IsWhole whole
  fraction_digits : IsDigits fraction
  exponent_digits : ∀ x ∈ exponent, IsDigits x.2 ∧ x.2 ≠ []

namespace WrittenNumeral

/-- The point and the digits after it. -/
def fractionChars : List Char → List Char
  | [] => []
  | digits => '.' :: digits

/-- The digits of a fraction stand behind a point. -/
theorem fractionChars_of_ne_nil {digits : List Char} (h : digits ≠ []) :
    fractionChars digits = '.' :: digits := by
  cases digits with
  | nil => exact absurd rfl h
  | cons c rest => rfl

/-- The exponent with its mark and its sign. -/
def exponentChars : Option (Bool × List Char) → List Char
  | none => []
  | some (negative, digits) => 'e' :: (if negative then '-' else '+') :: digits

/-- The text of a numeral. -/
def chars (w : WrittenNumeral) : List Char :=
  w.whole ++ fractionChars w.fraction ++ exponentChars w.exponent

/-- The value of an exponent. -/
def exponentValue : Option (Bool × List Char) → Int
  | none => 0
  | some (negative, digits) =>
    let value : Int := digitsNumber digits
    if negative then -value else value

/-- The digits of a numeral as one number. -/
def digits (w : WrittenNumeral) : Nat := digitsNumber (w.whole ++ w.fraction)

/-- The power of ten that goes with the digits. -/
def power (w : WrittenNumeral) : Int := exponentValue w.exponent - w.fraction.length

end WrittenNumeral

/-- What may follow a numeral without continuing it. -/
def NumeralEnd (rest : List Char) : Prop :=
  Stops (fun c => c.isDigit || c = '.' || c = 'e' || c = 'E') rest

/-- No digit follows a numeral. -/
theorem NumeralEnd.stops_isDigit {rest : List Char} (h : NumeralEnd rest) :
    Stops Char.isDigit rest := by
  intro c hc
  have := h c hc
  simp only [Bool.or_eq_false_iff] at this
  exact this.1.1.1

/-- Neither a point nor an exponent follows a numeral. -/
theorem NumeralEnd.ne_of_mem_head? {rest : List Char} (h : NumeralEnd rest) {c : Char}
    (hc : c ∈ rest.head?) : c ≠ '.' ∧ c ≠ 'e' ∧ c ≠ 'E' := by
  have := h c hc
  simp only [Bool.or_eq_false_iff, decide_eq_false_iff_not] at this
  exact ⟨this.1.1.2, this.1.2, this.2⟩

/-! ## Reading a numeral -/

namespace Json.Reader

open WrittenNumeral (fractionChars exponentChars exponentValue)

/-- A whole number is cut off in front of a text that begins with no digit. -/
theorem whole_append {cs rest : List Char} (h : IsWhole cs) (hrest : Stops Char.isDigit rest) :
    whole (cs ++ rest) = (cs, rest) := by
  obtain ⟨c, tail, rfl⟩ := List.exists_cons_of_ne_nil h.ne_nil
  -- A leading zero stands alone, so the reader stops after it in time.
  by_cases hc : c = '0'
  · subst hc
    rw [h.lone rfl]
    rfl
  · have hmatch : whole (c :: tail ++ rest) =
        ((c :: tail ++ rest).takeWhile Char.isDigit,
          (c :: tail ++ rest).dropWhile Char.isDigit) := by
      rw [List.cons_append, whole]
      rintro _ heq
      exact hc (List.cons.inj heq).1
    rw [hmatch, takeWhile_append_stops h.digits hrest, dropWhile_append_stops h.digits hrest]

/-- A fraction is cut off in front of a text that begins with no digit, and with no point if there
are no digits in it. -/
theorem fraction_append {cs rest : List Char} (h : IsDigits cs) (hrest : Stops Char.isDigit rest)
    (hpoint : ∀ c ∈ rest.head?, c ≠ '.') : fraction (fractionChars cs ++ rest) = (cs, rest) := by
  cases cs with
  | nil =>
    rw [fractionChars, List.nil_append, fraction.eq_def]
    split
    · exact absurd rfl (hpoint '.' rfl)
    · rfl
  | cons c tail =>
    have hpoint : fractionChars (c :: tail) ++ rest = '.' :: (c :: tail ++ rest) := rfl
    rw [hpoint, fraction, takeWhile_append_stops h hrest, dropWhile_append_stops h hrest]

/-- An exponent is cut off in front of a text that continues no numeral. -/
theorem exponent_append {x : Option (Bool × List Char)} {rest : List Char}
    (h : ∀ y ∈ x, IsDigits y.2 ∧ y.2 ≠ []) (hrest : NumeralEnd rest) :
    exponent (exponentChars x ++ rest) = (x.map fun y => exponentValue (some y), rest) := by
  match x with
  | none =>
    cases rest with
    | nil => rfl
    | cons c tail =>
      obtain ⟨-, he, hE⟩ := hrest.ne_of_mem_head? (c := c) rfl
      simp [exponentChars, exponent, he, hE]
  | some (negative, digits) =>
    obtain ⟨hdigits, hne⟩ := h _ rfl
    obtain ⟨c, tail, rfl⟩ := List.exists_cons_of_ne_nil hne
    -- The sign is always written, and the reader takes it as such.
    have hsign : Numeral.splitSign ((if negative then '-' else '+') :: (c :: tail ++ rest)) =
        (negative, c :: tail ++ rest) := by
      cases negative <;> rfl
    rw [exponentChars, List.cons_append, List.cons_append, exponent]
    simp only [true_or, if_true, hsign, takeWhile_append_stops hdigits hrest.stops_isDigit,
      dropWhile_append_stops hdigits hrest.stops_isDigit, ofDigits_digitValues, exponentValue,
      Option.map_some]

/-- What the reader makes of a numeral: an integer if it has no point and no exponent. -/
theorem unsigned_append (negative : Bool) (w : WrittenNumeral) {rest : List Char}
    (hrest : NumeralEnd rest) :
    unsigned negative (w.chars ++ rest) =
      if w.fraction = [] ∧ w.exponent = none then
        if digitLimit < w.whole.length then .error w.whole.length
        else
          .ok (some (.int (if negative then -digitsNumber w.whole else digitsNumber w.whole), rest))
      else .ok (some (.float (.ofDecimal negative w.digits w.power), rest)) := by
  -- Each part of the numeral ends where the next one begins.
  have hexponent : Stops Char.isDigit (exponentChars w.exponent ++ rest) := by
    rcases hw : w.exponent with _ | ⟨sign, digits⟩
    · exact hrest.stops_isDigit
    · exact stops_cons.2 (by decide)
  have hpoint : ∀ c ∈ (exponentChars w.exponent ++ rest).head?, c ≠ '.' := by
    rcases hw : w.exponent with _ | ⟨sign, digits⟩
    · exact fun c hc => (hrest.ne_of_mem_head? hc).1
    · intro c hc
      obtain rfl := Option.some.inj hc
      decide
  have hfraction : Stops Char.isDigit
      (fractionChars w.fraction ++ (exponentChars w.exponent ++ rest)) := by
    cases w.fraction with
    | nil => exact hexponent
    | cons c tail => exact stops_cons.2 (by decide)
  have hempty : w.whole.isEmpty = false := List.isEmpty_eq_false_iff.2 w.isWhole.ne_nil
  unfold unsigned
  rw [WrittenNumeral.chars, List.append_assoc, List.append_assoc]
  simp only [whole_append w.isWhole hfraction,
    fraction_append w.fraction_digits hexponent hpoint,
    exponent_append w.exponent_digits hrest, hempty, Bool.false_eq_true, if_false,
    ofDigits_digitValues, Option.isNone_map, Bool.and_eq_true, List.isEmpty_iff,
    Option.isNone_iff_eq_none]
  split
  · rfl
  · congr 5
    rw [Numeral.Scientific.toBinary64, digitValues, digitValues, ← List.map_append]
    have hdigits := ofDigits_digitValues (w.whole ++ w.fraction)
    rw [digitValues] at hdigits
    rw [hdigits, List.length_map, WrittenNumeral.digits, WrittenNumeral.power]
    cases w.exponent <;> rfl

end Json.Reader

end TypedRoutes
