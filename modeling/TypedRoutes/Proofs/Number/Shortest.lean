import Mathlib.Tactic.Ring
import TypedRoutes.Number.Shortest
import TypedRoutes.Proofs.Number.Nearest

/-!
# The shortest decimal reads back

A decimal that `Shortest.reads` accepts lies in the rounding interval of the number
(`nearest_of_reads`), and the decimal that is found is accepted (`reads_decimal`): on the grid of 17
digits the step is shorter than a step of the format, so the grid point nearest to the number is
inside its interval.
-/

set_option autoImplicit false

namespace TypedRoutes.Shortest

open Binary64 (Nearest lowStep leadingBit minExponent IsCanonical two_zpow_pos)

theorem ten_zpow_pos (k : ℤ) : (0 : ℚ) < 10 ^ k := zpow_pos (by norm_num) k

/-- The rational that a decimal is. -/
def Decimal.value (d : Decimal) : ℚ := d.digits * 10 ^ d.exponent

/-! ## Comparing decimals -/

/-- Both sides of a comparison are scaled by the same positive number. -/
theorem Decimal.exists_compare_eq (d : Decimal) (num : Nat) {den : Nat} (hden : 0 < den) :
    ∃ (a b : Nat) (scale : ℚ), 0 < scale ∧ d.compare num den = Ord.compare a b ∧
      (a : ℚ) = d.value * scale ∧ (b : ℚ) = ratio (num, den) * scale := by
  have hden' : (0 : ℚ) < den := by exact_mod_cast hden
  unfold Decimal.compare Decimal.value ratio
  split
  -- Only one of the sides is multiplied by a power of ten.
  · next h =>
    obtain ⟨n, hn⟩ := Int.eq_ofNat_of_zero_le h
    refine ⟨_, _, den, hden', rfl, ?_, (div_mul_cancel₀ _ hden'.ne').symm⟩
    rw [hn]
    simp [cast_tenTo]
  · next h =>
    obtain ⟨n, hn⟩ := Int.eq_ofNat_of_zero_le (show 0 ≤ -d.exponent by omega)
    have hexponent : d.exponent = -n := by omega
    have hten : (0 : ℚ) < 10 ^ n := by positivity
    refine ⟨_, _, den * 10 ^ n, mul_pos hden' hten, rfl, ?_, ?_⟩
    · rw [hexponent]
      push_cast
      rw [zpow_neg, zpow_natCast]
      field_simp
    · rw [hn]
      push_cast [cast_tenTo]
      rw [Int.toNat_natCast]
      field_simp

/-- A decimal compares as less when its value is less than the ratio. -/
theorem Decimal.compare_eq_lt {d : Decimal} {num den : Nat} (hden : 0 < den) :
    d.compare num den = .lt ↔ d.value < ratio (num, den) := by
  obtain ⟨a, b, scale, hscale, hcompare, ha, hb⟩ := d.exists_compare_eq num hden
  rw [hcompare, Nat.compare_eq_lt, ← Nat.cast_lt (α := ℚ), ha, hb, mul_lt_mul_iff_left₀ hscale]

theorem Decimal.compare_eq_gt {d : Decimal} {num den : Nat} (hden : 0 < den) :
    d.compare num den = .gt ↔ ratio (num, den) < d.value := by
  obtain ⟨a, b, scale, hscale, hcompare, ha, hb⟩ := d.exists_compare_eq num hden
  rw [hcompare, Nat.compare_eq_gt, ← Nat.cast_lt (α := ℚ), ha, hb, mul_lt_mul_iff_left₀ hscale]

theorem Decimal.compare_eq_eq {d : Decimal} {num den : Nat} (hden : 0 < den) :
    d.compare num den = .eq ↔ d.value = ratio (num, den) := by
  obtain ⟨a, b, scale, hscale, hcompare, ha, hb⟩ := d.exists_compare_eq num hden
  rw [hcompare, Nat.compare_eq_eq, ← Nat.cast_inj (R := ℚ), ha, hb, mul_left_inj' hscale.ne']

/-! ## The rounding interval -/

theorem interval_den_pos (m : Nat) (e : ℤ) : 0 < (interval m e).2.2.2 :=
  Nat.mul_pos (by decide) (twoTo_pos _)

/-- The two powers of two in an interval make the step. -/
theorem twoTo_div_twoTo (e : ℤ) : (twoTo e.toNat : ℚ) / twoTo (-e).toNat = 2 ^ e := by
  rw [cast_twoTo, cast_twoTo, ← zpow_natCast, ← zpow_natCast, ← zpow_sub₀ two_ne_zero]
  congr 1
  omega

/-- The interval of a number begins one lower half of a step below it. -/
theorem ratio_interval_low {m : Nat} (hm : 0 < m) (e : ℤ) :
    ratio ((interval m e).1, (interval m e).2.2.2) = ((m : ℚ) - lowStep m e) * 2 ^ e := by
  have hpos : (0 : ℚ) < twoTo (-e).toNat := by exact_mod_cast twoTo_pos _
  rw [← twoTo_div_twoTo, ratio, interval, lowStep]
  split
  · rw [Nat.cast_mul, Nat.cast_sub (by omega)]
    push_cast
    field_simp
  · rw [Nat.cast_mul, Nat.cast_sub (by omega)]
    push_cast
    field_simp
    ring

/-- The interval of a number ends half a step above it. -/
theorem ratio_interval_high (m : Nat) (e : ℤ) :
    ratio ((interval m e).2.2.1, (interval m e).2.2.2) = ((m : ℚ) + 1 / 2) * 2 ^ e := by
  have hpos : (0 : ℚ) < twoTo (-e).toNat := by exact_mod_cast twoTo_pos _
  rw [← twoTo_div_twoTo, ratio, interval]
  push_cast
  field_simp
  ring

/-- A decimal is read back when it lies within the interval, or on its border for an even
significand. -/
theorem reads_eq (m : Nat) (e : ℤ) (d : Decimal) :
    reads m e d = match d.compare (interval m e).1 (interval m e).2.2.2,
        d.compare (interval m e).2.2.1 (interval m e).2.2.2 with
      | .gt, .lt => true
      | .eq, _ | _, .eq => m % 2 = 0
      | _, _ => false := rfl

/-- A decimal that reads back lies in the rounding interval. -/
theorem nearest_of_reads {m : Nat} {e : ℤ} {d : Decimal} (hm : 0 < m)
    (h : reads m e d = true) : Nearest m e d.value := by
  have hpos := interval_den_pos m e
  have hlow := ratio_interval_low hm e
  have hhigh := ratio_interval_high m e
  have hstep := two_zpow_pos e
  have hbelow := Binary64.lowStep_pos m e
  rw [reads_eq] at h
  split at h
  · next hgt hlt =>
    rw [Decimal.compare_eq_gt hpos, hlow] at hgt
    rw [Decimal.compare_eq_lt hpos, hhigh] at hlt
    refine ⟨hgt.le, hlt.le, ?_⟩
    rintro (heq | heq)
    · exact absurd heq hgt.ne'
    · exact absurd heq hlt.ne
  -- On an end of the interval the significand is even.
  · next heq =>
    rw [Decimal.compare_eq_eq hpos, hlow] at heq
    refine ⟨heq.ge, ?_, fun _ => of_decide_eq_true h⟩
    rw [heq]
    nlinarith
  · next heq _ =>
    rw [Decimal.compare_eq_eq hpos, hhigh] at heq
    refine ⟨?_, heq.le, fun _ => of_decide_eq_true h⟩
    rw [heq]
    nlinarith
  · cases h

/-- A decimal within the interval is read back. -/
theorem reads_of_inside {m : Nat} {e : ℤ} {d : Decimal} (hm : 0 < m)
    (hlow : ((m : ℚ) - lowStep m e) * 2 ^ e < d.value)
    (hhigh : d.value < ((m : ℚ) + 1 / 2) * 2 ^ e) : reads m e d = true := by
  have hpos := interval_den_pos m e
  rw [← ratio_interval_low hm e] at hlow
  rw [← ratio_interval_high m e] at hhigh
  rw [reads_eq, (Decimal.compare_eq_gt hpos).2 hlow, (Decimal.compare_eq_lt hpos).2 hhigh]

/-! ## Places before the point -/

/-- A number has as many digits as it needs. -/
theorem lt_tenTo_length (n : Nat) : n < 10 ^ (decimalDigits n).length :=
  (Nat.length_toDigits_le_iff (by decide) Nat.length_toDigits_pos).1 le_rfl

/-- A number other than zero has no more digits than it needs. -/
theorem tenTo_length_le {n : Nat} (hn : n ≠ 0) : 10 ^ ((decimalDigits n).length - 1) ≤ n := by
  apply not_lt.1
  intro hlt
  have hpos : 0 < (decimalDigits n).length := Nat.length_toDigits_pos
  rcases Nat.eq_zero_or_pos ((decimalDigits n).length - 1) with h | h
  · rw [h, pow_zero] at hlt
    omega
  · have := (Nat.length_toDigits_le_iff (b := 10) (by decide) h).2 hlt
    rw [decimalDigits] at *
    omega

/-- A rational has as many digits before its point as its integer part. -/
theorem places_spec {num den : Nat} (hnum : num ≠ 0) (hden : 0 < den) :
    (10 : ℚ) ^ (places num den - 1) ≤ ratio (num, den) ∧
      ratio (num, den) < 10 ^ places num den := by
  have hnum' : (0 : ℚ) < num := by exact_mod_cast Nat.pos_of_ne_zero hnum
  have hden' : (0 : ℚ) < den := by exact_mod_cast hden
  unfold places
  split
  · next hle =>
    have hne : num / den ≠ 0 := (Nat.div_pos hle hden).ne'
    have hpos : 0 < (decimalDigits (num / den)).length := Nat.length_toDigits_pos
    have hlow := tenTo_length_le hne
    have hhigh := lt_tenTo_length (num / den)
    rw [Nat.le_div_iff_mul_le hden] at hlow
    rw [Nat.div_lt_iff_lt_mul hden] at hhigh
    rw [ratio]
    constructor
    · rw [le_div_iff₀ hden', ← Nat.cast_one, ← Nat.cast_sub hpos, zpow_natCast]
      exact_mod_cast hlow
    · rw [div_lt_iff₀ hden', zpow_natCast]
      exact_mod_cast hhigh
  -- Below one, the places are counted on the quotient the other way round.
  · next hlt =>
    have hceiling : 1 < (den + num - 1) / num := by
      rw [Nat.lt_iff_add_one_le, Nat.le_div_iff_mul_le (Nat.pos_of_ne_zero hnum)]
      omega
    simp only [if_neg (not_le.2 hceiling)]
    generalize hc : (den + num - 1) / num = c at *
    have hlow := tenTo_length_le (show c - 1 ≠ 0 by omega)
    have hhigh := lt_tenTo_length (c - 1)
    have hpos : 0 < (decimalDigits (c - 1)).length := Nat.length_toDigits_pos
    generalize (decimalDigits (c - 1)).length = k at *
    -- The quotient the other way round lies between `c - 1` and `c`.
    have hbelow : (c - 1) * num < den := by
      have := Nat.div_mul_le_self (den + num - 1) num
      rw [hc] at this
      rw [Nat.sub_mul]
      omega
    have habove : den ≤ c * num := by
      have := Nat.lt_mul_div_succ (den + num - 1) (Nat.pos_of_ne_zero hnum)
      rw [hc, Nat.mul_succ, Nat.mul_comm] at this
      omega
    have hfirst : 10 ^ (k - 1) * num < den :=
      (Nat.mul_le_mul_right num hlow).trans_lt hbelow
    have hlast : den ≤ 10 ^ k * num :=
      habove.trans (Nat.mul_le_mul_right num (by omega))
    rw [ratio]
    constructor
    · rw [show (1 : ℤ) - k - 1 = -(k : ℤ) by omega, zpow_neg, zpow_natCast,
        le_div_iff₀ hden', inv_mul_le_iff₀ (by positivity)]
      exact_mod_cast hlast
    · rw [show (1 : ℤ) - k = -((k - 1 : Nat) : ℤ) by omega, zpow_neg, zpow_natCast,
        div_lt_iff₀ hden', lt_inv_mul_iff₀ (by positivity)]
      exact_mod_cast hfirst

/-! ## The search -/

/-- A ratio in steps of a power of ten. -/
def inSteps (parts : Nat × Nat) (k : ℤ) : Nat × Nat :=
  if 0 ≤ k then (parts.1, parts.2 * tenTo k.toNat) else (parts.1 * tenTo (-k).toNat, parts.2)

theorem inSteps_den_pos {parts : Nat × Nat} (h : 0 < parts.2) (k : ℤ) :
    0 < (inSteps parts k).2 := by
  unfold inSteps
  split
  · exact Nat.mul_pos h (tenTo_pos _)
  · exact h

/-- Counting in steps divides the ratio by a power of ten. -/
theorem ratio_inSteps (parts : Nat × Nat) (k : ℤ) :
    ratio (inSteps parts k) = ratio parts / 10 ^ k := by
  unfold inSteps ratio
  split
  · next h =>
    obtain ⟨n, rfl⟩ := Int.eq_ofNat_of_zero_le h
    simp [cast_tenTo, div_div]
  · next h =>
    obtain ⟨n, hn⟩ := Int.eq_ofNat_of_zero_le (show 0 ≤ -k by omega)
    obtain rfl : k = -n := by omega
    simp [cast_tenTo, mul_div_right_comm]

/-- A decimal that is found on a grid is not zero and is read back. -/
theorem reads_of_onGrid? {m : Nat} {e k : ℤ} {d : Decimal} (h : onGrid? m e k = some d) :
    d.digits ≠ 0 ∧ reads m e d = true := by
  obtain ⟨digits, -, h⟩ := List.exists_of_findSome?_eq_some h
  dsimp only at h
  split at h
  · next hreads =>
    obtain rfl := Option.some.inj h
    exact hreads
  · cases h

/-- A grid has a decimal when the digits nearest to the number are read back. -/
theorem isSome_onGrid? {m : Nat} {e k : ℤ} {digits : Nat} (hdigits : digits ≠ 0)
    (hnearest : Binary64.roundDiv (inSteps (Binary64.toRatio m e) k).1
      (inSteps (Binary64.toRatio m e) k).2 = digits)
    (hreads : reads m e ⟨digits, k⟩ = true) : (onGrid? m e k).isSome := by
  refine List.findSome?_isSome_iff.2 ⟨digits, ?_, ?_⟩
  · rw [← hnearest]
    exact List.mem_cons_self
  · simp only [if_pos (show digits ≠ 0 ∧ reads m e ⟨digits, k⟩ = true from ⟨hdigits, hreads⟩)]
    rfl

/-- Half a step of the grid of 17 digits reaches less far than the rounding interval. -/
theorem half_step_lt {m : Nat} {e : ℤ} {step : ℚ} (hm : m < 2 * leadingBit)
    (hstep : step * 10 ^ 16 ≤ m * 2 ^ e) : step / 2 < lowStep m e * 2 ^ e := by
  have hpos := two_zpow_pos e
  have hm' : (m : ℚ) < 2 * 2 ^ (52 : ℤ) := by
    rw [← cast_leadingBit]
    exact_mod_cast hm
  unfold lowStep
  split
  · next h =>
    rw [h.1, cast_leadingBit] at hstep
    norm_num at hstep ⊢
    nlinarith
  · have hvalue := mul_lt_mul_of_pos_right hm' hpos
    norm_num at hvalue hstep ⊢
    linarith

/-- Seventeen digits suffice. -/
theorem isSome_onGrid?_seventeen {m : Nat} {e : ℤ} (hm : m ≠ 0) (hbound : m < 2 * leadingBit) :
    (onGrid? m e (places (Binary64.toRatio m e).1 (Binary64.toRatio m e).2 - 17)).isSome := by
  have hden := Binary64.toRatio_den_pos m e
  have hvalue := Binary64.ratio_toRatio m e
  have hpos := two_zpow_pos e
  have hm' : (0 : ℚ) < m := by exact_mod_cast Nat.pos_of_ne_zero hm
  have hnum : (Binary64.toRatio m e).1 ≠ 0 := by
    intro h
    rw [ratio, h, Nat.cast_zero, zero_div] at hvalue
    exact (mul_pos hm' hpos).ne hvalue
  obtain ⟨hplaces, -⟩ := places_spec hnum hden
  rw [hvalue] at hplaces
  generalize places (Binary64.toRatio m e).1 (Binary64.toRatio m e).2 = k at *
  have hstep := ten_zpow_pos (k - 17)
  have hscale : (10 : ℚ) ^ (k - 17) * 10 ^ 16 ≤ m * 2 ^ e := by
    rw [← zpow_natCast, ← zpow_add₀ (by norm_num)]
    convert hplaces using 2
    push_cast
    omega
  -- The nearest point of the grid is at most half a step away, which is inside the interval.
  have hhalf := half_step_lt hbound hscale
  have hle := Binary64.lowStep_le m e
  have hnear := Binary64.roundDiv_near (n := (inSteps (Binary64.toRatio m e) (k - 17)).1)
    (inSteps_den_pos hden (k - 17))
  rw [ratio_inSteps, hvalue, le_div_iff₀ hstep, div_le_iff₀ hstep] at hnear
  -- What is left is linear in the value and the step.
  refine isSome_onGrid? ?_ rfl (reads_of_inside (Nat.pos_of_ne_zero hm) ?_ ?_)
  · intro h
    rw [h, Nat.cast_zero] at hnear
    norm_num at hnear hscale
    nlinarith
  · simp only [Decimal.value]
    nlinarith
  · simp only [Decimal.value]
    nlinarith

/-- The decimal of a number other than zero has digits. -/
theorem decimal_digits_ne_zero {m : Nat} {e : ℤ} (hm : m ≠ 0) : (decimal m e).digits ≠ 0 := by
  unfold decimal
  dsimp only
  -- If no grid has a decimal, the significand itself is taken.
  generalize hfound : (List.range 17).findSome? _ = found
  cases found with
  | none => exact hm
  | some d =>
    obtain ⟨n, -, hn⟩ := List.exists_of_findSome?_eq_some hfound
    exact (reads_of_onGrid? hn).1

/-- The decimal that is found reads back. -/
theorem reads_decimal {m : Nat} {e : ℤ} (hm : m ≠ 0) (hbound : m < 2 * leadingBit) :
    reads m e (decimal m e) = true := by
  have hseventeen := isSome_onGrid?_seventeen (e := e) hm hbound
  have hfound : ((List.range 17).findSome? fun n => onGrid? m e
      (places (Binary64.toRatio m e).1 (Binary64.toRatio m e).2 - (n + 1 : Nat))).isSome :=
    List.findSome?_isSome_iff.2 ⟨16, by decide, hseventeen⟩
  obtain ⟨d, hd⟩ := Option.isSome_iff_exists.1 hfound
  have hdecimal : decimal m e = d := by
    unfold decimal
    simp only [hd, Option.getD_some]
  rw [hdecimal]
  obtain ⟨n, -, hn⟩ := List.exists_of_findSome?_eq_some hd
  exact (reads_of_onGrid? hn).2

end TypedRoutes.Shortest
