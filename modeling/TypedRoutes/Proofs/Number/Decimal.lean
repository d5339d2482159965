import TypedRoutes.Number.Numeral
import TypedRoutes.Proofs.Number.Shortest

/-!
# Reading decimals

A decimal in the rounding interval of a number is read as this number, whatever its digits and its
exponent are (`ofDecimal_eq_of_nearest`): the test that comes first, of how far the decimal reaches,
never turns away what lies in such an interval.
-/

set_option autoImplicit false

namespace TypedRoutes

open Shortest (lt_tenTo_length tenTo_length_le ten_zpow_pos)

namespace Binary64

/-- The places of a decimal before its point bound its value. -/
theorem decimal_mem_decade {digits : Nat} (hdigits : digits ≠ 0) (exponent : ℤ) :
    (10 : ℚ) ^ (exponent + (decimalDigits digits).length - 1) ≤ digits * 10 ^ exponent ∧
      (digits : ℚ) * 10 ^ exponent < 10 ^ (exponent + (decimalDigits digits).length) := by
  have hten := ten_zpow_pos exponent
  have hpos : 0 < (decimalDigits digits).length := Nat.length_toDigits_pos
  have hlow : ((10 : ℚ) ^ (((decimalDigits digits).length - 1 : Nat) : ℤ)) ≤ digits := by
    exact_mod_cast tenTo_length_le hdigits
  have hhigh : (digits : ℚ) < 10 ^ ((decimalDigits digits).length : ℤ) := by
    exact_mod_cast lt_tenTo_length digits
  constructor
  · rw [show exponent + ((decimalDigits digits).length : ℤ) - 1 =
      (((decimalDigits digits).length - 1 : Nat) : ℤ) + exponent by omega,
      zpow_add₀ (by norm_num)]
    exact mul_le_mul_of_nonneg_right hlow hten.le
  · rw [add_comm, zpow_add₀ (by norm_num)]
    exact mul_lt_mul_of_pos_right hhigh hten

/-- No number of the format reaches as far as a decimal may. -/
theorem two_zpow_lt_ten_zpow_reach : (2 : ℚ) ^ (1075 : ℤ) < 10 ^ decimalReach :=
  calc (2 : ℚ) ^ (1075 : ℤ) < 2 ^ (1197 : ℤ) := zpow_lt_zpow_right₀ one_lt_two (by decide)
    _ = (2 ^ (9 : ℤ)) ^ (133 : ℤ) := zpow_mul 2 9 133
    _ ≤ (10 ^ (3 : ℤ)) ^ (133 : ℤ) := zpow_le_zpow_left₀ (by decide) (by norm_num) (by norm_num)
    _ = 10 ^ (399 : ℤ) := (zpow_mul 10 3 133).symm
    _ < 10 ^ decimalReach := zpow_lt_zpow_right₀ (by norm_num) (by decide)

/-- A decimal in the rounding interval of a positive number is within reach. -/
theorem abs_magnitude_le {m digits : Nat} {e exponent : ℤ} {negative : Bool} (hm : m ≠ 0)
    (hdigits : digits ≠ 0) (hcanonical : IsCanonical (.finite negative m e))
    (h : Nearest m e (digits * 10 ^ exponent)) :
    -decimalReach ≤ exponent + (decimalDigits digits).length ∧
      exponent + (decimalDigits digits).length ≤ decimalReach := by
  obtain ⟨hbound, hmin, hmax, -⟩ := hcanonical
  obtain ⟨hdecade, hnext⟩ := decimal_mem_decade hdigits exponent
  have hreach := two_zpow_lt_ten_zpow_reach
  have hm' : (1 : ℚ) ≤ m := by exact_mod_cast Nat.pos_of_ne_zero hm
  have hlt {i j : ℤ} (hij : (10 : ℚ) ^ i < 10 ^ j) : i < j :=
    (zpow_lt_zpow_iff_right₀ (by norm_num)).1 hij
  constructor
  -- Half of the smallest number is the least that rounds to a number.
  · have hbottom : (2 : ℚ) ^ (-1075 : ℤ) ≤ digits * 10 ^ exponent := by
      have hstep : (2 : ℚ) ^ (-1074 : ℤ) ≤ 2 ^ e := zpow_le_zpow_right₀ one_le_two hmin
      have hhalf := lowStep_le m e
      have hlow := h.low
      have hhalved : (2 : ℚ) ^ (-1074 : ℤ) = 2 ^ (-1075 : ℤ) * 2 :=
        zpow_add_one₀ two_ne_zero (-1075)
      have hpos := two_zpow_pos e
      nlinarith
    have hsmall : (10 : ℚ) ^ (-decimalReach) < 2 ^ (-1075 : ℤ) := by
      rw [zpow_neg, zpow_neg]
      exact inv_strictAnti₀ (two_zpow_pos _) hreach
    exact (hlt ((hsmall.trans_le hbottom).trans hnext)).le
  -- The largest numbers lie below the power of two after them.
  · have hlast : e + 53 ≤ 1075 := by
      rw [maxExponent] at hmax
      omega
    have htop := (h.lt_binade hbound).trans_le (zpow_le_zpow_right₀ one_le_two hlast)
    have := hlt (hdecade.trans_lt (htop.trans hreach))
    omega

/-- A decimal in the rounding interval of a number is read as this number. -/
theorem ofDecimal_eq_of_nearest {m digits : Nat} {e exponent : ℤ} {negative : Bool} (hm : m ≠ 0)
    (hdigits : digits ≠ 0) (hcanonical : IsCanonical (.finite negative m e))
    (h : Nearest m e (digits * 10 ^ exponent)) :
    ofDecimal negative digits exponent = .finite negative m e := by
  obtain ⟨hlow, hhigh⟩ := abs_magnitude_le hm hdigits hcanonical h
  unfold ofDecimal
  rw [decimalDigits] at hlow hhigh
  -- Neither shortcut of the reader applies: the decimal is within reach.
  simp only [hdigits, false_or, if_neg (not_lt.2 hlow), if_neg (not_lt.2 hhigh)]
  split
  · next hexponent =>
    obtain ⟨n, rfl⟩ := Int.eq_ofNat_of_zero_le hexponent
    rw [Int.toNat_natCast]
    have hpos := tenTo_pos n
    refine ofRatio_eq_of_nearest negative (Nat.mul_ne_zero hdigits hpos.ne') (by decide)
      hcanonical ?_
    convert h using 1
    simp [ratio, cast_tenTo]
  · next hexponent =>
    obtain ⟨n, hn⟩ := Int.eq_ofNat_of_zero_le (show 0 ≤ -exponent by omega)
    obtain rfl : exponent = -n := by omega
    rw [Int.neg_neg, Int.toNat_natCast]
    apply ofRatio_eq_of_nearest negative hdigits (tenTo_pos n).ne' hcanonical
    convert h using 1
    simp [ratio, cast_tenTo, div_eq_mul_inv]

end Binary64
end TypedRoutes
