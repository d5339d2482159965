import Mathlib.Algebra.Order.Field.Basic
import Mathlib.Algebra.Order.Field.Power
import Mathlib.Data.Rat.Cast.Order
import Mathlib.Tactic.FieldSimp
import Mathlib.Tactic.Linarith
import Mathlib.Tactic.Positivity
import TypedRoutes.Number.Binary64

/-!
# The nearest binary64 number

The rationals that round to a finite number form an interval, `Binary64.Nearest`: it reaches half a
step to both sides, or a quarter of a step to the lower side where the steps below are half as
long, and its ends belong to it if the significand is even. Every ratio in the interval of a number
in its canonical shape is rounded to this number (`ofRatio_eq_of_nearest`).
-/

set_option autoImplicit false

namespace TypedRoutes

theorem cast_twoTo (n : Nat) : (twoTo n : ℚ) = 2 ^ n := by
  rw [twoTo, Nat.pow_eq]
  push_cast
  rfl

theorem cast_tenTo (n : Nat) : (tenTo n : ℚ) = 10 ^ n := by
  rw [tenTo, Nat.pow_eq]
  push_cast
  rfl

theorem cast_leadingBit : (Binary64.leadingBit : ℚ) = 2 ^ (52 : ℤ) := by
  rw [Binary64.leadingBit, cast_twoTo]
  norm_cast

/-- A ratio of natural numbers as a rational. -/
def ratio (parts : Nat × Nat) : ℚ := parts.1 / parts.2

namespace Binary64

theorem two_zpow_pos (e : ℤ) : (0 : ℚ) < 2 ^ e := zpow_pos (by norm_num) e

/-! ## Ratios -/

theorem toRatio_den_pos (m : Nat) (e : ℤ) : 0 < (toRatio m e).2 := by
  unfold toRatio
  split
  · exact Nat.one_pos
  · exact twoTo_pos _

/-- The parts of a binary number have its value as their ratio. -/
theorem ratio_toRatio (m : Nat) (e : ℤ) : ratio (toRatio m e) = m * 2 ^ e := by
  unfold toRatio ratio
  split
  · next h =>
    obtain ⟨n, rfl⟩ := Int.eq_ofNat_of_zero_le h
    simp [cast_twoTo]
  · next h =>
    obtain ⟨n, hn⟩ := Int.eq_ofNat_of_zero_le (show 0 ≤ -e by omega)
    obtain rfl : e = -n := by omega
    simp [cast_twoTo, div_eq_mul_inv]

theorem scaleDown_den_pos (num : Nat) {den : Nat} (hden : 0 < den) (shift : ℤ) :
    0 < (scaleDown num den shift).2 := by
  unfold scaleDown
  split
  · exact Nat.mul_pos hden (twoTo_pos _)
  · exact hden

/-- Scaling divides the ratio by a power of two. -/
theorem ratio_scaleDown (num den : Nat) (shift : ℤ) :
    ratio (scaleDown num den shift) = ratio (num, den) / 2 ^ shift := by
  unfold scaleDown ratio
  split
  · next h =>
    obtain ⟨n, rfl⟩ := Int.eq_ofNat_of_zero_le h
    simp [cast_twoTo, div_div]
  · next h =>
    obtain ⟨n, hn⟩ := Int.eq_ofNat_of_zero_le (show 0 ≤ -shift by omega)
    obtain rfl : shift = -n := by omega
    simp [cast_twoTo, mul_div_right_comm]

/-! ## Rounding to a natural number -/

/-- The natural number is nearest to the rational, and even if another one is equally near. -/
structure RoundsTo (v : ℚ) (m : Nat) : Prop where
  low : (m : ℚ) - 1 / 2 ≤ v
  high : v ≤ (m : ℚ) + 1 / 2
  tie : v = (m : ℚ) - 1 / 2 ∨ v = (m : ℚ) + 1 / 2 → m % 2 = 0

/-- The quotient stays or goes up by one, as the remainder says. -/
theorem roundDiv_mul_add (m : Nat) {t d : Nat} (ht : t < d) :
    roundDiv (m * d + t) d = if d < 2 * t ∨ 2 * t = d ∧ m % 2 = 1 then m + 1 else m := by
  have hd : 0 < d := by omega
  have hquot : (m * d + t) / d = m := by
    rw [Nat.mul_comm, Nat.mul_add_div hd, Nat.div_eq_of_lt ht, Nat.add_zero]
  have hrem : (m * d + t) % d = t := by
    rw [Nat.mul_comm, Nat.mul_add_mod, Nat.mod_eq_of_lt ht]
  unfold roundDiv
  rw [hquot, hrem]

/-- The division that rounds gives the number that the ratio rounds to. -/
theorem roundDiv_eq {n d m : Nat} (hd : 0 < d) (h : RoundsTo (ratio (n, d)) m) :
    roundDiv n d = m := by
  have hd' : (0 : ℚ) < d := by exact_mod_cast hd
  have hvalue : ratio (n, d) * d = n := by
    rw [ratio, div_mul_cancel₀ _ hd'.ne']
  obtain ⟨hlow, hhigh, htie⟩ := h
  generalize ratio (n, d) = v at *
  -- The three bounds, with the denominator multiplied out.
  have hlow' : 2 * (m * d) ≤ 2 * n + d := by
    have : ((2 * (m * d) : Nat) : ℚ) ≤ (2 * n + d : Nat) := by push_cast; nlinarith
    exact_mod_cast this
  have hhigh' : 2 * n ≤ 2 * (m * d) + d := by
    have : ((2 * n : Nat) : ℚ) ≤ (2 * (m * d) + d : Nat) := by push_cast; nlinarith
    exact_mod_cast this
  have htieLow : 2 * (m * d) = 2 * n + d → m % 2 = 0 := by
    intro heq
    refine htie (.inl ?_)
    have : (2 : ℚ) * (m * d) = 2 * n + d := by exact_mod_cast heq
    apply mul_right_cancel₀ hd'.ne'
    linarith
  have htieHigh : 2 * n = 2 * (m * d) + d → m % 2 = 0 := by
    intro heq
    refine htie (.inr ?_)
    have : (2 : ℚ) * n = 2 * (m * d) + d := by exact_mod_cast heq
    apply mul_right_cancel₀ hd'.ne'
    linarith
  -- The quotient is `m` if the rational is at least `m`, and `m - 1` otherwise.
  by_cases hside : m * d ≤ n
  · obtain ⟨t, rfl⟩ := Nat.exists_eq_add_of_le hside
    rw [roundDiv_mul_add m (by omega)]
    exact if_neg (by omega)
  · -- The quotient is rounded up, from the number below.
    cases m with
    | zero => omega
    | succ k =>
      have hsucc : (k + 1) * d = k * d + d := Nat.succ_mul k d
      obtain ⟨t, rfl⟩ := Nat.exists_eq_add_of_le (show k * d ≤ n by omega)
      rw [roundDiv_mul_add k (by omega)]
      exact if_pos (by omega)

/-- Some natural number is nearest. -/
theorem roundDiv_near {n d : Nat} (hd : 0 < d) :
    (roundDiv n d : ℚ) - 1 / 2 ≤ ratio (n, d) ∧ ratio (n, d) ≤ (roundDiv n d : ℚ) + 1 / 2 := by
  have hd' : (0 : ℚ) < d := by exact_mod_cast hd
  have hvalue : ratio (n, d) * d = n := by
    rw [ratio, div_mul_cancel₀ _ hd'.ne']
  have hparts := Nat.div_add_mod n d
  have hrem := Nat.mod_lt n hd
  -- Both bounds are shown for natural numbers first, where the remainder decides the rounding.
  have hlow : 2 * (d * roundDiv n d) ≤ 2 * n + d := by
    unfold roundDiv
    simp only
    split
    · rw [Nat.mul_succ]; omega
    · omega
  have hhigh : 2 * n ≤ 2 * (d * roundDiv n d) + d := by
    unfold roundDiv
    simp only
    split
    · rw [Nat.mul_succ]; omega
    · omega
  have hlow' : (2 : ℚ) * (d * roundDiv n d) ≤ 2 * n + d := by exact_mod_cast hlow
  have hhigh' : (2 : ℚ) * n ≤ 2 * (d * roundDiv n d) + d := by exact_mod_cast hhigh
  constructor
  · refine le_of_mul_le_mul_right ?_ hd'
    linarith
  · refine le_of_mul_le_mul_right ?_ hd'
    linarith

/-! ## The exponent -/

/-- A positive ratio of natural numbers lies within two binades that the logarithms tell. -/
theorem ratio_mem_binades {num den : Nat} (hnum : num ≠ 0) (hden : den ≠ 0) :
    (2 : ℚ) ^ ((num.log2 : ℤ) - den.log2 - 1) ≤ ratio (num, den) ∧
      ratio (num, den) < 2 ^ ((num.log2 : ℤ) - den.log2 + 1) := by
  have hden' : (0 : ℚ) < den := by exact_mod_cast Nat.pos_of_ne_zero hden
  have hnumLow : (2 : ℚ) ^ (num.log2 : ℤ) ≤ num := by exact_mod_cast Nat.log2_self_le hnum
  have hnumHigh : (num : ℚ) < 2 ^ ((num.log2 : ℤ) + 1) := by
    exact_mod_cast Nat.lt_log2_self (n := num)
  have hdenLow : (2 : ℚ) ^ (den.log2 : ℤ) ≤ den := by exact_mod_cast Nat.log2_self_le hden
  have hdenHigh : (den : ℚ) < 2 ^ ((den.log2 : ℤ) + 1) := by
    exact_mod_cast Nat.lt_log2_self (n := den)
  rw [ratio]
  constructor
  · rw [le_div_iff₀ hden']
    -- The denominator is below the next power of two.
    calc (2 : ℚ) ^ ((num.log2 : ℤ) - den.log2 - 1) * den
        ≤ 2 ^ ((num.log2 : ℤ) - den.log2 - 1) * 2 ^ ((den.log2 : ℤ) + 1) :=
          mul_le_mul_of_nonneg_left hdenHigh.le (two_zpow_pos _).le
      _ = 2 ^ (num.log2 : ℤ) := by
          rw [← zpow_add₀ two_ne_zero]
          congr 1
          omega
      _ ≤ num := hnumLow
  · rw [div_lt_iff₀ hden']
    -- The numerator is below the next power of two.
    calc (num : ℚ) < 2 ^ ((num.log2 : ℤ) + 1) := hnumHigh
      _ = 2 ^ ((num.log2 : ℤ) - den.log2 + 1) * 2 ^ (den.log2 : ℤ) := by
          rw [← zpow_add₀ two_ne_zero]
          congr 1
          omega
      _ ≤ 2 ^ ((num.log2 : ℤ) - den.log2 + 1) * den :=
          mul_le_mul_of_nonneg_left hdenLow (two_zpow_pos _).le

/-- The exponent of a ratio is the one of its binade, or the smallest one. -/
theorem exists_exponentOfRatio {num den : Nat} (hnum : num ≠ 0) (hden : den ≠ 0) :
    ∃ exact : ℤ, exponentOfRatio num den = max exact minExponent ∧
      (2 : ℚ) ^ (exact + 52) ≤ ratio (num, den) ∧ ratio (num, den) < 2 ^ (exact + 53) := by
  obtain ⟨hlow, hhigh⟩ := ratio_mem_binades hnum hden
  have hscaled := ratio_scaleDown num den ((num.log2 : ℤ) - den.log2 - 52)
  have hpos := scaleDown_den_pos num (Nat.pos_of_ne_zero hden) ((num.log2 : ℤ) - den.log2 - 52)
  have hunfold : exponentOfRatio num den =
      max (if (scaleDown num den ((num.log2 : ℤ) - den.log2 - 52)).1 <
          leadingBit * (scaleDown num den ((num.log2 : ℤ) - den.log2 - 52)).2
        then (num.log2 : ℤ) - den.log2 - 52 - 1 else (num.log2 : ℤ) - den.log2 - 52)
        minExponent := rfl
  rw [hunfold]
  -- The guess is one too large if the ratio lies in the lower binade.
  generalize hguess : (num.log2 : ℤ) - den.log2 - 52 = guess at *
  generalize scaleDown num den guess = parts at *
  have hpos' : (0 : ℚ) < parts.2 := by exact_mod_cast hpos
  -- Is the ratio in the lower one of the two binades?
  have htest : parts.1 < leadingBit * parts.2 ↔ ratio (num, den) < 2 ^ (guess + 52) := by
    have hcast : parts.1 < leadingBit * parts.2 ↔ (parts.1 : ℚ) < leadingBit * parts.2 := by
      exact_mod_cast Iff.rfl
    rw [hcast, ← div_lt_iff₀ hpos', ← ratio, hscaled, div_lt_iff₀ (two_zpow_pos _),
      cast_leadingBit, ← zpow_add₀ two_ne_zero, add_comm]
  by_cases hlower : parts.1 < leadingBit * parts.2
  · refine ⟨guess - 1, by rw [if_pos hlower], ?_, ?_⟩
    · convert hlow using 2
      omega
    · convert htest.1 hlower using 2
      omega
  · refine ⟨guess, by rw [if_neg hlower], not_lt.1 fun h => hlower (htest.2 h), ?_⟩
    convert hhigh using 2
    omega

/-! ## The nearest number -/

/-- How far below a number, in steps, the rationals reach that round to it. Below the smallest
number of a binade the steps are half as long. -/
def lowStep (m : Nat) (e : ℤ) : ℚ := if m = leadingBit ∧ minExponent < e then 1 / 4 else 1 / 2

/-- The rational rounds to the number: it lies between the ends of its rounding interval, or on one
of them if the significand is even. -/
structure Nearest (m : Nat) (e : ℤ) (v : ℚ) : Prop where
  low : ((m : ℚ) - lowStep m e) * 2 ^ e ≤ v
  high : v ≤ ((m : ℚ) + 1 / 2) * 2 ^ e
  tie : v = ((m : ℚ) - lowStep m e) * 2 ^ e ∨ v = ((m : ℚ) + 1 / 2) * 2 ^ e → m % 2 = 0

theorem lowStep_pos (m : Nat) (e : ℤ) : 0 < lowStep m e := by
  unfold lowStep
  split
  · norm_num
  · norm_num

/-- The lower half of a step is at most one half; it is less at the beginning of a binade. -/
theorem lowStep_le (m : Nat) (e : ℤ) : lowStep m e ≤ 1 / 2 := by
  unfold lowStep
  split
  · norm_num
  · norm_num

/-- A value that is nearest to a binary number rounds to its significand in steps of its
exponent. -/
theorem Nearest.roundsTo {m : Nat} {e : ℤ} {v : ℚ} (h : Nearest m e v) :
    RoundsTo (v / 2 ^ e) m := by
  have hstep := two_zpow_pos e
  have hlow : (m : ℚ) - lowStep m e ≤ v / 2 ^ e := (le_div_iff₀ hstep).2 h.low
  have hhigh : v / 2 ^ e ≤ (m : ℚ) + 1 / 2 := (div_le_iff₀ hstep).2 h.high
  have hhalf := lowStep_le m e
  refine ⟨by linarith, hhigh, ?_⟩
  -- Half a step below is the end of the interval only where the steps below are as long.
  rintro (heq | heq)
  · have hfull : lowStep m e = 1 / 2 := by linarith
    exact h.tie (.inl (by rw [hfull, ← heq, div_mul_cancel₀ _ hstep.ne']))
  · exact h.tie (.inr (by rw [← heq, div_mul_cancel₀ _ hstep.ne']))

theorem two_zpow_add (e k : ℤ) : (2 : ℚ) ^ (e + k) = 2 ^ e * 2 ^ k := zpow_add₀ two_ne_zero e k

/-- Powers of two grow with the exponent. -/
theorem lt_of_two_zpow_lt {i j : ℤ} (h : (2 : ℚ) ^ i < 2 ^ j) : i < j :=
  (zpow_lt_zpow_iff_right₀ one_lt_two).1 h

/-- A value that is nearest to a binary number lies below the end of its binade. -/
theorem Nearest.lt_binade {m : Nat} {e : ℤ} {v : ℚ} (h : Nearest m e v)
    (hm : m < 2 * leadingBit) : v < 2 ^ (e + 53) := by
  have hstep := two_zpow_pos e
  have hhigh := h.high
  have hm' : (m : ℚ) + 1 ≤ 2 * 2 ^ (52 : ℤ) := by
    rw [← cast_leadingBit]
    exact_mod_cast hm
  rw [two_zpow_add]
  norm_num at hm' ⊢
  nlinarith

/-- Only the smallest number of a binade is nearest to rationals of the binade below. -/
theorem Nearest.eq_leadingBit {m : Nat} {e : ℤ} {v : ℚ} (h : Nearest m e v)
    (hm : leadingBit ≤ m) (hv : v < 2 ^ (e + 52)) : m = leadingBit := by
  have hstep := two_zpow_pos e
  have hlow := h.low
  have hhalf := lowStep_le m e
  rw [two_zpow_add, ← cast_leadingBit] at hv
  have hupper : (m : ℚ) < leadingBit + 1 := by nlinarith
  have hupper : m < leadingBit + 1 := by exact_mod_cast hupper
  omega

section Rounding

variable {num den m : Nat} (negative : Bool)

/-- The significand of a ratio at its exponent. A carry may leave one bit too many. -/
def significand (num den : Nat) : Nat :=
  roundDiv (scaleDown num den (exponentOfRatio num den)).1
    (scaleDown num den (exponentOfRatio num den)).2

/-- The number that a ratio is read as: a significand that rounds up to the next binade is halved,
and a number beyond the largest is infinite. -/
theorem ofRatio_eq (hnum : num ≠ 0) (hden : den ≠ 0) :
    ofRatio negative num den =
      if significand num den = 2 * leadingBit then
        if maxExponent < exponentOfRatio num den + 1 then .infinite negative
        else .finite negative leadingBit (exponentOfRatio num den + 1)
      else if maxExponent < exponentOfRatio num den then .infinite negative
      else .finite negative (significand num den) (exponentOfRatio num den) := by
  unfold ofRatio significand
  rw [if_neg (not_or.2 ⟨hnum, hden⟩)]
  dsimp only
  split
  · rfl
  · rfl

/-- The significand is the number that the ratio rounds to in steps of the exponent. -/
theorem significand_eq (hden : den ≠ 0) {e : ℤ} (hexponent : exponentOfRatio num den = e)
    (hround : RoundsTo (ratio (num, den) / 2 ^ e) m) : significand num den = m := by
  rw [significand, hexponent]
  apply roundDiv_eq (scaleDown_den_pos num (Nat.pos_of_ne_zero hden) e)
  rw [ratio_scaleDown]
  exact hround

/-- A ratio that rounds within its binade is read as the number that it rounds to. -/
theorem ofRatio_of_roundsTo (hnum : num ≠ 0) (hden : den ≠ 0) {e : ℤ}
    (hexponent : exponentOfRatio num den = e) (hround : RoundsTo (ratio (num, den) / 2 ^ e) m)
    (hm : m < 2 * leadingBit) (he : e ≤ maxExponent) :
    ofRatio negative num den = .finite negative m e := by
  rw [ofRatio_eq negative hnum hden, significand_eq hden hexponent hround, hexponent,
    if_neg hm.ne, if_neg (not_lt.2 he)]

/-- A ratio that rounds up to the next binade is read as the first number there. -/
theorem ofRatio_of_carry (hnum : num ≠ 0) (hden : den ≠ 0) {e : ℤ}
    (hexponent : exponentOfRatio num den = e)
    (hround : RoundsTo (ratio (num, den) / 2 ^ e) (2 * leadingBit)) (he : e + 1 ≤ maxExponent) :
    ofRatio negative num den = .finite negative leadingBit (e + 1) := by
  rw [ofRatio_eq negative hnum hden, significand_eq hden hexponent hround, hexponent,
    if_pos rfl, if_neg (not_lt.2 he)]

/-- A ratio of the binade below a number is rounded up to the number by a carry. -/
theorem ofRatio_of_nearest_below {e : ℤ} (hnum : num ≠ 0) (hden : den ≠ 0) (hmin : minExponent < e)
    (hmax : e ≤ maxExponent) (h : Nearest leadingBit e (ratio (num, den)))
    (hv : ratio (num, den) < 2 ^ (e + 52)) :
    ofRatio negative num den = .finite negative leadingBit e := by
  obtain ⟨exact, hexponent, hbelow, habove⟩ := exists_exponentOfRatio hnum hden
  have hpos := two_zpow_pos (e - 1)
  have hlow := h.low
  rw [show lowStep leadingBit e = 1 / 4 from if_pos ⟨rfl, hmin⟩] at hlow
  have hhalved : (2 : ℚ) ^ e = 2 ^ (e - 1) * 2 := by
    rw [← zpow_add_one₀ two_ne_zero]
    congr 1
    omega
  -- The ratio lies in the binade below, although it rounds to the first number of this one.
  have hexact : exact = e - 1 := by
    have hfirst : (2 : ℚ) ^ (e + 51) < ratio (num, den) := by
      have hstep := two_zpow_pos e
      rw [two_zpow_add]
      rw [cast_leadingBit] at hlow
      norm_num at hlow ⊢
      nlinarith
    have := lt_of_two_zpow_lt (hfirst.trans habove)
    have := lt_of_two_zpow_lt (hbelow.trans_lt hv)
    omega
  rw [two_zpow_add, ← cast_leadingBit, hhalved] at hv
  rw [hhalved] at hlow
  -- In the steps of the binade below, the number is `2 * leadingBit` steps.
  have hcarry : RoundsTo (ratio (num, den) / 2 ^ (e - 1)) (2 * leadingBit) := by
    refine ⟨?_, ?_, fun _ => Nat.mul_mod_right 2 _⟩
    · rw [le_div_iff₀ hpos]
      push_cast
      linarith
    · rw [div_le_iff₀ hpos]
      push_cast
      linarith
  have hresult := ofRatio_of_carry negative hnum hden
    (by rw [hexponent, hexact]; exact max_eq_left (by omega)) hcarry (by omega)
  rw [hresult]
  congr 1
  omega

/-- Every ratio in the rounding interval of a number is rounded to this number. -/
theorem ofRatio_eq_of_nearest {e : ℤ} (hnum : num ≠ 0) (hden : den ≠ 0)
    (hcanonical : IsCanonical (.finite negative m e)) (h : Nearest m e (ratio (num, den))) :
    ofRatio negative num den = .finite negative m e := by
  obtain ⟨hm, hmin, hmax, hlead⟩ := hcanonical
  obtain ⟨exact, hexponent, hbelow, habove⟩ := exists_exponentOfRatio hnum hden
  have hexact := lt_of_two_zpow_lt (hbelow.trans_lt (h.lt_binade hm))
  rcases hmin.eq_or_lt with hmin | hmin
  · -- All numbers with the smallest exponent have the same steps.
    refine ofRatio_of_roundsTo negative hnum hden ?_ h.roundsTo hm hmax
    rw [hexponent, ← hmin]
    exact max_eq_right (by omega)
  · have hlead : leadingBit ≤ m := by
      rcases hlead with hlead | hlead
      · exact hlead
      · omega
    -- Does the ratio lie in the binade of the number or in the one below?
    by_cases hside : (2 : ℚ) ^ (e + 52) ≤ ratio (num, den)
    · have := lt_of_two_zpow_lt (hside.trans_lt habove)
      refine ofRatio_of_roundsTo negative hnum hden ?_ h.roundsTo hm hmax
      rw [hexponent, max_eq_left (by omega)]
      omega
    · have hside := not_le.1 hside
      obtain rfl := h.eq_leadingBit hlead hside
      exact ofRatio_of_nearest_below negative hnum hden hmin hmax h hside

end Rounding

/-! ## Canonical shapes -/

theorem isCanonical_zero (negative : Bool) : IsCanonical (.finite negative 0 minExponent) :=
  ⟨by decide, le_rfl, by decide, .inr rfl⟩

/-- A ratio of at least a whole number is not rounded below it. -/
theorem le_roundDiv {n d low : Nat} (hd : 0 < d) (h : (low : ℚ) ≤ ratio (n, d)) :
    low ≤ roundDiv n d := by
  obtain ⟨-, habove⟩ := roundDiv_near (n := n) hd
  have : (low : ℚ) < roundDiv n d + 1 := by linarith
  exact Nat.lt_succ_iff.1 (by exact_mod_cast this)

/-- A ratio below a whole number is not rounded above it. -/
theorem roundDiv_le {n d high : Nat} (hd : 0 < d) (h : ratio (n, d) < high) :
    roundDiv n d ≤ high := by
  obtain ⟨hbelow, -⟩ := roundDiv_near (n := n) hd
  have : (roundDiv n d : ℚ) < high + 1 := by linarith
  exact Nat.lt_succ_iff.1 (by exact_mod_cast this)

/-- At its exponent a ratio has at most 53 bits, and as many unless the exponent is the smallest. -/
theorem significand_mem {num den : Nat} (hnum : num ≠ 0) (hden : den ≠ 0) :
    significand num den ≤ 2 * leadingBit ∧
      (leadingBit ≤ significand num den ∨ exponentOfRatio num den = minExponent) := by
  obtain ⟨exact, hexponent, hbelow, habove⟩ := exists_exponentOfRatio hnum hden
  have hpos := scaleDown_den_pos num (Nat.pos_of_ne_zero hden) (exponentOfRatio num den)
  have hscaled := ratio_scaleDown num den (exponentOfRatio num den)
  have hstep := two_zpow_pos (exponentOfRatio num den)
  have hhigh : ratio (scaleDown num den (exponentOfRatio num den)) < (2 * leadingBit : Nat) := by
    rw [hscaled, div_lt_iff₀ hstep]
    apply habove.trans_le
    push_cast
    rw [cast_leadingBit, show (2 : ℚ) * 2 ^ (52 : ℤ) = 2 ^ (53 : ℤ) by norm_num,
      ← zpow_add₀ two_ne_zero]
    apply zpow_le_zpow_right₀ one_le_two
    omega
  refine ⟨roundDiv_le hpos hhigh, ?_⟩
  -- Above the smallest exponent the first bit of the significand is set.
  rcases le_or_gt minExponent exact with hnormal | hsubnormal
  · have hexact := hexponent.trans (max_eq_left hnormal)
    refine .inl (le_roundDiv hpos ?_)
    rw [hscaled, le_div_iff₀ hstep, cast_leadingBit, ← zpow_add₀ two_ne_zero, hexact, add_comm]
    exact hbelow
  · exact .inr (hexponent.trans (max_eq_right hsubnormal.le))

/-- What is rounded from a ratio has its canonical shape. -/
theorem isCanonical_ofRatio (negative : Bool) (num den : Nat) :
    IsCanonical (ofRatio negative num den) := by
  by_cases hne : num = 0 ∨ den = 0
  · rw [ofRatio, if_pos hne]
    exact isCanonical_zero negative
  · obtain ⟨hnum, hden⟩ := not_or.1 hne
    obtain ⟨exact, hexponent, -⟩ := exists_exponentOfRatio hnum hden
    have hmin : minExponent ≤ exponentOfRatio num den := hexponent ▸ le_max_right _ _
    obtain ⟨hbound, hlead⟩ := significand_mem hnum hden
    rw [ofRatio_eq negative hnum hden]
    split
    · split
      · trivial
      · next hmax => exact ⟨by decide, by omega, not_lt.1 hmax, .inl le_rfl⟩
    · split
      · trivial
      · next hcarry hmax => exact ⟨by omega, hmin, not_lt.1 hmax, hlead⟩

/-- What is read from a decimal has its canonical shape. -/
theorem isCanonical_ofDecimal (negative : Bool) (digits : Nat) (exponent : ℤ) :
    IsCanonical (ofDecimal negative digits exponent) := by
  unfold ofDecimal
  dsimp only
  split
  · exact isCanonical_zero negative
  · split
    · trivial
    · split
      · exact isCanonical_ofRatio _ _ _
      · exact isCanonical_ofRatio _ _ _

/-- The opposite of a canonical number is canonical. -/
theorem IsCanonical.neg {x : Binary64} (h : x.IsCanonical) : x.neg.IsCanonical := by
  cases x with
  | finite negative m e => exact h
  | _ => trivial

/-- A sum is rounded, so it has its canonical shape whatever is added. -/
theorem isCanonical_add (x y : Binary64) : IsCanonical (x.add y) := by
  unfold add
  split
  · trivial
  · trivial
  · split <;> trivial
  · trivial
  · trivial
  · extract_lets low a b sum
    split
    · exact isCanonical_zero _
    · exact isCanonical_ofRatio _ _ _

end Binary64
end TypedRoutes
