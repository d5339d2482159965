import TypedRoutes.Proofs.Json.Numeral

/-!
# Numbers are read back

The layout of a number is a written numeral of the same value (`Layout.exists_numeral`). So a number
that is written as JSON is read back (`Json.Reader.atom_decimalText`, `Json.Reader.atom_floatText`).
-/

set_option autoImplicit false

namespace TypedRoutes

/-! ## The layout of a number -/

namespace Layout

/-- Trailing zeros are all that the significant digits leave out. -/
theorem exists_significantDigits_append (n : Nat) :
    ∃ zeros, significantDigits n ++ List.replicate zeros '0' = decimalDigits n := by
  have hsplit := List.takeWhile_append_dropWhile (p := (· = '0')) (l := (decimalDigits n).reverse)
  have hzeros : ∀ c ∈ (decimalDigits n).reverse.takeWhile (· = '0'), c = '0' := by
    intro c hc
    simpa using List.mem_takeWhile_imp hc
  refine ⟨((decimalDigits n).reverse.takeWhile (· = '0')).length, ?_⟩
  rw [significantDigits, ← List.reverse_replicate, ← List.eq_replicate_of_mem hzeros,
    ← List.reverse_append, hsplit, List.reverse_reverse]

/-- The significant digits of a number are a whole number and begin with no zero. -/
theorem isWhole_significantDigits {n : Nat} (hn : n ≠ 0) :
    IsWhole (significantDigits n) ∧ (significantDigits n).head? ≠ some '0' := by
  obtain ⟨zeros, hsplit⟩ := exists_significantDigits_append n
  have hwhole := isWhole_decimalDigits n
  have hvalue := digitsNumber_decimalDigits n
  rw [← hsplit] at hwhole hvalue
  have hdigits := (isDigits_append.1 hwhole.digits).1
  -- Without significant digits the number would be zero.
  cases hsignificant : significantDigits n with
  | nil =>
    rw [hsignificant, List.nil_append, digitsNumber_replicate] at hvalue
    exact absurd hvalue.symm hn
  | cons c rest =>
    rw [hsignificant] at hwhole hvalue hdigits
    have hhead : c ≠ '0' := by
      rintro rfl
      have hlone := hwhole.lone rfl
      rw [hlone] at hvalue
      exact hn (hvalue.symm.trans (by decide))
    have hne : (c :: rest).head? ≠ some '0' := fun h => hhead (Option.some.inj h)
    exact ⟨⟨hdigits, List.cons_ne_nil _ _, fun h => absurd h hne⟩, hne⟩

/-- A numeral that is no integer, of the value of some digits with some places before the point. -/
def Writes (w : WrittenNumeral) (digits : List Char) (places : Int) : Prop :=
  ¬ (w.fraction = [] ∧ w.exponent = none) ∧
    (w.digits : ℚ) * 10 ^ w.power = digitsNumber digits * 10 ^ (places - digits.length)

/-- Digits with a point before them, and zeros in between. -/
theorem exists_positional_below {digits : List Char} (h : IsWhole digits) {places : Int}
    (hplaces : places ≤ 0) :
    ∃ w : WrittenNumeral, (positional digits places).toList = w.chars ∧ Writes w digits places := by
  obtain ⟨n, hn⟩ := Int.eq_ofNat_of_zero_le (show 0 ≤ -places by omega)
  have hfraction : IsDigits (List.replicate n '0' ++ digits) :=
    isDigits_append.2 ⟨isDigits_replicate _, h.digits⟩
  have hne : List.replicate n '0' ++ digits ≠ [] := by simp [h.ne_nil]
  refine ⟨⟨['0'], List.replicate n '0' ++ digits, none, ⟨isDigits_zero, by decide, fun _ => rfl⟩,
    hfraction, by simp⟩, ?_, fun hboth => hne hboth.1, ?_⟩
  · rw [positional, if_pos hplaces, hn, Int.toNat_natCast, WrittenNumeral.chars,
      WrittenNumeral.fractionChars_of_ne_nil hne]
    simp [WrittenNumeral.exponentChars]
  · have hzero : digitsNumber ['0'] = 0 := by decide
    -- The zeros after the point count as places.
    have hpower : (0 : ℤ) - ((List.replicate n '0' ++ digits).length : Nat) =
        places - digits.length := by
      rw [List.length_append, List.length_replicate]
      push_cast
      omega
    simp only [WrittenNumeral.digits, WrittenNumeral.power, WrittenNumeral.exponentValue,
      digitsNumber_append, digitsNumber_replicate, hzero, zero_mul, zero_add, hpower]

/-- Digits before a point, and zeros in between and after it. -/
theorem exists_positional_above {digits : List Char} (h : IsWhole digits)
    (hhead : digits.head? ≠ some '0') {n : Nat} (hn : 0 < n) (hlength : digits.length ≤ n) :
    ∃ w : WrittenNumeral, (positional digits n).toList = w.chars ∧ Writes w digits n := by
  obtain ⟨zeros, rfl⟩ := Nat.exists_eq_add_of_le hlength
  obtain ⟨c, tail, rfl⟩ := List.exists_cons_of_ne_nil h.ne_nil
  have hdigits : IsDigits (c :: tail ++ List.replicate zeros '0') :=
    isDigits_append.2 ⟨h.digits, isDigits_replicate _⟩
  refine ⟨⟨c :: tail ++ List.replicate zeros '0', ['0'], none,
    ⟨hdigits, by simp, fun hzero => absurd hzero hhead⟩, isDigits_zero, by simp⟩, ?_, by simp, ?_⟩
  · rw [positional, if_neg (by omega), Int.toNat_natCast, List.take_of_length_le hlength,
      List.drop_of_length_le hlength]
    simp [WrittenNumeral.chars, WrittenNumeral.fractionChars, WrittenNumeral.exponentChars]
  · have hzero : digitsNumber ['0'] = 0 := by decide
    simp only [WrittenNumeral.digits, WrittenNumeral.power, WrittenNumeral.exponentValue,
      digitsNumber_append, digitsNumber_replicate, hzero, List.length_replicate,
      List.length_singleton, add_zero, Nat.cast_one, zero_sub]
    -- The digit after the point shifts everything by one place, and is a zero.
    rw [show (((c :: tail).length + zeros : Nat) : ℤ) - (c :: tail).length = zeros by
      push_cast
      omega]
    push_cast
    rw [zpow_natCast, zpow_neg_one]
    ring

/-- Digits with a point among them. -/
theorem exists_positional_among {digits : List Char} (h : IsWhole digits)
    (hhead : digits.head? ≠ some '0') {n : Nat} (hn : 0 < n) (hlength : n < digits.length) :
    ∃ w : WrittenNumeral, (positional digits n).toList = w.chars ∧ Writes w digits n := by
  have hsplit := List.take_append_drop n digits
  have hdigits := h.digits
  rw [← hsplit, isDigits_append] at hdigits
  have htake : (digits.take n).length = n := List.length_take_of_le hlength.le
  have hdrop : digits.drop n ≠ [] := by
    intro hnil
    have := List.drop_eq_nil_iff.1 hnil
    omega
  have hwhole : digits.take n ≠ [] := by
    intro hnil
    rw [hnil] at htake
    exact hn.ne htake
  -- The digits before the point begin as all of them do, so they are a whole number.
  have hfirst : (digits.take n).head? = digits.head? := by
    rw [List.head?_take, if_neg hn.ne']
  refine ⟨⟨digits.take n, digits.drop n, none, ⟨hdigits.1, hwhole, fun hzero => ?_⟩, hdigits.2,
    by simp⟩, ?_, fun hboth => hdrop hboth.1, ?_⟩
  · rw [hfirst] at hzero
    exact absurd hzero hhead
  · have hrest : (digits.drop n).isEmpty = false := List.isEmpty_eq_false_iff.2 hdrop
    rw [positional, if_neg (by omega), Int.toNat_natCast, WrittenNumeral.chars,
      WrittenNumeral.fractionChars_of_ne_nil hdrop]
    simp [htake, hrest, WrittenNumeral.exponentChars]
  · have hpower : (0 : ℤ) - ((digits.drop n).length : Nat) = n - digits.length := by
      rw [List.length_drop]
      push_cast [Nat.cast_sub hlength.le]
      omega
    simp only [WrittenNumeral.digits, WrittenNumeral.power, WrittenNumeral.exponentValue, hsplit,
      hpower]

/-- Digits with a point are a numeral without an exponent. -/
theorem exists_positional {digits : List Char} (h : IsWhole digits)
    (hhead : digits.head? ≠ some '0') (places : Int) :
    ∃ w : WrittenNumeral, (positional digits places).toList = w.chars ∧ Writes w digits places := by
  rcases le_or_gt places 0 with hplaces | hplaces
  · exact exists_positional_below h hplaces
  · obtain ⟨n, rfl⟩ := Int.eq_ofNat_of_zero_le hplaces.le
    have hn : 0 < n := by omega
    rcases le_or_gt digits.length n with hlength | hlength
    · exact exists_positional_above h hhead hn hlength
    · exact exists_positional_among h hhead hn hlength

/-- Digits with an exponent are a numeral with one digit before the point. -/
theorem exists_exponential (l : Layout) {digits : List Char} (h : IsWhole digits)
    (hhead : digits.head? ≠ some '0') (places : Int) :
    ∃ w : WrittenNumeral, (l.exponential digits places).toList = w.chars ∧
      Writes w digits places := by
  obtain ⟨c, tail, rfl⟩ := List.exists_cons_of_ne_nil h.ne_nil
  have hdigits : IsDigits [c] ∧ IsDigits tail := isDigits_append.1 h.digits
  generalize hexponent : decimalDigits (places - 1).natAbs = shown
  have hshown : IsDigits (List.replicate (l.exponentWidth - shown.length) '0' ++ shown) :=
    isDigits_append.2 ⟨isDigits_replicate _, hexponent ▸ isDigits_decimalDigits _⟩
  have hne : shown ≠ [] := hexponent ▸ Nat.toDigits_ne_nil
  refine ⟨⟨[c], tail, some (places - 1 < 0, List.replicate (l.exponentWidth - shown.length) '0' ++
    shown), ⟨hdigits.1, by simp, fun hzero => absurd hzero hhead⟩, hdigits.2, ?_⟩, ?_, by simp, ?_⟩
  · intro x hx
    obtain rfl := Option.some.inj hx
    exact ⟨hshown, by simp [hne]⟩
  · cases tail with
    | nil =>
      simp [exponential, exponentText, hexponent, WrittenNumeral.chars,
        WrittenNumeral.fractionChars, WrittenNumeral.exponentChars]
    | cons d rest =>
      simp [exponential, exponentText, hexponent, WrittenNumeral.chars,
        WrittenNumeral.fractionChars, WrittenNumeral.exponentChars]
  -- Zeros in front of the exponent leave its value as it is.
  · have hvalue : digitsNumber (List.replicate (l.exponentWidth - shown.length) '0' ++ shown) =
        (places - 1).natAbs := by
      rw [digitsNumber_append, digitsNumber_replicate, zero_mul, zero_add, ← hexponent,
        digitsNumber_decimalDigits]
    have hpower : (if places - 1 < 0 then -((places - 1).natAbs : ℤ) else (places - 1).natAbs) -
        tail.length = places - (c :: tail).length := by
      rw [List.length_cons, Nat.cast_add, Nat.cast_one]
      split
      · omega
      · omega
    simp only [WrittenNumeral.digits, WrittenNumeral.power, WrittenNumeral.exponentValue, hvalue,
      decide_eq_true_eq, hpower, List.singleton_append]

/-- The text of a number that is not zero is a numeral of the value of its decimal. -/
theorem exists_numeral (l : Layout) (negative : Bool) {m : Nat} (hm : m ≠ 0) (e : Int) :
    ∃ w : WrittenNumeral,
      (l.write (.finite negative m e)).toList = (if negative then ['-'] else []) ++ w.chars ∧
      ¬ (w.fraction = [] ∧ w.exponent = none) ∧
      (w.digits : ℚ) * 10 ^ w.power = (Shortest.decimal m e).value := by
  have hdigits := Shortest.decimal_digits_ne_zero (e := e) hm
  rw [write.eq_4 _ _ _ _ hm]
  generalize Shortest.decimal m e = d at *
  obtain ⟨hwhole, hhead⟩ := isWhole_significantDigits hdigits
  -- Both forms are numerals, so it does not matter which of them the layout takes.
  have hbody (places : Int) : ∃ w : WrittenNumeral,
      (if l.lowestPositional < places ∧ places ≤ l.firstExponential then
        positional (significantDigits d.digits) places
      else l.exponential (significantDigits d.digits) places).toList = w.chars ∧
        Writes w (significantDigits d.digits) places := by
    split
    · exact exists_positional hwhole hhead places
    · exact exists_exponential l hwhole hhead places
  obtain ⟨w, hw, hfloat, hvalue⟩ := hbody (d.exponent + (decimalDigits d.digits).length)
  refine ⟨w, ?_, hfloat, hvalue.trans ?_⟩
  · rw [String.toList_append, hw]
    cases negative <;> rfl
  · -- Each zero that is left out stands for a factor of ten.
    obtain ⟨zeros, hzeros⟩ := exists_significantDigits_append d.digits
    have hnumber := digitsNumber_decimalDigits d.digits
    rw [← hzeros, digitsNumber_append, digitsNumber_replicate, List.length_replicate,
      add_zero] at hnumber
    have hcast : (d.digits : ℚ) = digitsNumber (significantDigits d.digits) * 10 ^ zeros := by
      exact_mod_cast hnumber.symm
    rw [← hzeros, List.length_append, List.length_replicate, Shortest.Decimal.value, hcast,
      Nat.cast_add, show d.exponent + ((significantDigits d.digits).length + (zeros : ℤ)) -
      (significantDigits d.digits).length = d.exponent + zeros by omega,
      zpow_add₀ (by norm_num), zpow_natCast]
    ring

end Layout

/-! ## Reading written numbers -/

namespace Json

namespace Reader

/-- A word is found in front of a text exactly when the text begins with it. -/
theorem after?_eq_some_iff {word : String} {cs rest : List Char} :
    after? word cs = some rest ↔ cs = word.toList ++ rest := by
  unfold after?
  constructor
  · intro h
    split at h
    · next hprefix =>
      obtain ⟨tail, rfl⟩ := List.isPrefixOf_iff_prefix.1 hprefix
      rw [← String.length_toList, List.drop_left] at h
      rw [Option.some.inj h]
    · cases h
  · rintro rfl
    rw [if_pos (List.isPrefixOf_iff_prefix.2 (List.prefix_append _ _)), ← String.length_toList,
      List.drop_left]

theorem after?_append (word : String) (rest : List Char) :
    after? word (word.toList ++ rest) = some rest :=
  after?_eq_some_iff.2 rfl

/-- A word is not found when the first characters differ. -/
theorem after?_eq_none {word : String} {d c : Char} {others tail : List Char}
    (hword : word.toList = d :: others) (h : d ≠ c) : after? word (c :: tail) = none := by
  rw [after?, hword, List.isPrefixOf_cons_cons, beq_eq_false_iff_ne.2 h]
  rfl

/-- A text that begins with a digit, after a sign or not, begins with no word. -/
theorem findSome?_words_eq_none {c : Char} (hc : c.isDigit = true) (negative : Bool)
    (tail : List Char) :
    (words.findSome? fun (word, value) =>
      (after? word ((if negative then ['-'] else []) ++ c :: tail)).map fun left =>
        (value, left)) = none := by
  have hne (d : Char) (hd : d.isDigit = false) : d ≠ c := by
    rintro rfl
    rw [hc] at hd
    cases hd
  rw [List.findSome?_eq_none_iff]
  intro entry hentry
  rw [Option.map_eq_none_iff]
  -- Only one word begins with a sign, and behind the sign it has no digit.
  have hwords : ∀ entry ∈ words, entry.1 = "-Infinity" ∨
      ∃ d others, entry.1.toList = d :: others ∧ d.isDigit = false ∧ d ≠ '-' := by
    simp [words]
  rcases hwords entry hentry with hword | ⟨d, others, hword, hd, hminus⟩
  · rw [hword]
    cases negative
    · exact after?_eq_none (d := '-') rfl (hne _ (by decide))
    · have hinfinity : 'I' ≠ c := hne 'I' (by decide)
      simp [after?, hinfinity]
  · cases negative
    · exact after?_eq_none hword (hne d hd)
    · exact after?_eq_none hword hminus

/-- A numeral that is read without its sign is an atom together with it. -/
theorem atom_of_unsigned {negative : Bool} {w : WrittenNumeral} {rest : List Char}
    {reading : Json × List Char} (h : unsigned negative (w.chars ++ rest) = .ok (some reading)) :
    atom ((if negative then ['-'] else []) ++ (w.chars ++ rest)) = .ok reading := by
  obtain ⟨c, tail, hwhole⟩ := List.exists_cons_of_ne_nil w.isWhole.ne_nil
  have hc : c.isDigit = true := w.isWhole.digits c (by simp [hwhole])
  obtain ⟨others, hothers⟩ : ∃ others, w.chars ++ rest = c :: others := by
    rw [WrittenNumeral.chars, hwhole]
    exact ⟨_, rfl⟩
  have hminus : c ≠ '-' := by
    rintro rfl
    cases hc
  rw [hothers] at h ⊢
  unfold atom
  rw [findSome?_words_eq_none hc]
  cases negative with
  | false => simp [hminus, h]
  | true => simp only [if_true, List.singleton_append, h]

/-- A written integer is read back. -/
theorem atom_decimalText {n : Int} (hn : n.natAbs < tenTo digitLimit) {rest : List Char}
    (hrest : NumeralEnd rest) : atom ((decimalText n).toList ++ rest) = .ok (.int n, rest) := by
  have hlength : (decimalDigits n.natAbs).length ≤ digitLimit := by
    have hpos : 0 < digitLimit := by decide
    generalize digitLimit = limit at *
    rw [tenTo, Nat.pow_eq] at hn
    exact (Nat.length_toDigits_le_iff (by decide) hpos).2 hn
  -- An integer is a numeral without fraction and exponent, so it is read back as an integer.
  let w : WrittenNumeral := ⟨decimalDigits n.natAbs, [], none, isWhole_decimalDigits _,
    isDigits_nil, by simp⟩
  have htext : (decimalText n).toList = (if n < 0 then ['-'] else []) ++ w.chars := by
    unfold decimalText
    split
    · simp [w, WrittenNumeral.chars, WrittenNumeral.fractionChars, WrittenNumeral.exponentChars]
    · simp [w, WrittenNumeral.chars, WrittenNumeral.fractionChars, WrittenNumeral.exponentChars]
  have hsign : (if n < 0 then ['-'] else []) = if decide (n < 0) = true then ['-'] else [] := by
    simp
  have hvalue : (if decide (n < 0) = true then -(n.natAbs : Int) else n.natAbs) = n := by
    simp only [decide_eq_true_eq]
    split
    · omega
    · omega
  rw [htext, hsign, List.append_assoc]
  apply atom_of_unsigned
  rw [unsigned_append _ w hrest]
  simp only [w, and_self, if_true, if_neg (not_lt.2 hlength), digitsNumber_decimalDigits, hvalue]

/-- A written number that is no integer is read as some such number, and as itself if it has its
canonical shape. -/
theorem atom_floatText (x : Binary64) :
    ∃ y, (x.IsCanonical → y = x) ∧
      ∀ {rest : List Char}, NumeralEnd rest →
        atom ((floatText x).toList ++ rest) = .ok (.float y, rest) := by
  match x with
  | .nan => exact ⟨.nan, fun _ => rfl, fun _ => rfl⟩
  | .infinite true => exact ⟨.infinite true, fun _ => rfl, fun _ => rfl⟩
  | .infinite false => exact ⟨.infinite false, fun _ => rfl, fun _ => rfl⟩
  | .finite negative 0 e =>
    let w : WrittenNumeral := ⟨['0'], ['0'], none, ⟨isDigits_zero, by decide, fun _ => rfl⟩,
      isDigits_zero, by simp⟩
    have htext : (floatText (.finite negative 0 e)).toList =
        (if negative then ['-'] else []) ++ w.chars := by
      rw [floatText, Layout.write, String.toList_append]
      cases negative <;> rfl
    refine ⟨.finite negative 0 Binary64.minExponent, fun hcanonical => ?_, fun hrest => ?_⟩
    -- Zero is canonical with one exponent only, the least.
    · obtain ⟨-, -, -, hlead | hmin⟩ := hcanonical
      · exact absurd hlead (by decide)
      · rw [hmin]
    · rw [htext, List.append_assoc]
      exact atom_of_unsigned (unsigned_append negative w hrest)
  | .finite negative (m + 1) e =>
    obtain ⟨w, hw, hfloat, hvalue⟩ :=
      Layout.exists_numeral floatLayout negative (Nat.succ_ne_zero m) e
    refine ⟨.ofDecimal negative w.digits w.power, fun hcanonical => ?_, fun hrest => ?_⟩
    -- The shortest decimal lies nearest to the number, and the numeral has the same value.
    · have hreads := Shortest.reads_decimal (e := e) (Nat.succ_ne_zero m) hcanonical.1
      have hnearest := Shortest.nearest_of_reads (Nat.succ_pos m) hreads
      have hdigits : w.digits ≠ 0 := by
        intro hzero
        have := Shortest.decimal_digits_ne_zero (e := e) (Nat.succ_ne_zero m)
        rw [hzero, Nat.cast_zero, zero_mul, Shortest.Decimal.value] at hvalue
        have hten := Shortest.ten_zpow_pos (Shortest.decimal (m + 1) e).exponent
        have hcast : ((Shortest.decimal (m + 1) e).digits : ℚ) ≠ 0 := by exact_mod_cast this
        exact mul_ne_zero hcast hten.ne' hvalue.symm
      rw [← hvalue] at hnearest
      exact Binary64.ofDecimal_eq_of_nearest (Nat.succ_ne_zero m) hdigits hcanonical hnearest
    · rw [floatText, hw, List.append_assoc]
      apply atom_of_unsigned
      rw [unsigned_append _ w hrest, if_neg hfloat]

end Reader

end Json

end TypedRoutes
