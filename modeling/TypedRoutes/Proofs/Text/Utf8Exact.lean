import TypedRoutes.Proofs.Outcome
import TypedRoutes.Proofs.Text.Utf8

/-!
# Texts are read from their own bytes only

Bytes that are read as a text are the bytes of the text (`Utf8.read_eq_ok_iff`), so bytes are
refused exactly if they are those of no text (`Utf8.exists_read_eq_error_iff`). As for what is
written, this is a statement about one character: the bytes that are read as it are its own
(`Utf8.eq_append_of_first`).
-/

set_option autoImplicit false

namespace TypedRoutes.Text.Utf8

open String (utf8EncodeChar)

/-! ## Leading bytes -/

/-- What a leading byte says of the bytes that follow it. -/
inductive Leads (b : UInt8) : Nat → UInt8 → UInt8 → Prop
  | two : 0xC2 ≤ b.toNat → b.toNat ≤ 0xDF → Leads b 1 0x80 0xBF
  | three {low high : UInt8} : 0xE0 ≤ b.toNat → b.toNat ≤ 0xEF → 0x80 ≤ low.toNat →
      high.toNat ≤ 0xBF → (b.toNat = 0xE0 → 0xA0 ≤ low.toNat) →
        (b.toNat = 0xED → high.toNat ≤ 0x9F) → Leads b 2 low high
  | four {low high : UInt8} : 0xF0 ≤ b.toNat → b.toNat ≤ 0xF4 → 0x80 ≤ low.toNat →
      high.toNat ≤ 0xBF → (b.toNat = 0xF0 → 0x90 ≤ low.toNat) →
        (b.toNat = 0xF4 → high.toNat ≤ 0x8F) → Leads b 3 low high

/-- A byte that expects others leads characters of that many bytes. -/
theorem leads_of_expected? {b low high : UInt8} {wanted : Nat}
    (h : expected? b = some (wanted, low, high)) : Leads b wanted low high := by
  simp only [expected?, Bool.and_eq_true, decide_eq_true_eq, UInt8.le_iff_toNat_le,
    ← UInt8.toNat_inj, UInt8.reduceToNat] at h
  split at h
  · cases h
    exact .two (by omega) (by omega)
  repeat' split at h
  all_goals cases h
  -- The three ranges of leading bytes of three bytes, and then those of four.
  iterate 3
    exact .three (by omega) (by omega) (by decide) (by decide) (by simp <;> omega)
      (by simp <;> omega)
  iterate 3
    exact .four (by omega) (by omega) (by decide) (by decide) (by simp <;> omega)
      (by simp <;> omega)

/-! ## Continuation bytes -/

/-- Where all continuation bytes that are wanted are found, the first of them is in its range, and
so are the others. -/
theorem exists_cons_of_length_continuations {low high : UInt8} {wanted : Nat} {bytes : List UInt8}
    (h : (continuations low high (wanted + 1) bytes).length = wanted + 1) :
    ∃ x rest, bytes = x :: rest ∧ low.toNat ≤ x.toNat ∧ x.toNat ≤ high.toNat ∧
      continuations low high (wanted + 1) bytes = x :: continuations 0x80 0xBF wanted rest ∧
        (continuations 0x80 0xBF wanted rest).length = wanted := by
  cases bytes with
  | nil => cases h
  | cons x rest =>
    rw [continuations] at h ⊢
    split at h
    · next hrange =>
      rw [if_pos hrange]
      simp only [Bool.and_eq_true, decide_eq_true_eq, UInt8.le_iff_toNat_le] at hrange
      exact ⟨x, rest, rfl, hrange.1, hrange.2, rfl, Nat.succ.inj h⟩
    · cases h

/-! ## Characters -/

theorem toNat_val_ofNat {v : Nat} (h : v.isValidChar) : (Char.ofNat v).val.toNat = v := by
  rw [Char.ofNat, dif_pos h]
  rfl

theorem utf8EncodeChar_one {b : UInt8} (h : b.toNat < 0x80) :
    utf8EncodeChar (Char.ofNat b.toNat) = [b] := by
  rw [utf8EncodeChar, toNat_val_ofNat (.inl (by omega))]
  rw [if_pos (by omega), UInt8.ofNat_toNat]

section

variable {b x y z : UInt8}

theorem utf8EncodeChar_two (hb : 0xC2 ≤ b.toNat ∧ b.toNat ≤ 0xDF)
    (hx : 0x80 ≤ x.toNat ∧ x.toNat ≤ 0xBF) :
    utf8EncodeChar (Char.ofNat ((b.toNat - 0xC0) * 64 + (x.toNat - 0x80))) = [b, x] := by
  rw [utf8EncodeChar, toNat_val_ofNat (.inl (by omega))]
  rw [if_neg (by omega), if_pos (by omega)]
  simp only [List.cons.injEq, ← UInt8.toNat_inj, UInt8.toNat_ofNat', and_true]
  omega

theorem utf8EncodeChar_three (hb : 0xE0 ≤ b.toNat ∧ b.toNat ≤ 0xEF)
    (hx : 0x80 ≤ x.toNat ∧ x.toNat ≤ 0xBF) (hshort : b.toNat = 0xE0 → 0xA0 ≤ x.toNat)
    (hpair : b.toNat = 0xED → x.toNat ≤ 0x9F) (hy : 0x80 ≤ y.toNat ∧ y.toNat ≤ 0xBF) :
    utf8EncodeChar
      (Char.ofNat (((b.toNat - 0xE0) * 64 + (x.toNat - 0x80)) * 64 + (y.toNat - 0x80))) =
        [b, x, y] := by
  have hvalid :
      (((b.toNat - 0xE0) * 64 + (x.toNat - 0x80)) * 64 + (y.toNat - 0x80)).isValidChar := by
    rw [Nat.isValidChar]
    omega
  rw [utf8EncodeChar, toNat_val_ofNat hvalid]
  rw [if_neg (by omega), if_neg (by omega), if_pos (by omega)]
  simp only [List.cons.injEq, ← UInt8.toNat_inj, UInt8.toNat_ofNat', and_true]
  omega

theorem utf8EncodeChar_four (hb : 0xF0 ≤ b.toNat ∧ b.toNat ≤ 0xF4)
    (hx : 0x80 ≤ x.toNat ∧ x.toNat ≤ 0xBF) (hshort : b.toNat = 0xF0 → 0x90 ≤ x.toNat)
    (hlast : b.toNat = 0xF4 → x.toNat ≤ 0x8F) (hy : 0x80 ≤ y.toNat ∧ y.toNat ≤ 0xBF)
    (hz : 0x80 ≤ z.toNat ∧ z.toNat ≤ 0xBF) :
    utf8EncodeChar
      (Char.ofNat ((((b.toNat - 0xF0) * 64 + (x.toNat - 0x80)) * 64 + (y.toNat - 0x80)) * 64 +
        (z.toNat - 0x80))) = [b, x, y, z] := by
  have hvalid : ((((b.toNat - 0xF0) * 64 + (x.toNat - 0x80)) * 64 + (y.toNat - 0x80)) * 64 +
      (z.toNat - 0x80)).isValidChar := by
    rw [Nat.isValidChar]
    omega
  rw [utf8EncodeChar, toNat_val_ofNat hvalid]
  rw [if_neg (by omega), if_neg (by omega), if_neg (by omega)]
  simp only [List.cons.injEq, ← UInt8.toNat_inj, UInt8.toNat_ofNat', and_true]
  omega

end

/-- The bytes that are read as a character are its own. -/
theorem eq_append_of_first {b : UInt8} {rest left : List UInt8} {c : Char}
    (h : first b rest = .ok (c, left)) : b :: rest = utf8EncodeChar c ++ left := by
  rw [first] at h
  split at h
  · next hone =>
    cases h
    rw [utf8EncodeChar_one (UInt8.lt_iff_toNat_lt.1 hone), List.singleton_append]
  split at h
  · cases h
  next wanted low high hexpected =>
  dsimp only at h
  split at h
  swap
  · cases h
  next hlength =>
  cases h
  -- The cases follow the number of bytes; each byte behind the first gives its six bits back.
  cases leads_of_expected? hexpected with
  | two hmin hmax =>
    obtain ⟨x, rest, rfl, hx, hx', hfound, -⟩ := exists_cons_of_length_continuations hlength
    rw [hfound, continuations, List.foldl_cons, List.foldl_nil, leadingBits_eq, if_pos (by omega),
      utf8EncodeChar_two ⟨hmin, hmax⟩ ⟨hx, hx'⟩]
    rfl
  | three hmin hmax hlow hhigh hshort hpair =>
    obtain ⟨x, rest, rfl, hx, hx', hfound, hlength⟩ := exists_cons_of_length_continuations hlength
    obtain ⟨y, rest, rfl, hy, hy', hfound', -⟩ := exists_cons_of_length_continuations hlength
    rw [hfound, hfound', continuations, List.foldl_cons, List.foldl_cons, List.foldl_nil,
      leadingBits_eq, if_neg (by omega), if_pos (by omega), utf8EncodeChar_three ⟨hmin, hmax⟩
        ⟨by omega, by omega⟩ (by omega) (by omega) ⟨hy, hy'⟩]
    rfl
  | four hmin hmax hlow hhigh hshort hlast =>
    obtain ⟨x, rest, rfl, hx, hx', hfound, hlength⟩ := exists_cons_of_length_continuations hlength
    obtain ⟨y, rest, rfl, hy, hy', hfound', hlength⟩ := exists_cons_of_length_continuations hlength
    obtain ⟨z, rest, rfl, hz, hz', hfound'', -⟩ := exists_cons_of_length_continuations hlength
    rw [hfound, hfound', hfound'', continuations, List.foldl_cons, List.foldl_cons, List.foldl_cons,
      List.foldl_nil, leadingBits_eq, if_neg (by omega), if_neg (by omega),
      utf8EncodeChar_four ⟨hmin, hmax⟩ ⟨by omega, by omega⟩ (by omega) (by omega) ⟨hy, hy'⟩
        ⟨hz, hz'⟩]
    rfl

/-! ## Texts -/

/-- Bytes that are decoded are the encoding of what they are decoded to, by induction on the
fuel. -/
theorem eq_flatMap_of_decodeWithin {fuel : Nat} {bytes : List UInt8} {cs : List Char}
    (hfuel : bytes.length ≤ fuel) (h : decodeWithin fuel bytes = .ok cs) :
    bytes = cs.flatMap utf8EncodeChar := by
  induction fuel generalizing bytes cs with
  | zero =>
    obtain rfl := List.eq_nil_of_length_eq_zero (Nat.le_zero.1 hfuel)
    rw [decodeWithin] at h
    obtain rfl := Except.ok.inj h
    rfl
  | succ fuel ih =>
    cases bytes with
    | nil =>
      rw [decodeWithin] at h
      obtain rfl := Except.ok.inj h
      rfl
    | cons b rest =>
      rw [decodeWithin] at h
      obtain ⟨⟨c, left⟩, hfirst, h⟩ := Outcome.bind_eq_ok.1 h
      obtain ⟨cs, hrest, h⟩ := Outcome.bind_eq_ok.1 h
      obtain rfl := Except.ok.inj h
      have hbytes := eq_append_of_first hfirst
      -- A character takes a byte at least, so the fuel lasts for the others.
      have hleft : left.length ≤ fuel := by
        have hlength := congrArg List.length hbytes
        have hpos := List.length_pos_of_ne_nil (String.utf8EncodeChar_ne_nil (c := c))
        rw [List.length_append, List.length_cons] at hlength
        rw [List.length_cons] at hfuel
        omega
      rw [hbytes, ih hleft hrest, List.flatMap_cons]

/-- Bytes are read as a text exactly if they are the bytes of the text. -/
theorem read_eq_ok_iff {bytes : List UInt8} {text : String} :
    read bytes = .ok text ↔ encode text = bytes := by
  constructor
  · intro h
    rw [read] at h
    split at h
    · next cs hcs =>
      obtain rfl := Except.ok.inj h
      rw [encode_eq, String.toList_ofList]
      exact (eq_flatMap_of_decodeWithin (Nat.le_refl _) hcs).symm
    · cases h
  · rintro rfl
    exact read_encode text

/-- Bytes are refused exactly if they are those of no text. -/
theorem exists_read_eq_error_iff {bytes : List UInt8} :
    (∃ misfit, read bytes = .error misfit) ↔ ∀ text, encode text ≠ bytes := by
  rw [Outcome.exists_error_iff, not_exists]
  exact forall_congr' fun text => not_congr read_eq_ok_iff

end TypedRoutes.Text.Utf8
