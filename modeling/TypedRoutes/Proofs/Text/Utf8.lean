import Mathlib.Data.List.Basic
import TypedRoutes.Text.Utf8

/-!
# Written texts are read back

The bytes of a text are read as the text (`Utf8.read_encode`). This is a statement about one
character: its bytes, with others behind them, are read as the character, and the others are left
(`Utf8.exists_first_eq`). The bounds on the second byte keep out what no character is written as.
-/

set_option autoImplicit false

namespace TypedRoutes.Text.Utf8

open String (utf8EncodeChar)

/-! ## Leading bytes -/

/-- The first byte of two expects one more. -/
theorem expected?_two {b : UInt8} (hlow : 0xC2 ≤ b.toNat) (hhigh : b.toNat ≤ 0xDF) :
    expected? b = some (1, 0x80, 0xBF) := by
  simp [expected?, UInt8.le_iff_toNat_le, hlow, hhigh]

/-- A leading byte of three bytes allows the second one unless that could be said in two bytes, or
is half of a pair. -/
theorem expected?_three (b second : UInt8) (hlow : 0xE0 ≤ b.toNat) (hhigh : b.toNat ≤ 0xEF)
    (hsecond : 0x80 ≤ second.toNat ∧ second.toNat ≤ 0xBF)
    (hshort : b.toNat = 0xE0 → 0xA0 ≤ second.toNat)
    (hpair : b.toNat = 0xED → second.toNat ≤ 0x9F) :
    ∃ low high, expected? b = some (2, low, high) ∧ low ≤ second ∧ second ≤ high := by
  have htwo : ¬ b.toNat ≤ 0xDF := by omega
  by_cases hE0 : b.toNat = 0xE0
  · refine ⟨0xA0, 0xBF, ?_, ?_, ?_⟩
    · simp [expected?, UInt8.le_iff_toNat_le, ← UInt8.toNat_inj, hE0]
    · simpa [UInt8.le_iff_toNat_le] using hshort hE0
    · simpa [UInt8.le_iff_toNat_le] using hsecond.2
  · by_cases hED : b.toNat = 0xED
    · refine ⟨0x80, 0x9F, ?_, ?_, ?_⟩
      · simp [expected?, UInt8.le_iff_toNat_le, ← UInt8.toNat_inj, hED]
      · simpa [UInt8.le_iff_toNat_le] using hsecond.1
      · simpa [UInt8.le_iff_toNat_le] using hpair hED
    · refine ⟨0x80, 0xBF, ?_, ?_, ?_⟩
      · have hE1 : 0xE1 ≤ b.toNat := by omega
        simp [expected?, UInt8.le_iff_toNat_le, ← UInt8.toNat_inj, hE0, hED, htwo, hE1, hhigh]
      · simpa [UInt8.le_iff_toNat_le] using hsecond.1
      · simpa [UInt8.le_iff_toNat_le] using hsecond.2

/-- A leading byte of four bytes allows the second one unless that could be said in three bytes, or
is beyond the last character. -/
theorem expected?_four (b second : UInt8) (hlow : 0xF0 ≤ b.toNat) (hhigh : b.toNat ≤ 0xF4)
    (hsecond : 0x80 ≤ second.toNat ∧ second.toNat ≤ 0xBF)
    (hshort : b.toNat = 0xF0 → 0x90 ≤ second.toNat)
    (hlast : b.toNat = 0xF4 → second.toNat ≤ 0x8F) :
    ∃ low high, expected? b = some (3, low, high) ∧ low ≤ second ∧ second ≤ high := by
  have htwo : ¬ b.toNat ≤ 0xDF := by omega
  have hthree : ¬ b.toNat ≤ 0xEF := by omega
  have hE0 : b.toNat ≠ 0xE0 := by omega
  have hED : b.toNat ≠ 0xED := by omega
  -- The first and the last leading byte narrow the range of the second byte.
  by_cases hF0 : b.toNat = 0xF0
  · refine ⟨0x90, 0xBF, ?_, ?_, ?_⟩
    · simp [expected?, UInt8.le_iff_toNat_le, ← UInt8.toNat_inj, hF0]
    · simpa [UInt8.le_iff_toNat_le] using hshort hF0
    · simpa [UInt8.le_iff_toNat_le] using hsecond.2
  · by_cases hF4 : b.toNat = 0xF4
    · refine ⟨0x80, 0x8F, ?_, ?_, ?_⟩
      · simp [expected?, UInt8.le_iff_toNat_le, ← UInt8.toNat_inj, hF4]
      · simpa [UInt8.le_iff_toNat_le] using hsecond.1
      · simpa [UInt8.le_iff_toNat_le] using hlast hF4
    · refine ⟨0x80, 0xBF, ?_, ?_, ?_⟩
      · have hF1 : 0xF1 ≤ b.toNat := by omega
        have hF3 : b.toNat ≤ 0xF3 := by omega
        simp [expected?, UInt8.le_iff_toNat_le, ← UInt8.toNat_inj, hE0, hED, hF0, hF4, htwo, hthree,
          hF1, hF3]
      · simpa [UInt8.le_iff_toNat_le] using hsecond.1
      · simpa [UInt8.le_iff_toNat_le] using hsecond.2

/-! ## Characters -/

/-- The byte that continues a character with six bits. -/
def continuation (bits : Nat) : UInt8 := UInt8.ofNat (bits % 64 + 128)

@[simp] theorem toNat_continuation (bits : Nat) : (continuation bits).toNat = bits % 64 + 128 := by
  rw [continuation, UInt8.toNat_ofNat']
  omega

/-- A byte that continues a character is taken as one. -/
theorem continuations_continuation (wanted bits : Nat) (rest : List UInt8) :
    continuations 0x80 0xBF (wanted + 1) (continuation bits :: rest) =
      continuation bits :: continuations 0x80 0xBF wanted rest := by
  have hrange : 0x80 ≤ continuation bits ∧ continuation bits ≤ 0xBF := by
    simp [UInt8.le_iff_toNat_le]
    omega
  simp [continuations, hrange]

/-- The second byte of a character is in a range of its own. -/
theorem continuations_cons {low high second : UInt8} (hlow : low ≤ second) (hhigh : second ≤ high)
    (wanted : Nat) (rest : List UInt8) :
    continuations low high (wanted + 1) (second :: rest) =
      second :: continuations 0x80 0xBF wanted rest := by
  simp [continuations, hlow, hhigh]

/-- A character is read from its first byte and the bytes that continue it. -/
theorem first_eq {b low high : UInt8} {bytes tail : List UInt8} (hb : 0x80 ≤ b.toNat)
    (hexpected : expected? b = some (bytes.length, low, high))
    (hfound : continuations low high bytes.length (bytes ++ tail) = bytes) :
    first b (bytes ++ tail) = .ok
      (Char.ofNat (bytes.foldl (fun n x => n * 64 + (x.toNat - 0x80)) (leadingBits b)), tail) := by
  have hnot : ¬ b < 0x80 := by
    rw [UInt8.lt_iff_toNat_lt]
    exact Nat.not_lt.2 hb
  simp only [first, if_neg hnot, hexpected, hfound, if_true, List.drop_left]

theorem leadingBits_eq (b : UInt8) :
    leadingBits b =
      if b.toNat < 0xE0 then b.toNat - 0xC0
      else if b.toNat < 0xF0 then b.toNat - 0xE0 else b.toNat - 0xF0 := by
  simp [leadingBits, UInt8.lt_iff_toNat_lt]

theorem toNat_ofNat_of_lt {n : Nat} (h : n < 256) : (UInt8.ofNat n).toNat = n := by
  rw [UInt8.toNat_ofNat']
  exact Nat.mod_eq_of_lt h

/-! ## Characters of several bytes -/

section

variable {b : UInt8} {v : Nat} (tail : List UInt8)

theorem first_two (hb : b.toNat = v / 64 % 32 + 192) (hlow : 0x80 ≤ v) (hhigh : v ≤ 0x7FF) :
    first b ([continuation v] ++ tail) = .ok (Char.ofNat v, tail) := by
  have hexpected := expected?_two (b := b) (by omega) (by omega)
  have hfound : continuations 0x80 0xBF 1 ([continuation v] ++ tail) = [continuation v] :=
    continuations_continuation 0 v tail
  have hvalue : leadingBits b * 64 + v % 64 = v := by
    rw [leadingBits_eq, hb, if_pos (by omega)]
    omega
  rw [first_eq (by omega) hexpected hfound]
  simp only [List.foldl_cons, List.foldl_nil, toNat_continuation, Nat.add_sub_cancel, hvalue]

/-- A character of three bytes is read back, the halves of pairs excepted. -/
theorem first_three (hb : b.toNat = v / 4096 % 16 + 224) (hlow : 0x800 ≤ v) (hhigh : v ≤ 0xFFFF)
    (hpair : v < 0xD800 ∨ 0xDFFF < v) :
    first b ([continuation (v / 64), continuation v] ++ tail) = .ok (Char.ofNat v, tail) := by
  have hsecond := toNat_continuation (v / 64)
  obtain ⟨low, high, hexpected, hfirst, hlast⟩ := expected?_three b (continuation (v / 64))
    (by omega) (by omega) (by omega) (by omega) (by omega)
  have hfound : continuations low high 2 ([continuation (v / 64), continuation v] ++ tail) =
      [continuation (v / 64), continuation v] := by
    rw [List.cons_append, continuations_cons hfirst hlast]
    exact congrArg _ (continuations_continuation 0 v tail)
  have hvalue : (leadingBits b * 64 + v / 64 % 64) * 64 + v % 64 = v := by
    rw [leadingBits_eq, hb, if_neg (by omega), if_pos (by omega)]
    omega
  rw [first_eq (by omega) hexpected hfound]
  simp only [List.foldl_cons, List.foldl_nil, toNat_continuation, Nat.add_sub_cancel, hvalue]

theorem first_four (hb : b.toNat = v / 262144 % 8 + 240) (hlow : 0x10000 ≤ v)
    (hhigh : v ≤ 0x10FFFF) :
    first b ([continuation (v / 4096), continuation (v / 64), continuation v] ++ tail) =
      .ok (Char.ofNat v, tail) := by
  have hsecond := toNat_continuation (v / 4096)
  obtain ⟨low, high, hexpected, hfirst, hlast⟩ := expected?_four b (continuation (v / 4096))
    (by omega) (by omega) (by omega) (by omega) (by omega)
  have hfound : continuations low high 3
      ([continuation (v / 4096), continuation (v / 64), continuation v] ++ tail) =
        [continuation (v / 4096), continuation (v / 64), continuation v] := by
    rw [List.cons_append, continuations_cons hfirst hlast, List.cons_append,
      continuations_continuation]
    exact congrArg _ (congrArg _ (continuations_continuation 0 v tail))
  have hvalue : ((leadingBits b * 64 + v / 4096 % 64) * 64 + v / 64 % 64) * 64 + v % 64 = v := by
    rw [leadingBits_eq, hb, if_neg (by omega), if_neg (by omega)]
    omega
  rw [first_eq (by omega) hexpected hfound]
  simp only [List.foldl_cons, List.foldl_nil, toNat_continuation, Nat.add_sub_cancel, hvalue]

end

/-! ## Texts -/

/-- The bytes of a character are read as the character. -/
theorem exists_first_eq (c : Char) (tail : List UInt8) :
    ∃ b bytes, utf8EncodeChar c = b :: bytes ∧ first b (bytes ++ tail) = .ok (c, tail) := by
  have hvalid := c.valid
  have hchar : Char.ofNat c.val.toNat = c := Char.ofNat_toNat c
  simp only [UInt32.isValidChar, Nat.isValidChar] at hvalid
  unfold utf8EncodeChar
  generalize c.val.toNat = v at hvalid hchar
  subst hchar
  dsimp only
  split
  · have hv : (UInt8.ofNat v).toNat = v := toNat_ofNat_of_lt (by omega)
    have hless : UInt8.ofNat v < 0x80 := by
      rw [UInt8.lt_iff_toNat_lt, hv]
      exact Nat.lt_succ_of_le ‹v ≤ 127›
    refine ⟨UInt8.ofNat v, [], rfl, ?_⟩
    rw [first, if_pos hless, hv]
    rfl
  · split
    · exact ⟨_, _, rfl, first_two tail (toNat_ofNat_of_lt (by omega)) (by omega) (by omega)⟩
    · split
      · exact ⟨_, _, rfl,
          first_three tail (toNat_ofNat_of_lt (by omega)) (by omega) (by omega) (by omega)⟩
      · exact ⟨_, _, rfl,
          first_four tail (toNat_ofNat_of_lt (by omega)) (by omega) (by omega)⟩

/-- Encoded characters are decoded one after the other, by induction on the characters. -/
theorem decodeWithin_flatMap {fuel : Nat} {cs : List Char} (hfuel : cs.length ≤ fuel) :
    decodeWithin fuel (cs.flatMap utf8EncodeChar) = .ok cs := by
  induction cs generalizing fuel with
  | nil =>
    rw [List.flatMap_nil, decodeWithin]
  | cons c rest ih =>
    obtain ⟨fuel, rfl⟩ := Nat.exists_eq_add_of_le' (show 1 ≤ fuel by simp at hfuel; omega)
    obtain ⟨b, bytes, hbytes, hfirst⟩ := exists_first_eq c (rest.flatMap utf8EncodeChar)
    have hrest := ih (show rest.length ≤ fuel by simpa using hfuel)
    rw [List.flatMap_cons, hbytes, List.cons_append, decodeWithin, hfirst]
    simp only [bind, Except.bind, hrest]
    rfl

theorem encode_eq (text : String) : encode text = text.toList.flatMap utf8EncodeChar := by
  rw [encode, String.toUTF8_eq_toByteArray, ← String.utf8Encode_toList, List.utf8Encode,
    List.toList_data_toByteArray]

/-- The bytes of a text are read as the text. -/
theorem read_encode (text : String) : read (encode text) = .ok text := by
  have hfuel : text.toList.length ≤ (text.toList.flatMap utf8EncodeChar).length := by
    induction text.toList with
    | nil => exact Nat.le_refl _
    | cons c rest ih =>
      have hne := List.length_pos_of_ne_nil (String.utf8EncodeChar_ne_nil (c := c))
      rw [List.flatMap_cons, List.length_append, List.length_cons]
      omega
  rw [read, decode, encode_eq, decodeWithin_flatMap hfuel]
  simp only [String.ofList_toList]

end TypedRoutes.Text.Utf8
