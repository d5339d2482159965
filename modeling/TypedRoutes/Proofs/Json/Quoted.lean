import Mathlib.Data.List.Basic
import TypedRoutes.Json.Reader
import TypedRoutes.Json.Writer
import TypedRoutes.Proofs.Outcome

/-!
# Strings in JSON texts

A string that is written between quotes is read back (`Json.Reader.string_quoted`), whatever its
characters are and whatever follows it.
-/

set_option autoImplicit false

namespace TypedRoutes.Json.Reader

/-- The characters that are escaped by a letter. -/
theorem escaped?_letter {c e : Char} (h : (c, e) ∈ [('"', '"'), ('\\', '\\'), ('\n', 'n'),
    ('\r', 'r'), ('\t', 't'), ('\x0c', 'f'), ('\x08', 'b')]) :
    e ≠ 'u' ∧ escaped? e = some c := by
  simp only [List.mem_cons, Prod.mk.injEq, List.not_mem_nil, or_false] at h
  rcases h with ⟨rfl, rfl⟩ | ⟨rfl, rfl⟩ | ⟨rfl, rfl⟩ | ⟨rfl, rfl⟩ | ⟨rfl, rfl⟩ | ⟨rfl, rfl⟩ |
    ⟨rfl, rfl⟩
  all_goals exact ⟨by decide, by decide⟩

/-- The ways in which a character stands between quotes. -/
theorem quotedChar_cases (c : Char) :
    (∃ e, quotedChar c = ['\\', e] ∧ e ≠ 'u' ∧ escaped? e = some c) ∨
    (c.toNat < 32 ∧ quotedChar c =
      ['\\', 'u', '0', '0', hexDigit (c.toNat / 16), hexDigit (c.toNat % 16)]) ∨
    (quotedChar c = [c] ∧ c ≠ '"' ∧ c ≠ '\\' ∧ 32 ≤ c.toNat) := by
  unfold quotedChar
  split_ifs with h1 h2 h3 h4 h5 h6 h7 h8
  · exact .inl ⟨_, rfl, escaped?_letter (by simp [h1])⟩
  · exact .inl ⟨_, rfl, escaped?_letter (by simp [h2])⟩
  · exact .inl ⟨_, rfl, escaped?_letter (by simp [h3])⟩
  · exact .inl ⟨_, rfl, escaped?_letter (by simp [h4])⟩
  · exact .inl ⟨_, rfl, escaped?_letter (by simp [h5])⟩
  · exact .inl ⟨_, rfl, escaped?_letter (by simp [h6])⟩
  · exact .inl ⟨_, rfl, escaped?_letter (by simp [h7])⟩
  · exact .inr (.inl ⟨h8, rfl⟩)
  · exact .inr (.inr ⟨rfl, h1, h2, by omega⟩)

/-- The four hexadecimal digits of a control character are read back. -/
theorem hexNumber?_control : ∀ n < 32,
    Text.hexNumber? ['0', '0', hexDigit (n / 16), hexDigit (n % 16)] = some n := by
  decide

/-- One character between quotes is read as its code. -/
theorem units_quotedChar (opened : List Char) (c : Char) {rest : List Char} (hrest : rest ≠ []) :
    units opened (quotedChar c ++ rest) =
      (units opened rest).map fun (us, left) => (c.toNat :: us, left) := by
  -- Two characters, six characters, or the character itself.
  rcases quotedChar_cases c with ⟨e, hquoted, he, hescaped⟩ | ⟨hcontrol, hquoted⟩ |
    ⟨hquoted, hquote, hbackslash, hcode⟩
  · rw [hquoted]
    simp [units, he, hescaped]
  · have hempty : rest.isEmpty = false := List.isEmpty_eq_false_iff.2 hrest
    rw [hquoted]
    simp [units, hexNumber?_control _ hcontrol, hempty]
  · rw [hquoted]
    simp [units, hbackslash, Nat.not_lt.2 hcode]

/-- The units of a quoted string are the codes of its characters, whatever comes after its quote. -/
theorem units_quoted (opened : List Char) (cs rest : List Char) :
    units opened (cs.flatMap quotedChar ++ '"' :: rest) = .ok (cs.map Char.toNat, rest) := by
  induction cs with
  | nil => simp [units]
  | cons c cs ih =>
    rw [List.flatMap_cons, List.append_assoc, units_quotedChar opened c (by simp), ih]
    rfl

/-- A string is read where its code units are read and stand for characters. -/
theorem string_eq_ok_iff {cs rest : List Char} {s : String} :
    string cs = .ok (s, rest) ↔
      ∃ us text, units cs cs = .ok (us, rest) ∧ joinPairs us = .ok text ∧
        String.ofList text = s := by
  constructor
  · intro h
    obtain ⟨⟨us, left⟩, hunits, h⟩ := Outcome.bind_eq_ok.1 h
    obtain ⟨text, htext, h⟩ := Outcome.bind_eq_ok.1 h
    obtain ⟨rfl, rfl⟩ := Prod.mk.inj (Except.ok.inj h)
    exact ⟨us, text, hunits, htext, rfl⟩
  · rintro ⟨us, text, hunits, htext, rfl⟩
    exact Outcome.bind_eq_ok.2 ⟨_, hunits, Outcome.bind_eq_ok.2 ⟨_, htext, rfl⟩⟩

/-- No character is half of a pair. -/
theorem isHalf_toNat (c : Char) : isHalf c.toNat = false := by
  have hvalid := c.valid
  simp only [UInt32.isValidChar, Nat.isValidChar] at hvalid
  simp only [isHalf, Char.toNat, Bool.and_eq_false_iff, decide_eq_false_iff_not]
  omega

/-- A code that is no half begins no pair. -/
theorem pair?_eq_none {high low : Nat} (h : isHalf high = false) : pair? high low = none := by
  simp only [isHalf, Bool.and_eq_false_iff, decide_eq_false_iff_not] at h
  exact if_neg (by omega)

/-- The codes of characters stand for these characters. -/
theorem joinPairs_map_toNat (cs : List Char) : joinPairs (cs.map Char.toNat) = .ok cs := by
  induction cs with
  | nil => rfl
  | cons c cs ih =>
    have hhalf := isHalf_toNat c
    cases cs with
    | nil => simp [joinPairs, hhalf]
    | cons d cs =>
      rw [List.map_cons] at ih
      rw [List.map_cons, List.map_cons, joinPairs, pair?_eq_none hhalf]
      simp only [hhalf, if_neg Bool.false_ne_true, ih, Char.ofNat_toNat]
      rfl

/-- A string between quotes is read back. -/
theorem string_quoted (s : String) (rest : List Char) :
    string (s.toList.flatMap quotedChar ++ '"' :: rest) = .ok (s, rest) :=
  string_eq_ok_iff.2 ⟨_, _, units_quoted _ _ _, joinPairs_map_toNat _, String.ofList_toList⟩

/-- A quoted string in front of a text: the opening quote, the quoted characters and the closing
quote. -/
theorem quoted_append (s : String) (rest : List Char) :
    (quoted s).toList ++ rest = '"' :: (s.toList.flatMap quotedChar ++ '"' :: rest) := by
  simp [quoted]

end TypedRoutes.Json.Reader
