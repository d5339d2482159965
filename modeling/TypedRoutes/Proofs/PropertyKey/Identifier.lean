import Mathlib.Computability.Language
import TypedRoutes.Proofs.PropertyKey

/-!
# Identifiers

A key stands bare exactly if it is an identifier: one of the words `[A-Za-z_$][A-Za-z0-9_$]*`, in
which only ASCII characters occur (`isPlain_iff_mem_identifiers`). Every other key stands between
quotes.

So a scanner tells the two forms apart by the first character, and reads either back to the key
whatever follows it, which makes the written form of a key its own
(`text_reads_back_uniquely`).
-/

set_option autoImplicit false

namespace TypedRoutes.PropertyKey

open Computability

/-! ## The language of identifiers -/

/-- The characters that an identifier begins with. -/
def IsLeadChar (c : Char) : Prop :=
  ('A' ≤ c ∧ c ≤ 'Z') ∨ ('a' ≤ c ∧ c ≤ 'z') ∨ c = '_' ∨ c = '$'

/-- The characters that an identifier goes on with. -/
def IsWordChar (c : Char) : Prop := IsLeadChar c ∨ ('0' ≤ c ∧ c ≤ '9')

instance : DecidablePred IsLeadChar := fun _ => inferInstanceAs (Decidable (_ ∨ _))

instance : DecidablePred IsWordChar := fun _ => inferInstanceAs (Decidable (_ ∨ _))

/-- The words of one character of a class. -/
def oneOf (p : Char → Prop) : Language Char := {word | ∃ c, p c ∧ word = [c]}

/-- The identifiers: a character to begin with, and any number of characters after it. -/
def identifiers : Language Char := oneOf IsLeadChar * (oneOf IsWordChar)∗

/-- The words over a set of characters are those with every character in the set. -/
theorem mem_kstar_oneOf {p : Char → Prop} {word : List Char} :
    word ∈ (oneOf p)∗ ↔ ∀ c ∈ word, p c := by
  rw [Language.mem_kstar]
  constructor
  · rintro ⟨parts, rfl, hparts⟩ c hc
    obtain ⟨part, hpart, hc⟩ := List.mem_flatten.1 hc
    obtain ⟨d, hd, rfl⟩ := hparts part hpart
    rwa [List.mem_singleton.1 hc]
  · intro h
    refine ⟨word.map fun c => [c], ?_, ?_⟩
    · rw [← List.flatMap_def, List.flatMap_singleton']
    · rw [List.forall_mem_map]
      exact fun c hc => ⟨c, h c hc, rfl⟩

/-- An identifier is a leading character followed by characters of a word. -/
theorem mem_identifiers {word : List Char} :
    word ∈ identifiers ↔ ∃ c rest, word = c :: rest ∧ IsLeadChar c ∧ ∀ d ∈ rest, IsWordChar d := by
  rw [identifiers, Language.mem_mul]
  constructor
  · rintro ⟨_, ⟨c, hc, rfl⟩, rest, hrest, rfl⟩
    exact ⟨c, rest, rfl, hc, mem_kstar_oneOf.1 hrest⟩
  · rintro ⟨c, rest, rfl, hc, hrest⟩
    exact ⟨[c], ⟨c, hc, rfl⟩, rest, mem_kstar_oneOf.2 hrest, rfl⟩

/-! ## Keys that stand bare -/

theorem isDigit_iff (c : Char) : c.isDigit = true ↔ '0' ≤ c ∧ c ≤ '9' := by
  simp only [Char.isDigit, Bool.and_eq_true, decide_eq_true_eq]
  exact Iff.rfl

theorem isAlpha_iff (c : Char) :
    c.isAlpha = true ↔ ('A' ≤ c ∧ c ≤ 'Z') ∨ ('a' ≤ c ∧ c ≤ 'z') := by
  have hupper : c.isUpper = true ↔ 'A' ≤ c ∧ c ≤ 'Z' := decide_eq_true_iff
  have hlower : c.isLower = true ↔ 'a' ≤ c ∧ c ≤ 'z' :=
    Bool.and_eq_true_iff.trans (and_congr decide_eq_true_iff decide_eq_true_iff)
  exact Bool.or_eq_true_iff.trans (or_congr hupper hlower)

/-- The characters of a name are those of a word. -/
theorem isNameChar_iff (c : Char) : isNameChar c = true ↔ IsWordChar c := by
  simp only [isNameChar, Char.isAlphanum, Bool.or_eq_true, decide_eq_true_eq, isAlpha_iff,
    isDigit_iff, IsWordChar, IsLeadChar]
  tauto

/-- No identifier begins with a digit. -/
theorem isDigit_eq_false_of_isLeadChar {c : Char} (h : IsLeadChar c) : c.isDigit = false := by
  have hnotLetter (first : Char) (hfirst : ¬ first ≤ '9') (hle : first ≤ c) :
      c.isDigit = false := by
    rw [← Bool.not_eq_true, isDigit_iff]
    exact fun hdigit => hfirst (Char.le_trans hle hdigit.2)
  rcases h with hupper | hlower | rfl | rfl
  · exact hnotLetter 'A' (by decide) hupper.1
  · exact hnotLetter 'a' (by decide) hlower.1
  · decide
  · decide

/-- A key stands bare if it is an identifier. -/
theorem isPlain_iff_mem_identifiers (key : List Char) :
    isPlain key = true ↔ key ∈ identifiers := by
  rw [mem_identifiers]
  cases key with
  | nil => simp [isPlain]
  | cons c rest =>
    simp only [isPlain, Bool.and_eq_true, Bool.not_eq_true', List.all_eq_true, isNameChar_iff]
    constructor
    · rintro ⟨⟨hdigit, hc⟩, hrest⟩
      refine ⟨c, rest, rfl, ?_, hrest⟩
      rcases hc with hc | hc
      · exact hc
      · rw [← isDigit_iff, hdigit] at hc
        cases hc
    · rintro ⟨d, tail, heq, hd, htail⟩
      obtain ⟨rfl, rfl⟩ := List.cons.inj heq
      exact ⟨⟨isDigit_eq_false_of_isLeadChar hd, .inl hd⟩, htail⟩

example : isPlain "users".toList = true ∧ isPlain "users\n".toList = false ∧
    isPlain "é1".toList = false ∧ isPlain [] = false := by decide

/-- A text that does not go on with an identifier. -/
def EndsWord (rest : List Char) : Prop := ∀ c ∈ rest.head?, ¬ IsWordChar c

instance : ∀ rest : List Char, Decidable (EndsWord rest)
  | [] => isTrue nofun
  | c :: _ => decidable_of_iff (¬ IsWordChar c) (by simp [EndsWord])

theorem EndsWord.stops {rest : List Char} (h : EndsWord rest) : Text.Stops isNameChar rest := by
  intro c hc
  rw [← Bool.not_eq_true, isNameChar_iff]
  exact h c hc

/-! ## The written form of a key -/

/-- No escape shortens a key. -/
theorem length_le_length_flatMap_escapedChar (key : List Char) :
    key.length ≤ (key.flatMap escapedChar).length := by
  induction key with
  | nil => exact Nat.le_refl 0
  | cons c key ih =>
    have hescaped : 0 < (escapedChar c).length := by
      unfold escapedChar
      split
      · exact Nat.succ_pos _
      · exact Nat.succ_pos _
    rw [List.flatMap_cons, List.length_append, List.length_cons]
    omega

/-- Quotes make a key longer. -/
theorem quote_ne_self (key : List Char) : quote key ≠ key := by
  intro heq
  have hlength := congrArg List.length heq
  have hescaped := length_le_length_flatMap_escapedChar key
  rw [quote_eq_flatMap, List.length_append, List.length_cons, List.length_singleton] at hlength
  omega

/-- A key is written bare, or between quotes. -/
theorem encode_cases (key : List Char) :
    (key ∈ identifiers ∧ encode key = key) ∨ (key ∉ identifiers ∧ encode key = quote key) := by
  rw [← isPlain_iff_mem_identifiers]
  unfold encode
  split
  · next h => exact .inl ⟨h, rfl⟩
  · next h => exact .inr ⟨h, rfl⟩

/-- A key is determined by its text. -/
theorem text_injective : Function.Injective text := by
  intro key other h
  have hkey := scan_text key Text.stops_nil
  have hother := scan_text other Text.stops_nil
  rw [h, hother] at hkey
  exact (String.toList_injective (Prod.mk.inj (Option.some.inj hkey)).1).symm

/-- The written form of a key is read back to the key, whatever follows it, unless that goes on with
an identifier; so no two keys are written alike. The form is bare if and only if the key is an
identifier, and it is quoted otherwise. -/
theorem text_reads_back_uniquely (key : String) :
    (∀ rest, EndsWord rest → scan ((text key).toList ++ rest) = some (key.toList, rest)) ∧
    (text key = key ↔ key.toList ∈ identifiers) ∧
    ((text key).toList = quote key.toList ↔ key.toList ∉ identifiers) ∧
    ∀ other, text other = text key → other = key := by
  refine ⟨fun rest hrest => scan_text key hrest.stops, ?_, ?_, fun other h => text_injective h⟩
  · rw [← String.toList_inj, toList_text]
    rcases encode_cases key.toList with ⟨hkey, heq⟩ | ⟨hkey, heq⟩
    · exact iff_of_true heq hkey
    · rw [heq]
      exact iff_of_false (quote_ne_self _) hkey
  · rw [toList_text]
    rcases encode_cases key.toList with ⟨hkey, heq⟩ | ⟨hkey, heq⟩
    · rw [heq]
      exact iff_of_false (quote_ne_self _).symm (not_not_intro hkey)
    · exact iff_of_true heq hkey

/-- A key with a quote inside and two backslashes at its end, before the rest of a field. -/
theorem text_reads_back_uniquely_backslashes :
    EndsWord "?: string".toList ∧
      scan ((text "it's\\\\").toList ++ "?: string".toList) =
        some ("it's\\\\".toList, "?: string".toList) ∧
      text "it's\\\\" = "'it\\'s\\\\\\\\'" ∧ "it's\\\\".toList ∉ identifiers := by
  have hends : EndsWord "?: string".toList := by decide
  have htext : text "it's\\\\" = "'it\\'s\\\\\\\\'" := by decide
  obtain ⟨hread, hbare, -, -⟩ := text_reads_back_uniquely "it's\\\\"
  refine ⟨hends, hread _ hends, htext, ?_⟩
  rw [← hbare, htext]
  decide

end TypedRoutes.PropertyKey
