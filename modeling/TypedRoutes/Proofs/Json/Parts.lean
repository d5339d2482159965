import TypedRoutes.Proofs.Json.Number
import TypedRoutes.Proofs.Json.Quoted
import TypedRoutes.Proofs.Text.Compositional

/-!
# The parts of JSON texts

A compositional property of texts that JSON strings have is one of every JSON text
(`Json.write_of_quoted`), as numbers are plain and arrays and objects stand between brackets. JSON
strings are lines and pass the scanner, since they escape the line feed and whatever would end them
(`Json.isLine_quoted`, `Json.passes_quoted`).
-/

set_option autoImplicit false

namespace TypedRoutes

open Text (Compositional IsLine IsPlain Passes Scanner isLine_ofList)

/-! ## Numbers -/

/-- The characters of numbers: letters, digits, signs and the point. -/
def IsNumberChar (c : Char) : Prop := c.isAlphanum = true ∨ c ∈ ['+', '-', '.']

instance (c : Char) : Decidable (IsNumberChar c) := inferInstanceAs (Decidable (_ ∨ _))

/-- A character of a number needs no care inside a type text. -/
theorem isPlain_of_isNumberChar {c : Char} (h : IsNumberChar c) : IsPlain c := by
  have hmarks : ∀ c ∈ '\n' :: Scanner.marks, ¬ IsNumberChar c := by decide
  intro hmem
  exact hmarks c hmem h

/-- The characters of the numbers that have digits: these, the mark of an exponent, signs and the
point. -/
def IsNumeralChar (c : Char) : Prop := c.isDigit = true ∨ c ∈ ['e', '+', '-', '.']

instance (c : Char) : Decidable (IsNumeralChar c) := inferInstanceAs (Decidable (_ ∨ _))

theorem IsNumeralChar.isNumberChar {c : Char} (h : IsNumeralChar c) : IsNumberChar c := by
  have hmarks : ∀ c ∈ ['e', '+', '-', '.'], IsNumberChar c := by decide
  rcases h with hdigit | hmark
  · left
    rw [Char.isAlphanum, hdigit, Bool.or_true]
  · exact hmarks c hmark

theorem IsDigits.isNumeralChar {cs : List Char} (h : IsDigits cs) : ∀ c ∈ cs, IsNumeralChar c :=
  fun c hc => .inl (h c hc)

/-- A written numeral has only characters of numerals. -/
theorem WrittenNumeral.isNumeralChar (w : WrittenNumeral) : ∀ c ∈ w.chars, IsNumeralChar c := by
  have hfraction : ∀ c ∈ fractionChars w.fraction, IsNumeralChar c := by
    by_cases hnil : w.fraction = []
    · rw [hnil, fractionChars]
      exact List.forall_mem_nil _
    · rw [fractionChars_of_ne_nil hnil, List.forall_mem_cons]
      exact ⟨by decide, w.fraction_digits.isNumeralChar⟩
  have hexponent : ∀ c ∈ exponentChars w.exponent, IsNumeralChar c := by
    cases hexponent : w.exponent with
    | none => exact List.forall_mem_nil _
    | some exponent =>
      obtain ⟨negative, digits⟩ := exponent
      have hdigits := (w.exponent_digits (negative, digits) hexponent).1
      rw [exponentChars, List.forall_mem_cons, List.forall_mem_cons]
      refine ⟨by decide, ?_, hdigits.isNumeralChar⟩
      cases negative <;> decide
  rw [chars, List.forall_mem_append, List.forall_mem_append]
  exact ⟨⟨w.isWhole.digits.isNumeralChar, hfraction⟩, hexponent⟩

theorem isNumeralChar_decimalText (n : Int) :
    ∀ c ∈ (decimalText n).toList, IsNumeralChar c := by
  have hdigits : ∀ c ∈ (String.ofList (decimalDigits n.natAbs)).toList, IsNumeralChar c := by
    rw [String.toList_ofList]
    exact (isDigits_decimalDigits _).isNumeralChar
  unfold decimalText
  split
  · rw [String.toList_append, List.forall_mem_append]
    exact ⟨by decide, hdigits⟩
  · exact hdigits

theorem isNumberChar_decimalText (n : Int) : ∀ c ∈ (decimalText n).toList, IsNumberChar c :=
  fun c hc => (isNumeralChar_decimalText n c hc).isNumberChar

/-- The text of a finite number has only characters of numerals. -/
theorem Json.isNumeralChar_floatText {x : Binary64} (hx : x.isFinite = true) :
    ∀ c ∈ (floatText x).toList, IsNumeralChar c := by
  match x with
  | .nan | .infinite _ => cases hx
  | .finite negative 0 _ =>
    change ∀ c ∈ ((if negative then "-" else "") ++ "0.0").toList, IsNumeralChar c
    cases negative <;> decide
  -- Every other number is a sign and a numeral.
  | .finite negative (m + 1) e =>
    obtain ⟨w, hw, -⟩ := Layout.exists_numeral floatLayout negative (Nat.succ_ne_zero m) e
    rw [floatText, hw, List.forall_mem_append]
    refine ⟨?_, w.isNumeralChar⟩
    cases negative <;> decide

/-- The text of a number has only characters of numbers, the words for infinity and no number
included. -/
theorem Json.isNumberChar_floatText (x : Binary64) :
    ∀ c ∈ (floatText x).toList, IsNumberChar c := by
  match x with
  | .nan => decide
  | .infinite true => decide
  | .infinite false => decide
  | .finite negative m e => exact fun c hc => (isNumeralChar_floatText rfl c hc).isNumberChar

namespace Json

/-! ## Strings -/

/-- No character is quoted with a line feed. -/
theorem newline_not_mem_quotedChar (c : Char) : '\n' ∉ quotedChar c := by
  have hhex : ∀ n < 32, '\n' ≠ hexDigit (n / 16) ∧ '\n' ≠ hexDigit (n % 16) := by decide
  rcases Reader.quotedChar_cases c with ⟨e, hquoted, -, hescaped⟩ | ⟨hcontrol, hquoted⟩ |
    ⟨hquoted, -, -, hcode⟩
  · have hletter : '\n' ≠ e := by
      rintro rfl
      cases hescaped
    simp [hquoted, hletter]
  · obtain ⟨hhigh, hlow⟩ := hhex _ hcontrol
    simp [hquoted, hhigh, hlow]
  · rw [hquoted, List.mem_singleton]
    rintro rfl
    exact absurd hcode (by decide)

/-- A quoted string takes one line, as its line ends are escaped. -/
theorem isLine_quoted (s : String) : IsLine (quoted s) := by
  apply isLine_ofList.2
  simp [newline_not_mem_quotedChar]

/-- A written character consists of escapes and of characters that need none, so it has a property
of texts that both have and that appending keeps. -/
theorem quotedChar_of_units {P : List Char → Prop}
    (happend : ∀ {cs ds : List Char}, P cs → P ds → P (cs ++ ds))
    (hself : ∀ c : Char, c ≠ '"' → c ≠ '\\' → P [c]) (hescape : ∀ c : Char, P ['\\', c])
    (c : Char) : P (quotedChar c) := by
  have hhex : ∀ n < 32, (hexDigit (n / 16) ≠ '"' ∧ hexDigit (n / 16) ≠ '\\') ∧
      hexDigit (n % 16) ≠ '"' ∧ hexDigit (n % 16) ≠ '\\' := by decide
  rcases Reader.quotedChar_cases c with ⟨e, hquoted, -⟩ | ⟨hcontrol, hquoted⟩ |
    ⟨hquoted, hquote, hslash, -⟩
  · rw [hquoted]
    exact hescape e
  -- An escaped letter and four digits.
  · obtain ⟨⟨hhigh, hhigh'⟩, hlow, hlow'⟩ := hhex _ hcontrol
    have hzero := hself '0' (by decide) (by decide)
    have hdigits := happend (hself _ hhigh hhigh') (hself _ hlow hlow')
    rw [hquoted]
    exact happend (hescape 'u') (happend hzero (happend hzero hdigits))
  · rw [hquoted]
    exact hself c hquote hslash

/-- A quoted character leaves the scanner inside the string. -/
theorem passes_quotedChar (c : Char) : Scanner.Passes (.quoted '"') (quotedChar c) :=
  quotedChar_of_units Scanner.Passes.append (fun _ => Scanner.passes_quoted_singleton)
    (Scanner.passes_quoted_escape '"') c

/-- A quoted string leaves the scanner where it was. -/
theorem passes_quoted (s : String) : Passes (quoted s) :=
  Text.Passes.quoted (.inr rfl) (.flatMap fun c _ => passes_quotedChar c)

/-! ## Values -/

mutual

/-- A JSON text has a compositional property that JSON strings have. -/
theorem write_of_quoted {P : String → Prop} (hP : Compositional P) (hquoted : ∀ s, P (quoted s)) :
    ∀ json : Json, P json.write
  | .null => hP.plain (by decide)
  | .bool true => hP.plain (by decide)
  | .bool false => hP.plain (by decide)
  | .int n => hP.plain fun c hc => isPlain_of_isNumberChar (isNumberChar_decimalText n c hc)
  | .float x => hP.plain fun c hc => isPlain_of_isNumberChar (isNumberChar_floatText x c hc)
  | .str s => hquoted s
  | .array items => by
    have hcomma : P ", " := hP.plain (by decide)
    have hitems := hP.intercalate hcomma (writeItems_of_quoted hP hquoted items)
    exact hP.enclosed .square [] [] rfl rfl (List.forall_mem_nil _) (List.forall_mem_nil _) hitems
  | .object members => by
    have hcomma : P ", " := hP.plain (by decide)
    have hmembers := hP.intercalate hcomma (writeMembers_of_quoted hP hquoted members)
    exact hP.enclosed .curly [] [] rfl rfl (List.forall_mem_nil _) (List.forall_mem_nil _) hmembers

/-- A compositional property of quoted strings holds of the items of an array. -/
theorem writeItems_of_quoted {P : String → Prop} (hP : Compositional P)
    (hquoted : ∀ s, P (quoted s)) : ∀ items : List Json, ∀ text ∈ writeItems items, P text
  | [] => by simp [writeItems]
  | item :: rest => by
    rw [writeItems, List.forall_mem_cons]
    exact ⟨write_of_quoted hP hquoted item, writeItems_of_quoted hP hquoted rest⟩

theorem writeMembers_of_quoted {P : String → Prop} (hP : Compositional P)
    (hquoted : ∀ s, P (quoted s)) :
    ∀ members : List (String × Json), ∀ text ∈ writeMembers members, P text
  | [] => by simp [writeMembers]
  | (name, value) :: rest => by
    have hcolon : P ": " := hP.plain (by decide)
    have hmember : P (quoted name ++ ": " ++ value.write) :=
      hP.append (hP.append (hquoted name) hcolon) (write_of_quoted hP hquoted value)
    rw [writeMembers, List.forall_mem_cons]
    exact ⟨hmember, writeMembers_of_quoted hP hquoted rest⟩

end

end Json

end TypedRoutes
