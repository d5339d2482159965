import TypedRoutes.Proofs.Schema.Parts
import TypedRoutes.Proofs.Text.Splitter

/-!
# Types are pieces

A text that is put together from types can be cut into them again: no type has a comma, a closing
bracket or a line feed outside its strings and brackets, so a splitter at one of these keeps the
text of a type as a whole (`Schema.isPiece_typeText`). Within brackets it is enough that the text
passes the scanner, and within quotes that every character is escaped or ends nothing.
-/

set_option autoImplicit false

namespace TypedRoutes

namespace Text

open Splitter (IsSeparator Keeps)

/-- The characters at which texts of types are cut: the comma between parameters, the bracket after
them, and the line feed between fields. -/
def typeSeparators : List Char := [',', ')', '\n']

/-- A splitter at the separator takes the text as a whole. -/
def IsPiece (separator : Char) (text : String) : Prop := Keeps separator .start text.toList

variable {separator : Char} {s t : String}

theorem IsPiece.append (hs : IsPiece separator s) (ht : IsPiece separator t) :
    IsPiece separator (s ++ t) := by
  rw [IsPiece, String.toList_append]
  exact Keeps.append hs ht

theorem isPiece_empty : IsPiece separator "" := Splitter.keeps_nil

theorem IsPiece.intercalate (hs : IsPiece separator s) {parts : List String}
    (h : ∀ part ∈ parts, IsPiece separator part) : IsPiece separator (s.intercalate parts) := by
  induction parts with
  | nil => exact isPiece_empty
  | cons part rest ih =>
    obtain ⟨hpart, hrest⟩ := List.forall_mem_cons.1 h
    cases rest with
    | nil => simpa using hpart
    | cons next rest =>
      rw [String.intercalate_cons_cons]
      exact (hpart.append hs).append (ih hrest)

variable (hseparator : separator ∈ typeSeparators)

include hseparator

theorem isSeparator_of_mem : IsSeparator separator := by
  have hall : ∀ c ∈ typeSeparators, IsSeparator c := by decide
  exact hall separator hseparator

/-- The characters of types and labels outside strings and brackets. -/
def IsTypeChar (c : Char) : Prop := IsNumberChar c ∨ c ∈ [' ', '|', '&', ':', '?']

omit hseparator in
instance (c : Char) : Decidable (IsTypeChar c) := inferInstanceAs (Decidable (_ ∨ _))

/-- A text of characters that types consist of is one piece for the separators around types. -/
theorem isPiece_of_typeChars (h : ∀ c ∈ t.toList, IsTypeChar c) : IsPiece separator t := by
  have hother : ∀ separator ∈ typeSeparators, ∀ c ∈ separator :: '<' :: '>' :: Scanner.marks,
      ¬ IsTypeChar c := by decide
  apply Splitter.keeps_of_inert
  intro c hc hmem
  exact hother separator hseparator c hmem (h c hc)

/-- Brackets around what passes the scanner. -/
theorem isPiece_bracketed (bracket : Bracket) {inner : List Char}
    (ht : t.toList = bracket.opening :: inner ++ [bracket.closing])
    (h : Scanner.Passes .code inner) : IsPiece separator t := by
  rw [IsPiece, ht]
  exact Splitter.keeps_bracketed (isSeparator_of_mem hseparator) bracket h

/-- A name with a piece between angle brackets, after what opens and closes nothing. -/
theorem IsPiece.generic (name before : String) {opening : String}
    (hopening : opening = name ++ "<" ++ before) (hname : ∀ c ∈ name.toList, IsTypeChar c)
    (hbefore : ∀ c ∈ before.toList, c ∉ '<' :: '>' :: Scanner.marks) (h : IsPiece separator t) :
    IsPiece separator (opening ++ t ++ ">") := by
  have hangled := Keeps.angled (isSeparator_of_mem hseparator) hbefore h
  have htext : (opening ++ t ++ ">").toList =
      name.toList ++ ('<' :: before.toList ++ t.toList ++ ['>']) := by
    simp [hopening]
  rw [IsPiece, htext]
  exact Keeps.append (isPiece_of_typeChars hseparator hname) hangled

end Text

open Text (IsPiece Passes Scanner isPiece_of_typeChars typeSeparators)

section

variable {separator : Char} (hseparator : separator ∈ typeSeparators)

include hseparator

/-! ## Literals -/

theorem Json.isPiece_quoted (s : String) : IsPiece separator (quoted s) := by
  have hchar (c : Char) : Text.Splitter.Keeps separator ⟨.quoted '"', []⟩ (quotedChar c) :=
    quotedChar_of_units Text.Splitter.Keeps.append
      (fun _ => Text.Splitter.keeps_quoted_singleton) (Text.Splitter.keeps_quoted_escape '"') c
  rw [IsPiece, quoted, String.toList_ofList]
  exact .quoted (Text.isSeparator_of_mem hseparator) (.inr rfl) (.flatMap fun c _ => hchar c)

/-- A written JSON value is one piece: commas and brackets stand inside its own brackets or in
strings. -/
theorem Json.isPiece_write (json : Json) : IsPiece separator json.write := by
  have hcomma : Passes ", " := Text.passes_of_no_marks (by decide)
  cases json with
  | null => exact isPiece_of_typeChars hseparator (by decide)
  | bool b => cases b <;> exact isPiece_of_typeChars hseparator (by decide)
  | int n =>
    exact isPiece_of_typeChars hseparator fun c hc => .inl (isNumberChar_decimalText n c hc)
  | float x =>
    exact isPiece_of_typeChars hseparator fun c hc => .inl (isNumberChar_floatText x c hc)
  | str s => exact isPiece_quoted hseparator s
  -- Between brackets a separator does not count, so it does not matter what the parts hold.
  | array items =>
    have hitems : Passes (", ".intercalate (writeItems items)) :=
      Text.Compositional.passes.intercalate hcomma
        (writeItems_of_quoted .passes passes_quoted items)
    exact Text.isPiece_bracketed hseparator .square (by simp [write, Text.Bracket.opening,
      Text.Bracket.closing]) hitems
  | object members =>
    have hmembers : Passes (", ".intercalate (writeMembers members)) :=
      Text.Compositional.passes.intercalate hcomma
        (writeMembers_of_quoted .passes passes_quoted members)
    exact Text.isPiece_bracketed hseparator .curly (by simp [write, Text.Bracket.opening,
      Text.Bracket.closing]) hmembers

theorem Literal.isPiece_text {l : Literal} {text : String} (h : l.text.get = .ok text) :
    IsPiece separator text := by
  rcases Datum.eq_number_or_exists_write (l.text_eq ▸ h) with rfl | ⟨json, rfl⟩
  · exact isPiece_of_typeChars hseparator (by decide)
  · exact json.isPiece_write hseparator

/-! ## Types -/

namespace Schema

omit hseparator in
theorem isPiece_joined {glue empty : String} {parts : List String} (hglue : IsPiece separator glue)
    (hempty : IsPiece separator empty) (h : ∀ part ∈ parts, IsPiece separator part) :
    IsPiece separator (joined glue empty parts) := by
  unfold joined
  split
  · exact hempty
  · exact hglue.intercalate h

/-- An object type stands between braces. -/
theorem isPiece_objectText {required : List String} {properties : List (String × Schema)}
    {fields : List String} (h : fieldTexts required properties = .ok fields) :
    IsPiece separator (objectText fields) := by
  have hblank : Passes " " := Text.passes_of_no_marks (by decide)
  have hsemicolon : Passes "; " := Text.passes_of_no_marks (by decide)
  have hfields : Passes ("; ".intercalate fields) :=
    Text.Compositional.passes.intercalate hsemicolon (fieldTexts_of_names .passes
      Json.passes_quoted required properties (fun name _ => passes_propertyKey name) h)
  exact Text.isPiece_bracketed hseparator .curly (by simp [objectText, Text.Bracket.opening,
    Text.Bracket.closing]) ((hblank.append hfields).append hblank)

end Schema

end

namespace Schema

mutual

/-- A splitter takes the text of a type as a whole. -/
theorem isPiece_typeText {separator : Char} (hseparator : separator ∈ typeSeparators) :
    ∀ (schema : Schema) {text : String}, schema.typeText = .ok text → IsPiece separator text
  | .primitive kind, text, h => by
    obtain rfl := Except.ok.inj h
    cases kind <;> exact isPiece_of_typeChars hseparator (by decide)
  | .literal value, text, h => Literal.isPiece_text hseparator h
  | .enumeration values, text, h => by
    obtain ⟨texts, htexts, rfl⟩ := Outcome.map_eq_ok.1 h
    exact isPiece_joined (isPiece_of_typeChars hseparator (by decide))
      (isPiece_of_typeChars hseparator (by decide))
      (forall_mem_literalTexts (Literal.isPiece_text hseparator) htexts)
  | .array none, text, h => by
    obtain rfl := Except.ok.inj h
    exact (isPiece_of_typeChars hseparator (by decide)).append
      (Text.isPiece_bracketed hseparator .square rfl (Scanner.passes_nil _))
  | .array (some items), text, h => by
    obtain ⟨inner, hinner, rfl⟩ := Outcome.map_eq_ok.1 h
    exact (isPiece_typeText hseparator items hinner).append
      (Text.isPiece_bracketed hseparator .square rfl (Scanner.passes_nil _))
  | .fields properties required, text, h => by
    obtain ⟨fields, hfields, rfl⟩ := Outcome.map_eq_ok.1 h
    exact isPiece_objectText hseparator hfields
  | .record value, text, h => by
    obtain ⟨inner, hinner, rfl⟩ := Outcome.map_eq_ok.1 h
    exact (isPiece_typeText hseparator value hinner).generic hseparator "Record" "string, " rfl
      (by decide) (by decide)
  | .union _ members, text, h => by
    obtain ⟨texts, htexts, rfl⟩ := Outcome.map_eq_ok.1 h
    exact isPiece_joined (isPiece_of_typeChars hseparator (by decide))
      (isPiece_of_typeChars hseparator (by decide)) (isPiece_typeTexts hseparator members htexts)
  | .intersection members, text, h => by
    obtain ⟨texts, htexts, rfl⟩ := Outcome.map_eq_ok.1 h
    exact isPiece_joined (isPiece_of_typeChars hseparator (by decide))
      (isPiece_of_typeChars hseparator (by decide)) (isPiece_typeTexts hseparator members htexts)
  | .unknown, text, h => by
    obtain rfl := Except.ok.inj h
    exact isPiece_of_typeChars hseparator (by decide)

theorem isPiece_typeTexts {separator : Char} (hseparator : separator ∈ typeSeparators) :
    ∀ (members : List Schema) {texts : List String}, typeTexts members = .ok texts →
      ∀ text ∈ texts, IsPiece separator text
  | [], texts, h => by
    obtain rfl := Except.ok.inj h
    exact List.forall_mem_nil _
  | member :: rest, texts, h => by
    obtain ⟨first, others, hfirst, hothers, rfl⟩ := Outcome.seq_eq_ok.1 h
    exact List.forall_mem_cons.2
      ⟨isPiece_typeText hseparator member hfirst, isPiece_typeTexts hseparator rest hothers⟩

end

end Schema
end TypedRoutes
