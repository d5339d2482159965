import TypedRoutes.Proofs.Json.Parts
import TypedRoutes.Proofs.Outcome
import TypedRoutes.Proofs.PropertyKey
import TypedRoutes.Schema.TypeText

/-!
# The parts of types

A compositional property of texts that JSON strings have, and the written names of the properties in
a schema, is one of the text of its type (`Schema.typeText_of_names`). So that text is one line if
the names are (`Schema.isLine_typeText`), and it passes the scanner whatever the names are
(`Schema.passes_typeText`), since a name that needs it stands between quotes.
-/

set_option autoImplicit false

namespace TypedRoutes

open Text (Compositional IsLine IsPlain Passes Scanner)

/-! ## Literals -/

/-- The text of a literal is the type of numbers or a JSON text. -/
theorem Datum.eq_number_or_exists_write {d : Datum} {text : String} (h : d.literalText = .ok text) :
    text = Primitive.number.name ∨ ∃ json : Json, text = json.write := by
  unfold literalText at h
  split at h
  · next x =>
    obtain rfl := Except.ok.inj h
    unfold Binary64.literalText
    split
    · exact .inr ⟨.float x, by rw [Json.write]⟩
    · exact .inl rfl
  · obtain ⟨json, -, rfl⟩ := Outcome.map_eq_ok.1 h
    exact .inr ⟨json, rfl⟩

/-- The text of a literal has every compositional property that quoted strings have. -/
theorem Literal.text_of_quoted {P : String → Prop} (hP : Compositional P)
    (hquoted : ∀ s, P (Json.quoted s)) {l : Literal} {text : String} (h : l.text.get = .ok text) :
    P text := by
  rcases Datum.eq_number_or_exists_write (l.text_eq ▸ h) with rfl | ⟨json, rfl⟩
  · exact hP.plain (by decide)
  · exact Json.write_of_quoted hP hquoted json

/-! ## Property keys -/

theorem isLine_propertyKey {name : String} (h : IsLine name) : IsLine (PropertyKey.text name) := by
  intro hmem
  rw [PropertyKey.toList_text] at hmem
  exact h (PropertyKey.mem_of_mem_encode (by decide) (by decide) hmem)

theorem PropertyKey.isPlain_of_isNameChar {c : Char} (h : isNameChar c = true) : IsPlain c := by
  have hmarks : ∀ c ∈ '\n' :: Scanner.marks, isNameChar c = false := by decide
  intro hmem
  rw [hmarks c hmem] at h
  cases h

/-- An escaped character leaves the scanner inside the single quotes. -/
theorem PropertyKey.passes_escapedChar (c : Char) :
    Scanner.Passes (.quoted '\'') (escapedChar c) := by
  unfold escapedChar
  split
  · exact Scanner.passes_quoted_escape '\'' c
  · next h =>
    obtain ⟨hslash, hquote⟩ := not_or.1 h
    exact Scanner.passes_quoted_singleton hquote hslash

/-- A written key stays within its quotes. -/
theorem passes_propertyKey (name : String) : Passes (PropertyKey.text name) := by
  unfold PropertyKey.text PropertyKey.encode
  split
  · next h =>
    apply Compositional.passes.plain
    rw [String.toList_ofList]
    exact fun c hc => PropertyKey.isPlain_of_isNameChar
      ((PropertyKey.isNameChar_of_isPlain h).2 c hc)
  · rw [PropertyKey.quote_eq_flatMap]
    exact Text.Passes.quoted (.inl rfl) (.flatMap fun c _ => PropertyKey.passes_escapedChar c)

/-! ## Types -/

namespace Schema

mutual

/-- The names of the properties at any place of a schema. -/
def propertyNames : Schema → List String
  | .array (some items) => items.propertyNames
  | .fields properties _ => fieldNames properties
  | .record value => value.propertyNames
  | .union _ members => memberNames members
  | .intersection members => memberNames members
  | _ => []

/-- The names of the properties in several schemas. -/
def memberNames : List Schema → List String
  | [] => []
  | member :: rest => member.propertyNames ++ memberNames rest

/-- The names of properties and of those in their schemas. -/
def fieldNames : List (String × Schema) → List String
  | [] => []
  | (name, schema) :: rest => name :: schema.propertyNames ++ fieldNames rest

end

section

variable {P : String → Prop}

theorem joined_of_parts (hP : Compositional P) {separator empty : String} {parts : List String}
    (hseparator : P separator) (hempty : P empty) (hparts : ∀ part ∈ parts, P part) :
    P (joined separator empty parts) := by
  unfold joined
  split
  · exact hempty
  · exact hP.intercalate hseparator hparts

/-- A field has every compositional property that its name and its type have. -/
theorem fieldText_of_parts (hP : Compositional P) {name type : String} (required : Bool)
    (hname : P (PropertyKey.text name)) (htype : P type) : P (fieldText name required type) := by
  have hmark : P (if required then "" else "?") := by
    cases required
    · exact hP.plain (by decide)
    · exact hP.empty
  have hcolon : P ": " := hP.plain (by decide)
  exact hP.append (hP.append (hP.append hname hmark) hcolon) htype

/-- Each literal has its text. -/
theorem literalTexts_eq_ok_iff {values : List Literal} {texts : List String} :
    literalTexts values = .ok texts ↔
      List.Forall₂ (fun l text => l.text.get = .ok text) values texts := by
  constructor
  · intro h
    induction values generalizing texts with
    | nil =>
      obtain rfl := Except.ok.inj h
      exact .nil
    | cons value rest ih =>
      obtain ⟨first, others, hfirst, hothers, rfl⟩ := Outcome.seq_eq_ok.1 h
      exact .cons hfirst (ih hothers)
  · intro h
    induction h with
    | nil => rfl
    | cons hfirst _ ih =>
      exact Outcome.seq_eq_ok.2 ⟨_, _, hfirst, ih, rfl⟩

theorem forall_mem_literalTexts (hliteral : ∀ {l : Literal} {text : String},
    l.text.get = .ok text → P text) {values : List Literal} {texts : List String}
    (h : literalTexts values = .ok texts) : ∀ text ∈ texts, P text := by
  rw [literalTexts_eq_ok_iff] at h
  induction h with
  | nil => exact List.forall_mem_nil _
  | cons hfirst _ ih => exact List.forall_mem_cons.2 ⟨hliteral hfirst, ih⟩

mutual

/-- A type has a compositional property that JSON strings and the names of its properties have. -/
theorem typeText_of_names (hP : Compositional P) (hquoted : ∀ s, P (Json.quoted s)) :
    ∀ (schema : Schema) {text : String},
      (∀ name ∈ schema.propertyNames, P (PropertyKey.text name)) →
        schema.typeText = .ok text → P text
  | .primitive kind, text, _, h => by
    obtain rfl := Except.ok.inj h
    cases kind <;> exact hP.plain (by decide)
  | .literal value, text, _, h => Literal.text_of_quoted hP hquoted h
  | .enumeration values, text, _, h => by
    obtain ⟨texts, htexts, rfl⟩ := Outcome.map_eq_ok.1 h
    exact joined_of_parts hP (hP.plain (by decide)) (hP.plain (by decide))
      (forall_mem_literalTexts (Literal.text_of_quoted hP hquoted) htexts)
  | .array none, text, _, h => by
    obtain rfl := Except.ok.inj h
    exact hP.append (hP.plain (by decide)) (hP.bracketed .square hP.empty)
  | .array (some items), text, hnames, h => by
    obtain ⟨inner, hinner, rfl⟩ := Outcome.map_eq_ok.1 h
    exact hP.append (typeText_of_names hP hquoted items hnames hinner)
      (hP.bracketed .square hP.empty)
  | .fields properties required, text, hnames, h => by
    obtain ⟨fields, hfields, rfl⟩ := Outcome.map_eq_ok.1 h
    have hsemicolon : P "; " := hP.plain (by decide)
    have hinner := hP.intercalate hsemicolon
      (fieldTexts_of_names hP hquoted required properties hnames hfields)
    exact hP.enclosed .curly [' '] [' '] rfl rfl (by decide) (by decide) hinner
  | .record value, text, hnames, h => by
    obtain ⟨inner, hinner, rfl⟩ := Outcome.map_eq_ok.1 h
    have hopening : P "Record<string, " := hP.plain (by decide)
    have hclosing : P ">" := hP.plain (by decide)
    exact hP.append (hP.append hopening (typeText_of_names hP hquoted value hnames hinner)) hclosing
  | .union _ members, text, hnames, h => by
    obtain ⟨texts, htexts, rfl⟩ := Outcome.map_eq_ok.1 h
    exact joined_of_parts hP (hP.plain (by decide)) (hP.plain (by decide))
      (typeTexts_of_names hP hquoted members hnames htexts)
  | .intersection members, text, hnames, h => by
    obtain ⟨texts, htexts, rfl⟩ := Outcome.map_eq_ok.1 h
    exact joined_of_parts hP (hP.plain (by decide)) (hP.plain (by decide))
      (typeTexts_of_names hP hquoted members hnames htexts)
  | .unknown, text, _, h => by
    obtain rfl := Except.ok.inj h
    exact hP.plain (by decide)

/-- The type texts of members have every compositional property of the keys and the quoted strings
in them, by induction on the schemas. -/
theorem typeTexts_of_names (hP : Compositional P) (hquoted : ∀ s, P (Json.quoted s)) :
    ∀ (members : List Schema) {texts : List String},
      (∀ name ∈ memberNames members, P (PropertyKey.text name)) →
        typeTexts members = .ok texts → ∀ text ∈ texts, P text
  | [], texts, _, h => by
    obtain rfl := Except.ok.inj h
    simp
  | member :: rest, texts, hnames, h => by
    obtain ⟨first, others, hfirst, hothers, rfl⟩ := Outcome.seq_eq_ok.1 h
    rw [memberNames, List.forall_mem_append] at hnames
    exact List.forall_mem_cons.2
      ⟨typeText_of_names hP hquoted member hnames.1 hfirst,
        typeTexts_of_names hP hquoted rest hnames.2 hothers⟩

theorem fieldTexts_of_names (hP : Compositional P) (hquoted : ∀ s, P (Json.quoted s))
    (required : List String) : ∀ (properties : List (String × Schema)) {texts : List String},
      (∀ name ∈ fieldNames properties, P (PropertyKey.text name)) →
        fieldTexts required properties = .ok texts → ∀ text ∈ texts, P text
  | [], texts, _, h => by
    obtain rfl := Except.ok.inj h
    simp
  | (name, schema) :: rest, texts, hnames, h => by
    obtain ⟨type, others, htype, hothers, rfl⟩ := Outcome.seq_eq_ok.1 h
    rw [fieldNames, List.cons_append, List.forall_mem_cons, List.forall_mem_append] at hnames
    obtain ⟨hname, hinner, hrest⟩ := hnames
    exact List.forall_mem_cons.2
      ⟨fieldText_of_parts hP _ hname (typeText_of_names hP hquoted schema hinner htype),
        fieldTexts_of_names hP hquoted required rest hrest hothers⟩

end

end

/-- A type is one line if the names of its properties are. -/
theorem isLine_typeText {schema : Schema} {text : String}
    (hnames : ∀ name ∈ schema.propertyNames, IsLine name) (h : schema.typeText = .ok text) :
    IsLine text :=
  typeText_of_names .isLine Json.isLine_quoted schema
    (fun name hname => isLine_propertyKey (hnames name hname)) h

/-- The text of a type is closed wherever it stands. -/
theorem passes_typeText {schema : Schema} {text : String} (h : schema.typeText = .ok text) :
    Passes text :=
  typeText_of_names .passes Json.passes_quoted schema (fun name _ => passes_propertyKey name) h

end Schema
end TypedRoutes
