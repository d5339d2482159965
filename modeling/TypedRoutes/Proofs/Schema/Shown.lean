import TypedRoutes.Proofs.Schema.Parts
import TypedRoutes.Proofs.Text.Lexeme

/-!
# Names between quotes

The strings between single quotes in the text of a type are the names of its properties that are no
identifiers, in the order of the properties, and the text has no comment (`Schema.shows_typeText`).
Literals are JSON texts, whose strings stand between double quotes, so they add none.
-/

set_option autoImplicit false

namespace TypedRoutes

open Text (Compositional Lexeme Reads StaysIn)

/-! ## Keys between quotes -/

/-- What stands between the quotes of a key, if the key is no identifier. -/
def PropertyKey.quotedBody? (key : String) : Option (List Char) :=
  if isIdentifier key then none else some (key.toList.flatMap escapedChar)

/-- The strings between single quotes in the text are those of the names that are no identifiers,
and it has no comment. -/
def Shows (names : List String) (text : String) : Prop :=
  ∃ tokens, Reads text.toList tokens ∧ tokens.filterMap Lexeme.comment? = [] ∧
    tokens.filterMap Lexeme.singleQuoted? = names.filterMap PropertyKey.quotedBody?

/-- A text in which no string or comment begins shows no name. -/
theorem shows_of_no_openers {text : String} (h : ∀ c ∈ text.toList, c ∉ Text.openers) :
    Shows [] text :=
  ⟨_, Text.reads_of_no_openers h, Lexeme.filterMap_comment?_map_plain _,
    Lexeme.filterMap_singleQuoted?_map_plain _⟩

theorem Shows.append {names others : List String} {s t : String} (hs : Shows names s)
    (ht : Shows others t) : Shows (names ++ others) (s ++ t) := by
  obtain ⟨tokens, hread, hcomments, hquoted⟩ := hs
  obtain ⟨rest, hread', hcomments', hquoted'⟩ := ht
  refine ⟨tokens ++ rest, ?_, ?_, ?_⟩
  · rw [String.toList_append]
    exact hread.append hread'
  · rw [List.filterMap_append, hcomments, hcomments']
    rfl
  · rw [List.filterMap_append, List.filterMap_append, hquoted, hquoted']

/-- A text that shows no name adds none to those before it. -/
theorem Shows.ended {names : List String} {s t : String} (hs : Shows names s) (ht : Shows [] t) :
    Shows names (s ++ t) := by
  have happend := hs.append ht
  rwa [List.append_nil] at happend

/-- Each text shows its share of the names. -/
inductive ShowsEach : List String → List String → Prop
  | nil : ShowsEach [] []
  | cons {names others : List String} {text : String} {texts : List String} :
      Shows names text → ShowsEach others texts → ShowsEach (names ++ others) (text :: texts)

theorem showsEach_singleton_iff {names : List String} {text : String} :
    ShowsEach names [text] ↔ Shows names text := by
  constructor
  · intro h
    cases h with
    | cons htext hrest =>
      cases hrest
      rwa [List.append_nil]
  · intro h
    have hcons := ShowsEach.cons h .nil
    rwa [List.append_nil] at hcons

theorem ShowsEach.append {names others : List String} {texts rest : List String}
    (htexts : ShowsEach names texts) (hrest : ShowsEach others rest) :
    ShowsEach (names ++ others) (texts ++ rest) := by
  induction htexts with
  | nil => exact hrest
  | cons htext _ ih =>
    rw [List.append_assoc]
    exact .cons htext ih

/-- Texts joined by a separator that shows nothing show what they show, in order. -/
theorem ShowsEach.intercalate {separator : String} (h : Shows [] separator)
    {names texts : List String} (htexts : ShowsEach names texts) :
    Shows names (separator.intercalate texts) := by
  induction htexts with
  | nil => exact shows_of_no_openers nofun
  | cons htext hrest ih =>
    cases hrest with
    | nil =>
      rw [List.append_nil, String.intercalate_singleton]
      exact htext
    | cons _ _ =>
      rw [String.intercalate_cons_cons]
      exact (htext.ended h).append ih

theorem not_mem_openers_of_isPlain {c : Char} (h : Text.IsPlain c) : c ∉ Text.openers := by
  have hmarks : ∀ c ∈ Text.openers, ¬ Text.IsPlain c := by decide
  exact fun hmem => hmarks c hmem h

theorem Text.Compositional.shows : Compositional (Shows []) where
  plain h := shows_of_no_openers fun c hc => not_mem_openers_of_isPlain (h c hc)
  append hs ht := hs.append ht
  bracketed bracket text h := by
    have hopening : Shows [] (String.ofList [bracket.opening]) :=
      shows_of_no_openers (by cases bracket <;> decide)
    have hclosing : Shows [] (String.ofList [bracket.closing]) :=
      shows_of_no_openers (by cases bracket <;> decide)
    have hsplit : String.ofList (bracket.opening :: text.toList ++ [bracket.closing]) =
        String.ofList [bracket.opening] ++ text ++ String.ofList [bracket.closing] := by
      apply String.toList_injective
      simp
    rw [hsplit]
    exact (hopening.append h).append hclosing

/-- A key is shown, whether it stands bare or between quotes. -/
theorem shows_propertyKey (key : String) : Shows [key] (PropertyKey.text key) := by
  have hstays (c : Char) : StaysIn '\'' (PropertyKey.escapedChar c) := by
    unfold PropertyKey.escapedChar
    split
    · exact Text.staysIn_escape _ c
    · next h =>
      obtain ⟨hslash, hquote⟩ := not_or.1 h
      exact Text.staysIn_singleton hquote hslash
  unfold Shows PropertyKey.quotedBody? PropertyKey.isIdentifier
  rw [PropertyKey.toList_text]
  unfold PropertyKey.encode
  split
  · next h =>
    have hplain : ∀ c ∈ key.toList, c ∉ Text.openers := fun c hc =>
      not_mem_openers_of_isPlain
        (PropertyKey.isPlain_of_isNameChar ((PropertyKey.isNameChar_of_isPlain h).2 c hc))
    refine ⟨_, Text.reads_of_no_openers hplain, Lexeme.filterMap_comment?_map_plain _, ?_⟩
    rw [Lexeme.filterMap_singleQuoted?_map_plain]
    simp [h]
  · next h =>
    rw [PropertyKey.quote_eq_flatMap]
    refine ⟨_, (StaysIn.flatMap hstays).reads (.inl rfl), rfl, ?_⟩
    simp [Lexeme.singleQuoted?, h]

theorem Json.shows_quoted (s : String) : Shows [] (quoted s) := by
  have hstays (c : Char) : StaysIn '"' (quotedChar c) :=
    quotedChar_of_units StaysIn.append (fun _ => Text.staysIn_singleton)
      (Text.staysIn_escape '"') c
  refine ⟨[.quoted '"' (s.toList.flatMap quotedChar)], ?_, rfl, rfl⟩
  rw [quoted, String.toList_ofList]
  exact (StaysIn.flatMap hstays).reads (.inr rfl)

/-! ## Types -/

namespace Schema

theorem shows_literal {l : Literal} {text : String} (h : l.text.get = .ok text) : Shows [] text :=
  Literal.text_of_quoted .shows Json.shows_quoted h

theorem shows_joined {separator empty : String} (hseparator : Shows [] separator)
    (hempty : Shows [] empty) {names parts : List String} (h : ShowsEach names parts) :
    Shows names (joined separator empty parts) := by
  unfold joined
  split
  · next hnil =>
    obtain rfl := List.isEmpty_iff.1 hnil
    cases h
    exact hempty
  · exact h.intercalate hseparator

/-- A field shows its name and then what its type shows. -/
theorem shows_fieldText {name type : String} {names : List String} (required : Bool)
    (htype : Shows names type) : Shows (name :: names) (fieldText name required type) := by
  have hmark : Shows [] (if required then "" else "?") := by
    cases required <;> exact shows_of_no_openers (by decide)
  have hcolon : Shows [] ": " := shows_of_no_openers (by decide)
  exact (((shows_propertyKey name).ended hmark).ended hcolon).append htype

theorem shows_literalTexts {values : List Literal} {texts : List String}
    (h : literalTexts values = .ok texts) : ShowsEach [] texts := by
  have hshown := forall_mem_literalTexts shows_literal h
  clear h
  induction texts with
  | nil => exact .nil
  | cons text rest ih =>
    obtain ⟨htext, hrest⟩ := List.forall_mem_cons.1 hshown
    exact .cons htext (ih hrest)

mutual

/-- A type shows the names of its properties. -/
theorem shows_typeText : ∀ (schema : Schema) {text : String},
    schema.typeText = .ok text → Shows schema.propertyNames text
  | .primitive kind, text, h => by
    obtain rfl := Except.ok.inj h
    cases kind <;> exact shows_of_no_openers (by decide)
  | .literal value, text, h => shows_literal h
  | .enumeration values, text, h => by
    obtain ⟨texts, htexts, rfl⟩ := Outcome.map_eq_ok.1 h
    exact shows_joined (shows_of_no_openers (by decide)) (shows_of_no_openers (by decide))
      (shows_literalTexts htexts)
  | .array none, text, h => by
    obtain rfl := Except.ok.inj h
    exact shows_of_no_openers (by decide)
  | .array (some items), text, h => by
    obtain ⟨inner, hinner, rfl⟩ := Outcome.map_eq_ok.1 h
    exact (shows_typeText items hinner).ended (shows_of_no_openers (by decide))
  | .fields properties required, text, h => by
    obtain ⟨fields, hfields, rfl⟩ := Outcome.map_eq_ok.1 h
    have hopening : Shows [] "\x7b " := shows_of_no_openers (by decide)
    have hsemicolon : Shows [] "; " := shows_of_no_openers (by decide)
    have hclosing : Shows [] " \x7d" := shows_of_no_openers (by decide)
    have hinner := (shows_fieldTexts required properties hfields).intercalate hsemicolon
    exact (hopening.append hinner).ended hclosing
  | .record value, text, h => by
    obtain ⟨inner, hinner, rfl⟩ := Outcome.map_eq_ok.1 h
    have hopening : Shows [] "Record<string, " := shows_of_no_openers (by decide)
    have hclosing : Shows [] ">" := shows_of_no_openers (by decide)
    exact (hopening.append (shows_typeText value hinner)).ended hclosing
  | .union _ members, text, h => by
    obtain ⟨texts, htexts, rfl⟩ := Outcome.map_eq_ok.1 h
    exact shows_joined (shows_of_no_openers (by decide)) (shows_of_no_openers (by decide))
      (shows_typeTexts members htexts)
  | .intersection members, text, h => by
    obtain ⟨texts, htexts, rfl⟩ := Outcome.map_eq_ok.1 h
    exact shows_joined (shows_of_no_openers (by decide)) (shows_of_no_openers (by decide))
      (shows_typeTexts members htexts)
  | .unknown, text, h => by
    obtain rfl := Except.ok.inj h
    exact shows_of_no_openers (by decide)

/-- The texts of members show the names of the members in order, by induction on the schemas. -/
theorem shows_typeTexts : ∀ (members : List Schema) {texts : List String},
    typeTexts members = .ok texts → ShowsEach (memberNames members) texts
  | [], texts, h => by
    obtain rfl := Except.ok.inj h
    exact .nil
  | member :: rest, texts, h => by
    obtain ⟨first, others, hfirst, hothers, rfl⟩ := Outcome.seq_eq_ok.1 h
    exact .cons (shows_typeText member hfirst) (shows_typeTexts rest hothers)

theorem shows_fieldTexts (required : List String) :
    ∀ (properties : List (String × Schema)) {texts : List String},
      fieldTexts required properties = .ok texts → ShowsEach (fieldNames properties) texts
  | [], texts, h => by
    obtain rfl := Except.ok.inj h
    exact .nil
  | (name, schema) :: rest, texts, h => by
    obtain ⟨type, others, htype, hothers, rfl⟩ := Outcome.seq_eq_ok.1 h
    exact .cons (shows_fieldText _ (shows_typeText schema htype))
      (shows_fieldTexts required rest hothers)

end

end Schema

end TypedRoutes
