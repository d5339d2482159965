import TypedRoutes.Proofs.Schema.Literal
import TypedRoutes.Proofs.Schema.Parts
import TypedRoutes.Proofs.Schema.Phrase

/-!
# The texts of schemas are read

The text of every schema is read as its phrase (`phraseReads_typeText`), but not always as what the
schema is: no brackets are written, so an operator in the items of an array or an `|` in a member of
an intersection comes out where the mark of the array or the `&` binds tighter
(`groups_iff_no_operator`).
-/

set_option autoImplicit false

namespace TypedRoutes.Schema

open TypeTree (UnitReads PhraseReads FieldsRead TextsRead unitReads_word unitReads_record)

/-! ## Texts put together -/

theorem phraseReads_unknown : PhraseReads [[.unknown]] unknownText.toList :=
  .unit (unitReads_word (by simp [TypeTree.Reader.words, unknownText]))

theorem phraseReads_never : PhraseReads [[.never]] neverText.toList :=
  .unit (unitReads_word (by simp [TypeTree.Reader.words, neverText]))

section Joined

variable {ps : List Phrase} {texts : List String}

/-- Texts joined by `|` are read as the phrase of a union. -/
theorem phraseReads_anyOf (h : TextsRead ps texts) :
    PhraseReads (Phrase.anyOf ps) (joined " | " neverText texts).toList := by
  cases h with
  | nil => exact phraseReads_never
  | cons h hothers => exact TypeTree.phraseReads_flatten (.cons h hothers) (by simp)

/-- Texts joined by `&` are read as the phrase of an intersection. -/
theorem phraseReads_allOf (h : TextsRead ps texts) :
    PhraseReads (Phrase.allOf ps) (joined " & " unknownText texts).toList := by
  cases h with
  | nil => exact phraseReads_unknown
  | cons h hothers => exact TypeTree.phraseReads_glueAll (.cons h hothers) (by simp)

end Joined

/-! ## Literals of a schema -/

mutual

/-- The literals at any place of a schema. -/
def literals : Schema → List Literal
  | .literal value => [value]
  | .enumeration values => values
  | .array (some items) => items.literals
  | .fields properties _ => fieldLiterals properties
  | .record value => value.literals
  | .union _ members => memberLiterals members
  | .intersection members => memberLiterals members
  | _ => []

/-- The literals in several schemas. -/
def memberLiterals : List Schema → List Literal
  | [] => []
  | member :: rest => member.literals ++ memberLiterals rest

/-- The literals in the schemas of properties. -/
def fieldLiterals : List (String × Schema) → List Literal
  | [] => []
  | (_, schema) :: rest => schema.literals ++ fieldLiterals rest

end

/-! ## Types -/

section Types

variable {literal : Literal → TypeTree}

/-- The texts of the literals, where there are any, are read as their trees. -/
def LiteralsRead (literal : Literal → TypeTree) (values : List Literal) : Prop :=
  ∀ value ∈ values, ∀ text, value.text.get = .ok text → UnitReads (literal value) text.toList

theorem textsRead_literalTexts {values : List Literal} {texts : List String}
    (hread : LiteralsRead literal values) (h : literalTexts values = .ok texts) :
    TextsRead (values.map fun value => [[literal value]]) texts := by
  rw [literalTexts_eq_ok_iff] at h
  induction h with
  | nil => exact .nil
  | cons hfirst _ ih =>
    obtain ⟨hvalue, hrest⟩ := List.forall_mem_cons.1 hread
    exact .cons (.unit (hvalue _ hfirst)) (ih hrest)

mutual

/-- The text of a schema is read as its phrase. -/
theorem phraseReads_typeText : ∀ (schema : Schema) {text : String},
    LiteralsRead literal schema.literals → schema.typeText = .ok text →
      PhraseReads (schema.phrase literal) text.toList
  | .primitive kind, text, _, h => by
    obtain rfl := Except.ok.inj h
    exact .unit (TypeTree.unitReads_primitive kind)
  | .literal value, text, hread, h => .unit (hread value (List.mem_singleton_self value) text h)
  | .enumeration values, text, hread, h => by
    obtain ⟨texts, htexts, rfl⟩ := Outcome.map_eq_ok.1 h
    exact phraseReads_anyOf (textsRead_literalTexts hread htexts)
  | .array none, text, _, h => by
    obtain rfl := Except.ok.inj h
    rw [arrayText, String.toList_append]
    exact phraseReads_unknown.arrayed
  | .array (some items), text, hread, h => by
    obtain ⟨inner, hinner, rfl⟩ := Outcome.map_eq_ok.1 h
    rw [arrayText, String.toList_append]
    exact (phraseReads_typeText items hread hinner).arrayed
  | .fields properties required, text, hread, h => by
    obtain ⟨fields, hfields, rfl⟩ := Outcome.map_eq_ok.1 h
    exact .unit (fieldsRead_fieldTexts required properties hread hfields).unitReads
  | .record value, text, hread, h => by
    obtain ⟨inner, hinner, rfl⟩ := Outcome.map_eq_ok.1 h
    exact .unit (unitReads_record (phraseReads_typeText value hread hinner))
  | .union _ members, text, hread, h => by
    obtain ⟨texts, htexts, rfl⟩ := Outcome.map_eq_ok.1 h
    exact phraseReads_anyOf (textsRead_typeTexts members hread htexts)
  | .intersection members, text, hread, h => by
    obtain ⟨texts, htexts, rfl⟩ := Outcome.map_eq_ok.1 h
    exact phraseReads_allOf (textsRead_typeTexts members hread htexts)
  | .unknown, text, _, h => by
    obtain rfl := Except.ok.inj h
    exact phraseReads_unknown

/-- The texts of members are read as their phrases, by induction on the schemas. -/
theorem textsRead_typeTexts : ∀ (members : List Schema) {texts : List String},
    LiteralsRead literal (memberLiterals members) → typeTexts members = .ok texts →
      TextsRead (phrases literal members) texts
  | [], texts, _, h => by
    obtain rfl := Except.ok.inj h
    exact .nil
  | member :: rest, texts, hread, h => by
    obtain ⟨first, others, hfirst, hothers, rfl⟩ := Outcome.seq_eq_ok.1 h
    rw [memberLiterals, LiteralsRead, List.forall_mem_append] at hread
    exact .cons (phraseReads_typeText member hread.1 hfirst)
      (textsRead_typeTexts rest hread.2 hothers)

theorem fieldsRead_fieldTexts (required : List String) :
    ∀ (properties : List (String × Schema)) {texts : List String},
      LiteralsRead literal (fieldLiterals properties) →
        fieldTexts required properties = .ok texts →
          FieldsRead (fieldEntries literal required properties) texts
  | [], texts, _, h => by
    obtain rfl := Except.ok.inj h
    exact .nil
  | (name, schema) :: rest, texts, hread, h => by
    obtain ⟨type, others, htype, hothers, rfl⟩ := Outcome.seq_eq_ok.1 h
    rw [fieldLiterals, LiteralsRead, List.forall_mem_append] at hread
    exact .cons (phraseReads_typeText schema hread.1 htype)
      (fieldsRead_fieldTexts required rest hread.2 hothers)

end

end Types

/-! ## Every text is read -/

/-- What the text of a literal is read as. -/
def readLiteral (value : Literal) : TypeTree :=
  match value.text.get with
  | .ok text => (TypeTree.read text).getD .never
  | .error _ => .never

/-- What a text is read as is what the reader of literals gives. -/
theorem readLiteral_of_unitReads {value : Literal} {text : String} {t : TypeTree}
    (htext : value.text.get = .ok text) (h : UnitReads t text.toList) : readLiteral value = t := by
  have hread : TypeTree.read text = some t := TypeTree.read_of_phraseReads (.unit h)
  rw [readLiteral, htext]
  dsimp only
  rw [hread, Option.getD_some]

theorem exists_unitReads_literal {value : Literal} {text : String}
    (h : value.text.get = .ok text) : ∃ t, UnitReads t text.toList :=
  Datum.exists_unitReads_literalText (value.text_eq ▸ h)

theorem unitReads_readLiteral {value : Literal} {text : String} (h : value.text.get = .ok text) :
    UnitReads (readLiteral value) text.toList := by
  obtain ⟨t, ht⟩ := exists_unitReads_literal h
  rw [readLiteral_of_unitReads h ht]
  exact ht

theorem isUnit_readLiteral (value : Literal) : (readLiteral value).IsUnit := by
  cases htext : value.text.get with
  | error fault =>
    rw [readLiteral, htext]
    exact ⟨id, id⟩
  | ok text => exact (unitReads_readLiteral htext).isUnit

/-- The text of every schema is read as its phrase. -/
theorem phraseReads_of_typeText {schema : Schema} {text : String}
    (h : schema.typeText = .ok text) : PhraseReads (schema.phrase readLiteral) text.toList :=
  phraseReads_typeText schema (fun _ _ _ htext => unitReads_readLiteral htext) h

theorem textsRead_of_typeTexts {members : List Schema} {texts : List String}
    (h : typeTexts members = .ok texts) : TextsRead (phrases readLiteral members) texts :=
  textsRead_typeTexts members (fun _ _ _ htext => unitReads_readLiteral htext) h

/-- Texts that are read as phrases are read as the trees of these phrases. -/
theorem map_read_of_textsRead {ps : List Phrase} {texts : List String} (h : TextsRead ps texts) :
    texts.map TypeTree.read = (ps.map Phrase.tree).map some := by
  induction h with
  | nil => rfl
  | cons h _ ih =>
    rw [List.map_cons, List.map_cons, List.map_cons, TypeTree.read_of_phraseReads h, ih]

/-! ## Operators that group -/

/-- The text of an array is read as an array of the items exactly if the text of the items has no
operator on its outermost level. -/
theorem read_array_iff {items : Schema} {text : String} (h : items.typeText = .ok text) :
    ∃ tree arrayText, TypeTree.read text = some tree ∧
      (Schema.array (some items)).typeText = .ok arrayText ∧
        (TypeTree.read arrayText = some (.array tree) ↔
          items.hasOr = false ∧ items.hasAnd = false) := by
  have hreads := phraseReads_of_typeText h
  have harray : (Schema.array (some items)).typeText = .ok (arrayText text) :=
    Outcome.map_eq_ok.2 ⟨text, h, rfl⟩
  refine ⟨_, _, TypeTree.read_of_phraseReads hreads, harray, ?_⟩
  rw [TypeTree.read_of_phraseReads (phraseReads_of_typeText harray), Option.some_inj, phrase,
    Phrase.tree_arrayed_iff hreads.proper, isUnit_tree_phrase isUnit_readLiteral]

/-- The text of an intersection is read as the intersection of the members exactly if there is only
one of them or none has an `|` on the outermost level of its text. -/
theorem read_intersection_iff {members : List Schema} {text : String} (hne : members ≠ [])
    (h : (Schema.intersection members).typeText = .ok text) :
    ∃ texts trees, typeTexts members = .ok texts ∧
      texts.map TypeTree.read = trees.map some ∧
        (TypeTree.read text = some (TypeTree.meet trees) ↔
          members.length = 1 ∨ ∀ member ∈ members, member.hasOr = false) := by
  obtain ⟨texts, htexts, -⟩ := Outcome.map_eq_ok.1 h
  refine ⟨texts, _, htexts, map_read_of_textsRead (textsRead_of_typeTexts htexts), ?_⟩
  -- There is a member, so the phrase is not the name for none.
  have hphrases : phrases readLiteral members ≠ [] := by
    rw [phrases_eq_map]
    simpa using hne
  have hallOf : phrase readLiteral (.intersection members) =
      Phrase.glueAll (phrases readLiteral members) := if_neg (by simpa using hphrases)
  have hproper := proper_phrases isUnit_readLiteral members
  rw [TypeTree.read_of_phraseReads (phraseReads_of_typeText h), Option.some_inj, hallOf,
    Phrase.tree_glueAll_iff hphrases hproper, phrases_eq_map, List.length_map, List.forall_mem_map]
  simp only [hasOr_phrase isUnit_readLiteral, Bool.not_eq_true]

/-- An array and an intersection are read as what they are made of exactly if no operator comes out
of the items of the array, and no `|` out of several members of the intersection. -/
theorem groups_iff_no_operator (items : Schema) (members : List Schema) :
    (∀ text, items.typeText = .ok text →
      ∃ tree arrayText, TypeTree.read text = some tree ∧
        (Schema.array (some items)).typeText = .ok arrayText ∧
          (TypeTree.read arrayText = some (.array tree) ↔
            items.hasOr = false ∧ items.hasAnd = false)) ∧
    (∀ text, members ≠ [] → (Schema.intersection members).typeText = .ok text →
      ∃ texts trees, typeTexts members = .ok texts ∧
        texts.map TypeTree.read = trees.map some ∧
          (TypeTree.read text = some (TypeTree.meet trees) ↔
            members.length = 1 ∨ ∀ member ∈ members, member.hasOr = false)) :=
  ⟨fun _ h => read_array_iff h, fun _ hne h => read_intersection_iff hne h⟩

/-- A union of two types. -/
def stringOrNumber : Schema := .union .anyOf [.primitive .string, .primitive .number]

theorem typeText_stringOrNumber : stringOrNumber.typeText = .ok "string | number" := by
  decide +kernel

theorem groups_iff_no_operator_stringOrNumber :
    (∃ tree arrayText, TypeTree.read "string | number" = some tree ∧
      (Schema.array (some stringOrNumber)).typeText = .ok arrayText ∧
        TypeTree.read arrayText ≠ some (.array tree)) ∧
    ∃ texts trees, typeTexts [.array (some (.primitive .string)), .record .unknown] = .ok texts ∧
      texts.map TypeTree.read = trees.map some ∧
        TypeTree.read "string[] & Record<string, unknown>" = some (TypeTree.meet trees) := by
  constructor
  · obtain ⟨tree, arrayText, htree, harray, hiff⟩ :=
      (groups_iff_no_operator stringOrNumber []).1 "string | number" typeText_stringOrNumber
    refine ⟨tree, arrayText, htree, harray, ?_⟩
    -- The union has an `|` on its outermost level.
    intro hread
    exact absurd (hiff.1 hread).1 (by decide)
  · have htext : (Schema.intersection
        [.array (some (.primitive .string)), .record .unknown]).typeText =
          .ok "string[] & Record<string, unknown>" := by
      decide +kernel
    obtain ⟨texts, trees, htexts, htrees, hiff⟩ :=
      (groups_iff_no_operator .unknown [.array (some (.primitive .string)), .record .unknown]).2 _
        (by simp) htext
    exact ⟨texts, trees, htexts, htrees, hiff.2 (.inr (by decide))⟩

/-- The text of an array of a union is read as a union. -/
theorem read_array_stringOrNumber :
    stringOrNumber.typeText = .ok "string | number" ∧
      TypeTree.read "string | number" = some (.union [.primitive .string, .primitive .number]) ∧
      (Schema.array (some stringOrNumber)).typeText = .ok "string | number[]" ∧
      TypeTree.read "string | number[]" =
        some (.union [.primitive .string, .array (.primitive .number)]) ∧
      TypeTree.read "string | number[]" ≠
        some (.array (.union [.primitive .string, .primitive .number])) := by
  have harray : (Schema.array (some stringOrNumber)).typeText = .ok "string | number[]" := by
    decide +kernel
  have hread : TypeTree.read "string | number[]" =
      some (.union [.primitive .string, .array (.primitive .number)]) :=
    TypeTree.read_of_phraseReads (phraseReads_of_typeText harray)
  refine ⟨typeText_stringOrNumber, ?_, harray, hread, ?_⟩
  · exact TypeTree.read_of_phraseReads (phraseReads_of_typeText typeText_stringOrNumber)
  · rw [hread]
    intro heq
    cases heq

end TypedRoutes.Schema
