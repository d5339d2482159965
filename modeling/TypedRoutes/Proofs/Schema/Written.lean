import TypedRoutes.Proofs.Document.Contents
import TypedRoutes.Proofs.Schema.Decoded

/-!
# Schemas with a text

A schema has a text if and only if all its literals have (`exists_typeText_iff`), and the literal of
a value of a document has one unless the value contains a cycle or a key without a name
(`Literal.exists_text_ofDocument_iff`).
-/

set_option autoImplicit false

namespace TypedRoutes

/-- The literal of a value has a text if and only if the value can be written. -/
theorem Literal.exists_text_ofDocument_iff {doc : Document} (hdoc : doc.isWithinLimit = true)
    {v : Document.Value} (hscalar : ∀ s, v = .scalar s → s.isWithinLimit = true) :
    (∃ text, (ofDocument doc v).text.get = .ok text) ↔ ¬ doc.IsUnwritable v := by
  cases v with
  | scalar s =>
    have hform : ∃ j, (Datum.scalar s).toJson = .ok j := Scalar.exists_toJson (hscalar s rfl)
    obtain ⟨j, hj⟩ := hform
    exact ⟨fun _ => (Document.Plain.scalar s).not_isUnwritable,
      fun _ => Datum.exists_literalText hj⟩
  | node id => exact Outcome.exists_map_iff.trans (Document.exists_fold_jsonFold_iff hdoc hscalar)

namespace Schema

theorem exists_literalTexts_iff {values : List Literal} :
    (∃ texts, literalTexts values = .ok texts) ↔ ∀ l ∈ values, ∃ text, l.text.get = .ok text := by
  induction values with
  | nil => exact ⟨fun _ => nofun, fun _ => ⟨[], rfl⟩⟩
  | cons value rest ih =>
    rw [List.forall_mem_cons, ← ih]
    exact Outcome.exists_seq_iff

mutual

/-- A schema has a text if and only if its literals have. -/
theorem exists_typeText_iff : ∀ schema : Schema,
    (∃ text, schema.typeText = .ok text) ↔
      ∀ l ∈ schema.literals, ∃ text, l.text.get = .ok text
  | .primitive kind => ⟨fun _ => nofun, fun _ => ⟨kind.name, rfl⟩⟩
  | .literal value => by
    rw [literals, List.forall_mem_singleton]
    rfl
  | .enumeration values => Outcome.exists_map_iff.trans exists_literalTexts_iff
  | .array none => ⟨fun _ => nofun, fun _ => ⟨_, rfl⟩⟩
  | .array (some items) => Outcome.exists_map_iff.trans (exists_typeText_iff items)
  | .fields properties required =>
    Outcome.exists_map_iff.trans (exists_fieldTexts_iff required properties)
  | .record value => Outcome.exists_map_iff.trans (exists_typeText_iff value)
  | .union _ members => Outcome.exists_map_iff.trans (exists_typeTexts_iff members)
  | .intersection members => Outcome.exists_map_iff.trans (exists_typeTexts_iff members)
  | .unknown => ⟨fun _ => nofun, fun _ => ⟨_, rfl⟩⟩

/-- The texts of members can be written exactly when all their literals can, by induction on the
schemas. -/
theorem exists_typeTexts_iff : ∀ members : List Schema,
    (∃ texts, typeTexts members = .ok texts) ↔
      ∀ l ∈ memberLiterals members, ∃ text, l.text.get = .ok text
  | [] => ⟨fun _ => nofun, fun _ => ⟨[], rfl⟩⟩
  | member :: rest => by
    rw [memberLiterals, List.forall_mem_append, ← exists_typeText_iff member,
      ← exists_typeTexts_iff rest]
    exact Outcome.exists_seq_iff

theorem exists_fieldTexts_iff (required : List String) : ∀ properties : List (String × Schema),
    (∃ texts, fieldTexts required properties = .ok texts) ↔
      ∀ l ∈ fieldLiterals properties, ∃ text, l.text.get = .ok text
  | [] => ⟨fun _ => nofun, fun _ => ⟨[], rfl⟩⟩
  | (_, schema) :: rest => by
    rw [fieldLiterals, List.forall_mem_append, ← exists_typeText_iff schema,
      ← exists_fieldTexts_iff required rest]
    exact Outcome.exists_seq_iff

end

end Schema
end TypedRoutes
