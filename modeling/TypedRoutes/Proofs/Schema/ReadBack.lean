import TypedRoutes.Proofs.Schema.Tree
import TypedRoutes.Proofs.Schema.Written

/-!
# Types are read back

A schema of a JSON document always has a text, and if the schema is grouped, its text is read as its
tree (`read_typeText_of_grouped`).
-/

set_option autoImplicit false

namespace TypedRoutes.Schema

/-- A grouped schema whose literals are readable has a text, which is read as its tree. -/
theorem read_typeText_of_isReadable {schema : Schema}
    (hreadable : ∀ l ∈ schema.literals, l.IsReadable) (hgrouped : schema.grouped = true) :
    ∃ printed, schema.typeText = .ok printed ∧ TypeTree.read printed = some schema.tree := by
  obtain ⟨printed, hprinted⟩ := (exists_typeText_iff schema).2 fun l hl =>
    (hreadable l hl).imp fun _ h => h.1
  -- A literal has one text, so the readable one is the one that is printed.
  have hread : LiteralsRead Literal.tree schema.literals := by
    intro l hl text htext
    obtain ⟨text', htext', hread⟩ := hreadable l hl
    obtain rfl := Except.ok.inj (htext.symm.trans htext')
    exact hread
  refine ⟨printed, hprinted, ?_⟩
  rw [TypeTree.read_of_phraseReads (phraseReads_typeText schema hread hprinted),
    tree_phrase schema hgrouped]

/-- Every grouped schema of a JSON document has a text, and the whole of it is read as the tree of
the schema. -/
theorem read_typeText_of_grouped {text : String} {json : Json} (hparse : Json.parse text = .ok json)
    {v : Document.Value} {schema : Schema}
    (hdecode : ofDocument (Document.ofJson json) v = .ok schema)
    (hgrouped : schema.grouped = true) :
    ∃ printed, schema.typeText = .ok printed ∧ TypeTree.read printed = some schema.tree :=
  read_typeText_of_isReadable (isReadable_of_ofDocument (Json.wellFormed_of_parse hparse) hdecode)
    hgrouped

/-- An object with a name that needs quotes, a literal that holds an `|`, and an enumeration. -/
def quotedNames : Json :=
  .object [("type", .str "object"),
    ("properties", .object [("a b", .object [("const", .str "x | y")]),
      ("c", .object [("enum", .array [.str "; \x7d", .null])])]),
    ("required", .array [.str "c"])]

/-- The literal of an atomic value of the document. -/
def quotedLiteral (s : Scalar) : Literal :=
  Literal.ofDocument (Document.ofJson quotedNames) (.scalar s)

/-- The schema of the document. -/
def quotedSchema : Schema :=
  .fields [("a b", .literal (quotedLiteral (.str "x | y"))),
    ("c", .enumeration [quotedLiteral (.str "; \x7d"), quotedLiteral .null])] ["c"]

theorem wellFormed_quotedNames : quotedNames.WellFormed := by
  simp [quotedNames, Json.wellFormed_object, Json.wellFormed_array, Json.wellFormed_str,
    Json.wellFormed_null]

theorem read_typeText_quotedSchema :
    Json.parse quotedNames.write = .ok quotedNames ∧
      ofDocument (Document.ofJson quotedNames) (Document.ofJson quotedNames).root =
        .ok quotedSchema ∧
      quotedSchema.grouped = true ∧
      quotedSchema.typeText = .ok "\x7b 'a b'?: \"x | y\"; c: \"; \x7d\" | null \x7d" ∧
      TypeTree.read "\x7b 'a b'?: \"x | y\"; c: \"; \x7d\" | null \x7d" =
        some quotedSchema.tree := by
  have hparse := Json.parse_write wellFormed_quotedNames
  have hdecode : ofDocument (Document.ofJson quotedNames) (Document.ofJson quotedNames).root =
      .ok quotedSchema := rfl
  have htext : quotedSchema.typeText =
      .ok "\x7b 'a b'?: \"x | y\"; c: \"; \x7d\" | null \x7d" := by
    decide +kernel
  obtain ⟨printed, hprinted, hread⟩ := read_typeText_of_grouped hparse hdecode rfl
  obtain rfl := Except.ok.inj (htext.symm.trans hprinted)
  exact ⟨hparse, hdecode, rfl, htext, hread⟩

end TypedRoutes.Schema
