import TypedRoutes.Proofs.Document.Nodes
import TypedRoutes.Proofs.Document.Store
import TypedRoutes.Proofs.Schema.Reading
import TypedRoutes.Schema.OfDocument

/-!
# Literals of decoded schemas

The literals of one level of a decoded schema are those of the values under `const` and `enum`, and
the literals of its parts (`Layer.forall_literals`). In a document of a JSON value these values are
JSON values, so every literal of a schema of the document has a text, which is read as the tree of
the literal (`isReadable_of_ofDocument`).
-/

set_option autoImplicit false

namespace TypedRoutes

/-- The literal has a text, which is read as its tree. -/
def Literal.IsReadable (l : Literal) : Prop :=
  ∃ text, l.text.get = .ok text ∧ TypeTree.UnitReads l.tree text.toList

/-- The literal of a JSON value can be read back. -/
theorem Literal.isReadable_ofDocument {doc : Document} {v : Document.Value} (h : doc.IsJson v) :
    (Literal.ofDocument doc v).IsReadable := by
  obtain ⟨j, hj, htree⟩ := h
  have hvalue : (Literal.ofDocument doc v).value.get = j.toDatum := htree
  obtain ⟨text, htext, hread⟩ := Json.unitReads_literalTree hj
  refine ⟨text, ?_, ?_⟩
  · rw [Literal.text_eq, hvalue, htext]
  · rw [Literal.tree, hvalue]
    exact hread

namespace Schema

/-- The values that a level has as literals. -/
def Layer.values {α : Type} : Layer α → List α
  | .literal value => [value]
  | .enumeration values => values
  | _ => []

/-! ## Literals of the parts -/

/-- What holds of the literals of every member holds of all of them. -/
theorem forall_memberLiterals {P : Literal → Prop} {members : List Schema}
    (h : ∀ member ∈ members, ∀ l ∈ member.literals, P l) : ∀ l ∈ memberLiterals members, P l := by
  induction members with
  | nil => simp [memberLiterals]
  | cons member rest ih =>
    rw [List.forall_mem_cons] at h
    exact List.forall_mem_append.2 ⟨h.1, ih h.2⟩

section Decoding

variable {α ε : Type} {literal : α → Literal} {name : Scalar → Except ε String}
  {decode : α → Except ε Schema} {P : Literal → Prop}

/-- What holds of the literals of every decoded part holds of the literals of the members. -/
theorem forall_literals_of_mapM {β : Type} {f : β → Except ε Schema} {parts : List β}
    {members : List Schema} (hpart : ∀ part s, f part = .ok s → ∀ l ∈ s.literals, P l)
    (h : parts.mapM f = .ok members) : ∀ l ∈ memberLiterals members, P l := by
  apply forall_memberLiterals
  intro member hmember
  obtain ⟨part, -, hpart'⟩ := Outcome.exists_mem_of_mapM h member hmember
  exact hpart part member hpart'

variable (hdecode : ∀ v s, decode v = .ok s → ∀ l ∈ s.literals, P l)

include hdecode

/-- What holds of the literals of every decoded property holds of the literals of the fields. -/
theorem forall_fieldLiterals {entries : List (Scalar × α)} {properties : List (String × Schema)}
    (h : decodeProperties name decode entries = .ok properties) :
    ∀ l ∈ fieldLiterals properties, P l := by
  induction entries generalizing properties with
  | nil =>
    obtain rfl := Except.ok.inj h
    simp [fieldLiterals]
  | cons entry rest ih =>
    obtain ⟨text, -, h⟩ := Outcome.bind_eq_ok.1 h
    obtain ⟨schema, others, hschema, hothers, rfl⟩ := Outcome.seq_eq_ok.1 h
    exact List.forall_mem_append.2 ⟨hdecode _ _ hschema, ih hothers⟩

/-- What holds of the literals of every decoded part holds of those of the branch. -/
theorem Branch.forall_literals {branch : Branch α} {schema : Schema}
    (h : branch.decoded name decode = .ok schema) : ∀ l ∈ schema.literals, P l := by
  -- Only the schemas of items, properties and values have literals, and these are decoded parts.
  cases branch with
  | primitive kind =>
    obtain rfl := Except.ok.inj h
    exact nofun
  | array items =>
    cases items with
    | none =>
      obtain rfl := Except.ok.inj h
      exact nofun
    | some items =>
      obtain ⟨inner, hinner, rfl⟩ := Outcome.map_eq_ok.1 h
      exact hdecode items inner hinner
  | fields entries required =>
    obtain ⟨properties, hproperties, rfl⟩ := Outcome.map_eq_ok.1 h
    exact forall_fieldLiterals hdecode hproperties
  | record value =>
    cases value with
    | none =>
      obtain rfl := Except.ok.inj h
      exact nofun
    | some value =>
      obtain ⟨inner, hinner, rfl⟩ := Outcome.map_eq_ok.1 h
      exact hdecode value inner hinner
  | unknown =>
    obtain rfl := Except.ok.inj h
    exact nofun

/-- The literals of a level are its values and the literals of its parts. -/
theorem Layer.forall_literals {layer : Layer α} {schema : Schema}
    (hvalues : ∀ value ∈ layer.values, P (literal value))
    (h : layer.decoded literal name decode = .ok schema) : ∀ l ∈ schema.literals, P l := by
  cases layer with
  | literal value =>
    obtain rfl := Except.ok.inj h
    exact List.forall_mem_singleton.2 (hvalues value (List.mem_singleton_self value))
  | enumeration values =>
    obtain rfl := Except.ok.inj h
    exact List.forall_mem_map.2 hvalues
  | union keyword members =>
    obtain ⟨schemas, hschemas, rfl⟩ := Outcome.map_eq_ok.1 h
    exact forall_literals_of_mapM hdecode hschemas
  | intersection members =>
    obtain ⟨schemas, hschemas, rfl⟩ := Outcome.map_eq_ok.1 h
    exact forall_literals_of_mapM hdecode hschemas
  | branch alternative => exact Branch.forall_literals hdecode h
  | branches alternatives =>
    obtain ⟨schemas, hschemas, rfl⟩ := Outcome.map_eq_ok.1 h
    exact forall_literals_of_mapM (fun _ _ => Branch.forall_literals hdecode) hschemas

end Decoding

section Selection

variable {α : Type} {shape : α → Shape α} {entries : List (Scalar × α)} {P : α → Prop}

/-- What holds of the values of a mapping holds of the one at a keyword. -/
theorem forall_field? {keyword : String} {value : α} (hentries : ∀ e ∈ entries, P e.2)
    (h : field? keyword entries = some value) : P value := by
  obtain ⟨entry, hentry, rfl⟩ := Option.map_eq_some_iff.1 h
  exact hentries entry (List.mem_of_find?_eq_some hentry)

/-- A layer that is declared by type names holds no literal values. -/
theorem values_declared : (Layer.declared shape entries).values = [] := by
  unfold Layer.declared
  split
  · rfl
  · split
    · rfl
    · rfl
  · rfl

/-- The values of the level of a mapping are entries of it or items of a list among them. -/
theorem forall_values_ofEntries (hentries : ∀ e ∈ entries, P e.2)
    (hlist : ∀ value items, shape value = .list items → ∀ item ∈ items, P item) :
    ∀ value ∈ (Layer.ofEntries shape entries).values, P value := by
  unfold Layer.ofEntries
  split
  · next value hvalue => exact List.forall_mem_singleton.2 (forall_field? hentries hvalue)
  · split
    · next values hvalues =>
      unfold listAt? at hvalues
      split at hvalues
      · next items hitems =>
        obtain rfl := Option.some.inj hvalues
        obtain ⟨value, -, hshape⟩ := Option.map_eq_some_iff.1 hitems
        exact hlist value items hshape
      · cases hvalues
    -- The other keywords give levels without values.
    · split
      · exact nofun
      · split
        · exact nofun
        · split
          · exact nofun
          · rw [values_declared]
            exact nofun

end Selection

/-! ## Literals of a decoded schema -/

section Documents

variable {doc : Document} {P : Document.Value → Prop} {Q : Literal → Prop}

/-- A property of the values of a document is handed down to the literals of its schemas, by
induction on the depth. -/
theorem forall_literals_of_decodeWithin
    (hmapping : ∀ v id entries, doc.mapping? v = some (id, entries) → ∀ e ∈ entries, P e.2)
    (hlist : ∀ v items, doc.shape v = .list items → ∀ item ∈ items, P item)
    (hliteral : ∀ v, P v → Q (Literal.ofDocument doc v)) (depth : Nat) :
    ∀ (active : List Nat) (v : Document.Value) (schema : Schema),
      decodeWithin doc depth active v = .ok schema → ∀ l ∈ schema.literals, Q l := by
  -- The parts of a level are decoded with one level less.
  induction depth with
  | zero => exact fun _ _ _ hdecode => nomatch hdecode
  | succ depth ih =>
    intro active v schema hdecode
    rw [decodeWithin] at hdecode
    split at hdecode
    · obtain rfl := Except.ok.inj hdecode
      exact nofun
    · next id entries hentries =>
      split at hdecode
      · obtain rfl := Except.ok.inj hdecode
        exact nofun
      -- Every value of the level comes from the mapping.
      · refine Layer.forall_literals (ih (id :: active)) (fun value hvalue => ?_) hdecode
        exact hliteral value
          (forall_values_ofEntries (hmapping v id entries hentries) hlist value hvalue)

/-- The literals of a schema of a document are those of values that mappings and lists of the
document hold. -/
theorem forall_literals_of_ofDocument
    (hmapping : ∀ v id entries, doc.mapping? v = some (id, entries) → ∀ e ∈ entries, P e.2)
    (hlist : ∀ v items, doc.shape v = .list items → ∀ item ∈ items, P item)
    (hliteral : ∀ v, P v → Q (Literal.ofDocument doc v)) {v : Document.Value} {schema : Schema}
    (h : ofDocument doc v = .ok schema) : ∀ l ∈ schema.literals, Q l := by
  unfold ofDocument at h
  split at h
  · next schema' hdecode =>
    obtain rfl := Except.ok.inj h
    exact forall_literals_of_decodeWithin hmapping hlist hliteral _ _ _ _ hdecode
  · obtain rfl := Except.ok.inj h
    exact nofun
  · cases h

end Documents

end Schema

/-! ## Documents of JSON values -/

/-- The literals of a schema of a document of a JSON value are readable. -/
theorem Schema.isReadable_of_ofDocument {json : Json} (hjson : json.WellFormed)
    {v : Document.Value} {schema : Schema}
    (h : ofDocument (Document.ofJson json) v = .ok schema) :
    ∀ l ∈ schema.literals, l.IsReadable := by
  have hstored := Document.stored_ofJson hjson
  refine forall_literals_of_ofDocument (fun v id entries hentries => ?_) (fun v items hitems => ?_)
    (fun _ => Literal.isReadable_ofDocument) h
  · exact Document.isJson_of_map hstored (Document.exists_node_of_mapping? hentries).2
  · obtain ⟨id, -, hnode⟩ := Document.exists_node_of_shape_list hitems
    exact Document.isJson_of_list hstored hnode

end TypedRoutes
