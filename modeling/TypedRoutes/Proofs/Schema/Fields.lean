import TypedRoutes.Proofs.Document.Keys
import TypedRoutes.Proofs.Schema.Acyclic
import TypedRoutes.Proofs.Schema.Rule
import TypedRoutes.Schema.TypeText

/-!
# Declared fields

A mapping that is decoded to an object type with fields has one field for each entry of its
properties, in their order (`Schema.Declares`), and its text shows which of them are required
(`Schema.Prints`). The name of a field is the text of its key, so a string and a key of another kind
can give one name, and so can two NaNs. No other keys can, because the keys of a loaded document are
distinct (`Schema.ofDocument_declares_fields`).
-/

set_option autoImplicit false

namespace TypedRoutes

open Document (Value)

namespace Schema

variable {doc : Document} {v : Value} {entries : List (Scalar × Value)}

/-! ## Object types -/

section Selection

variable {α ε : Type} {shape : α → Shape α} {literal : α → Literal}
  {name : Scalar → Except ε String} {decode : α → Except ε Schema} {entries : List (Scalar × α)}
  {properties : List (String × Schema)} {required : List String}

/-- A branch is decoded to fields only from properties, one after the other. -/
theorem Branch.decoded_eq_fields {branch : Branch α}
    (h : branch.decoded name decode = .ok (.fields properties required)) :
    ∃ raw, branch = .fields raw required ∧ decodeProperties name decode raw = .ok properties := by
  -- A branch is decoded to a schema of its own kind.
  cases branch with
  | fields raw names =>
    obtain ⟨fields, hfields, heq⟩ := Outcome.map_eq_ok.1 h
    obtain ⟨rfl, rfl⟩ := Schema.fields.inj heq
    exact ⟨raw, rfl, hfields⟩
  | array items =>
    cases items with
    | none => cases h
    | some items =>
      obtain ⟨inner, -, heq⟩ := Outcome.map_eq_ok.1 h
      cases heq
  | record value =>
    cases value with
    | none => cases h
    | some value =>
      obtain ⟨inner, -, heq⟩ := Outcome.map_eq_ok.1 h
      cases heq
  | _ => cases h

/-- A layer is decoded to fields only from a branch of properties. -/
theorem Layer.decoded_eq_fields {layer : Layer α}
    (h : layer.decoded literal name decode = .ok (.fields properties required)) :
    ∃ raw, layer = .branch (.fields raw required) ∧
      decodeProperties name decode raw = .ok properties := by
  cases layer with
  | branch alternative =>
    obtain ⟨raw, rfl, hraw⟩ := Branch.decoded_eq_fields h
    exact ⟨raw, rfl, hraw⟩
  | literal | enumeration => cases h
  | _ =>
    obtain ⟨inner, -, heq⟩ := Outcome.map_eq_ok.1 h
    cases heq

/-- The properties of an object and what it requires stand under their keywords. -/
theorem Branch.object_eq_fields {raw : List (Scalar × α)}
    (h : Branch.object shape entries = .fields raw required) :
    mapAt? shape "properties" entries = some raw ∧ required = requiredNames shape entries := by
  have hselects := selectsObject_object shape entries
  revert h hselects
  generalize objectKeywords shape entries = keywords
  generalize Branch.object shape entries = branch
  intro h hselects
  cases hselects with
  | patterns _ => cases h
  | properties _ hproperties =>
    obtain ⟨rfl, rfl⟩ := Branch.fields.inj h
    exact ⟨hproperties, rfl⟩
  | additional _ _ =>
    rw [Branch.additional] at h
    split at h
    · cases h
    · cases h

/-- A type name leads to properties only as those of an object. -/
theorem Branch.ofTypeName_eq_fields {typeName : String} {raw : List (Scalar × α)}
    (h : Branch.ofTypeName shape typeName entries = .fields raw required) :
    Branch.object shape entries = .fields raw required := by
  rw [Branch.ofTypeName] at h
  split at h
  · cases h
  · split at h
    · exact h
    · split at h
      · cases h
      · cases h

/-- Fields come from the mapping under `properties` and from the list under `required`. -/
theorem Layer.ofEntries_eq_fields {raw : List (Scalar × α)}
    (h : Layer.ofEntries shape entries = .branch (.fields raw required)) :
    mapAt? shape "properties" entries = some raw ∧ required = requiredNames shape entries := by
  have hselects := selects_ofEntries shape entries
  revert h hselects
  generalize winningRule? shape entries = rule
  generalize Layer.ofEntries shape entries = layer
  intro h hselects
  cases hselects with
  | typeName _ _ => exact Branch.object_eq_fields (Branch.ofTypeName_eq_fields (Layer.branch.inj h))
  | properties _ => exact Branch.object_eq_fields (Layer.branch.inj h)
  | _ => cases h

/-- Decoded properties are related to the entries one by one: the name of the key and the schema of
the value. -/
theorem forall₂_decodeProperties {raw : List (Scalar × α)}
    (h : decodeProperties name decode raw = .ok properties) :
    List.Forall₂ (fun entry field => name entry.1 = .ok field.1 ∧ decode entry.2 = .ok field.2)
      raw properties := by
  induction raw generalizing properties with
  | nil =>
    obtain rfl := Except.ok.inj h
    exact .nil
  | cons entry rest ih =>
    obtain ⟨text, htext, h⟩ := Outcome.bind_eq_ok.1 h
    obtain ⟨schema, others, hschema, hothers, rfl⟩ := Outcome.seq_eq_ok.1 h
    exact .cons ⟨htext, hschema⟩ (ih hothers)

end Selection

/-! ## Fields of loaded mappings -/

section Loaded

/-- The name is a string of the list of required names. -/
def Requires (doc : Document) (entries : List (Scalar × Value)) (name : String) : Prop :=
  ∃ items, listAt? doc.shape "required" entries = some items ∧ .scalar (.str name) ∈ items

/-- The field that an entry of the properties of a mapping gives: its name is the text of the key,
and its schema is decoded from the value, where the mapping itself is not decoded again. -/
structure Declares (doc : Document) (id : Nat) (entry : Scalar × Value) (field : String × Schema) :
    Prop where
  name : entry.1.text = .ok field.1
  schema : decodeWithin doc doc.mappingCount [id] entry.2 = .ok field.2
  alone : ¬ doc.Contains entry.2 (.node id) → ofDocument doc entry.2 = .ok field.2

/-- How a field is written: without a question mark if its name is required. -/
inductive Prints (doc : Document) (entries : List (Scalar × Value)) :
    String × Schema → String → Prop
  | required {name type : String} {schema : Schema} : Requires doc entries name →
      schema.typeText = .ok type →
        Prints doc entries (name, schema) (PropertyKey.text name ++ ": " ++ type)
  | optional {name type : String} {schema : Schema} : ¬ Requires doc entries name →
      schema.typeText = .ok type →
        Prints doc entries (name, schema) (PropertyKey.text name ++ "?: " ++ type)

variable {doc : Document} {v : Value} {entries : List (Scalar × Value)}

/-- A value is a string of the document exactly when it is that scalar. -/
theorem string?_shape_eq_some_iff {name : String} :
    string? doc.shape v = some name ↔ v = .scalar (.str name) := by
  constructor
  · intro h
    cases v with
    | scalar s =>
      cases s with
      | str text => rw [Option.some.inj h]
      | _ => cases h
    | node id =>
      rw [string?, Document.shape] at h
      split at h
      · next hshape =>
        split at hshape <;> cases hshape
      · cases h
  · rintro rfl
    rfl

/-- Entries found at a keyword are a mapping of the document. -/
theorem exists_node_of_mapAt? {keyword : String} {inner : List (Scalar × Value)}
    (h : mapAt? doc.shape keyword entries = some inner) :
    ∃ id : Nat, doc.nodes[id]? = some (Document.Node.map inner) := by
  obtain ⟨value, hvalue⟩ := exists_shape_of_mapAt? h
  have hentries : (doc.shape value).entries? = some inner := by rw [hvalue, Shape.entries?]
  rw [entries?_shape, Option.map_eq_some_iff] at hentries
  obtain ⟨⟨id, found⟩, hmapping, rfl⟩ := hentries
  exact ⟨id, (Document.exists_node_of_mapping? hmapping).2⟩

/-- The names required are those that the entries require. -/
theorem mem_requiredNames_iff {name : String} :
    name ∈ requiredNames doc.shape entries ↔ Requires doc entries name := by
  unfold requiredNames Requires
  cases listAt? doc.shape "required" entries with
  | none => simp
  | some items => simp [List.mem_eraseDups, string?_shape_eq_some_iff]

/-- The name of a property is the text of its key. -/
theorem propertyName_eq_ok_iff {key : Scalar} {name : String} :
    propertyName key = .ok name ↔ key.text = .ok name := by
  unfold propertyName
  cases key.text with
  | ok text => simp
  | error limit => simp

/-- The texts of fields are those that their names require. -/
theorem prints_fieldTexts {properties : List (String × Schema)} {fields : List String}
    (h : fieldTexts (requiredNames doc.shape entries) properties = .ok fields) :
    List.Forall₂ (Prints doc entries) properties fields := by
  induction properties generalizing fields with
  | nil =>
    obtain rfl := Except.ok.inj h
    exact .nil
  | cons field rest ih =>
    obtain ⟨type, others, htype, hothers, rfl⟩ := Outcome.seq_eq_ok.1 h
    refine .cons ?_ (ih hothers)
    by_cases hname : field.1 ∈ requiredNames doc.shape entries
    · rw [fieldText, List.contains_iff_mem.2 hname, if_pos rfl, String.append_empty]
      exact .required (mem_requiredNames_iff.1 hname) htype
    · have hcontains : (requiredNames doc.shape entries).contains field.1 = false := by
        simpa using hname
      have hmark : PropertyKey.text field.1 ++ "?" ++ ": " = PropertyKey.text field.1 ++ "?: " := by
        rw [String.append_assoc]
        rfl
      rw [fieldText, hcontains, if_neg Bool.false_ne_true, hmark]
      exact .optional (fun h => hname (mem_requiredNames_iff.2 h)) htype

/-- A property that is decoded below a mapping is declared there. -/
theorem declares_of_decoded {id : Nat} {entry : Scalar × Value} {field : String × Schema}
    (hid : doc.nodes[id]? = some (.map entries)) (hname : propertyName entry.1 = .ok field.1)
    (hschema : decodeWithin doc doc.mappingCount [id] entry.2 = .ok field.2) :
    Declares doc id entry field where
  name := propertyName_eq_ok_iff.1 hname
  schema := hschema
  alone hcontains := by
    -- The mapping itself is not contained in the value, so it makes no difference that it is
    -- active, and without it the depth is still enough.
    have henough : doc.idle Document.Node.isMap [id] < doc.mappingCount := by
      have hless : doc.idle Document.Node.isMap [id] < doc.idle Document.Node.isMap [] :=
        Document.idle_cons_lt hid rfl List.not_mem_nil
      rwa [Document.idle_nil] at hless
    have htop : decodeWithin doc (doc.mappingCount + 1) [] entry.2 = .ok field.2 := by
      rw [← hschema, ← decodeWithin_eq_of_idle_lt henough (Nat.le_succ _)]
      refine decodeWithin_congr_active fun other hother => ?_
      rw [List.mem_singleton]
      refine iff_of_false List.not_mem_nil ?_
      rintro rfl
      exact hcontains hother
    rw [ofDocument, htop]

/-- The names of fields whose keys are strings are those strings. -/
theorem keys_of_declares {id : Nat} {raw : List (Scalar × Value)}
    {properties : List (String × Schema)} (h : List.Forall₂ (Declares doc id) raw properties)
    (hstrings : ∀ entry ∈ raw, entry.1.isString = true) :
    raw.map Prod.fst = (properties.map Prod.fst).map Scalar.str := by
  induction h with
  | nil => rfl
  | @cons entry field rest others hfirst _ ih =>
    rw [List.forall_mem_cons] at hstrings
    rw [List.map_cons, List.map_cons, List.map_cons, ih hstrings.2]
    obtain ⟨key, value⟩ := entry
    cases key with
    | str name => rw [Except.ok.inj hfirst.name]
    | _ => cases hstrings.1

/-- In a JSON document every key is a string. -/
theorem isString_of_isWrittenIn {limits : Limits} {path : FilePath} {text : String}
    (hpath : path.isYaml = false) (hdoc : Document.IsWrittenIn limits path text doc) {id : Nat}
    {raw : List (Scalar × Value)} (hnode : doc.nodes[id]? = some (.map raw)) :
    ∀ entry ∈ raw, entry.1.isString = true := by
  cases hdoc with
  | yaml hyaml => cases hpath.symm.trans hyaml
  | json _ hj =>
    have hwellFormed := Json.wellFormed_of_parse (Json.parse_of_parseWithin hj)
    obtain ⟨names, -, hkeys⟩ := Document.exists_names_ofJson hwellFormed hnode
    intro entry hentry
    have hkey : entry.1 ∈ names.map Scalar.str := hkeys ▸ List.mem_map_of_mem hentry
    obtain ⟨name, -, hname⟩ := List.mem_map.1 hkey
    rw [← hname]
    rfl

/-- A mapping of a loaded document that is decoded to an object type with fields declares them: one
field for each entry of its properties, in their order. Fields have one name only if one key is a
string and the other is none, or if both are NaNs, so never in JSON. A field is written without a
question mark if and only if its name, which for a string is its key, is in the list of required
names. -/
theorem ofDocument_declares_fields {limits : Limits} {path : FilePath} {text : String}
    {properties : List (String × Schema)} {required : List String}
    (hdoc : Document.IsWrittenIn limits path text doc)
    (h : ofDocument doc v = .ok (.fields properties required)) :
    ∃ (id : Nat) (entries raw : List (Scalar × Value)),
      doc.mapping? v = some (id, entries) ∧ mapAt? doc.shape "properties" entries = some raw ∧
      List.Forall₂ (Declares doc id) raw properties ∧
      (raw.map Prod.fst).Pairwise (fun a b => ∀ name, a.text = .ok name → b.text = .ok name →
        a.isString ≠ b.isString ∨ a = .float .nan ∧ b = .float .nan) ∧
      (path.isYaml = false ∨ (∀ entry ∈ raw, entry.1.isString = true) →
        (properties.map Prod.fst).Nodup) ∧
      ∀ type, (Schema.fields properties required).typeText = .ok type →
        ∃ fields, List.Forall₂ (Prints doc entries) properties fields ∧
          type = objectText fields := by
  have hdecoded : decodeWithin doc (doc.mappingCount + 1) [] v =
      .ok (.fields properties required) := by
    rw [ofDocument] at h
    split at h
    · next hdecoded => rw [hdecoded, Except.ok.inj h]
    · cases h
    · cases h
  rw [decodeWithin] at hdecoded
  cases hv : doc.mapping? v with
  | none =>
    rw [hv] at hdecoded
    cases hdecoded
  | some mapping =>
    obtain ⟨id, entries⟩ := mapping
    obtain ⟨-, hnode⟩ := Document.exists_node_of_mapping? hv
    rw [hv] at hdecoded
    simp only [if_neg List.not_mem_nil] at hdecoded
    obtain ⟨raw, hlayer, hraw⟩ := Layer.decoded_eq_fields hdecoded
    obtain ⟨hproperties, rfl⟩ := Layer.ofEntries_eq_fields hlayer
    have hdeclares : List.Forall₂ (Declares doc id) raw properties :=
      (forall₂_decodeProperties hraw).imp fun _ _ hfield =>
        declares_of_decoded hnode hfield.1 hfield.2
    -- The properties are a mapping of the document themselves.
    obtain ⟨inner, hinner⟩ := exists_node_of_mapAt? hproperties
    have htexts : (raw.map Prod.fst).Pairwise _ :=
      (hdoc.hasDistinctKeys inner _ hinner).pairwise_text
    refine ⟨id, entries, raw, rfl, hproperties, hdeclares, htexts, ?_, ?_⟩
    · intro hstrings
      have hstrings : ∀ entry ∈ raw, entry.1.isString = true := by
        rcases hstrings with hpath | hstrings
        · exact isString_of_isWrittenIn hpath hdoc hinner
        · exact hstrings
      rw [keys_of_declares hdeclares hstrings, List.pairwise_map] at htexts
      refine htexts.imp fun hname heq => ?_
      subst heq
      rcases hname _ rfl rfl with hkinds | ⟨hnan, -⟩
      · exact hkinds rfl
      · cases hnan
    · intro type htype
      obtain ⟨fields, hfields, rfl⟩ := Outcome.map_eq_ok.1 htype
      exact ⟨fields, prints_fieldTexts hfields, rfl⟩

-- Two NaNs of different nodes are two keys, so there can be two fields of that name.
example : (do
    let doc ← (Document.ofYaml .usual
      "properties: \x7b!!float nan : \x7b\x7d, !!float nan : \x7b\x7d\x7d").toOption
    let schema ← (ofDocument doc doc.root).toOption
    schema.typeText.toOption) = some "\x7b nan?: unknown; nan?: unknown \x7d" := by
  decide +kernel

/-- A YAML text in which a boolean and a string have the same text as keys. -/
def collidingKeysText : String :=
  "properties: \x7bid: \x7btype: string\x7d, true: \x7b\x7d, 'True': \x7b\x7d\x7d\n" ++
    "required: [id, true, id]\n"

/-- The document of that text. -/
def collidingKeys : Document where
  nodes := #[
    .map [(.str "properties", .node 2), (.str "required", .node 12)],
    .list [],
    .map [(.str "id", .node 4), (.bool true, .node 8), (.str "True", .node 10)],
    .list [],
    .map [(.str "type", .scalar (.str "string"))],
    .list [], .list [], .list [],
    .map [],
    .list [],
    .map [],
    .list [],
    .list [.scalar (.str "id"), .scalar (.bool true), .scalar (.str "id")],
    .list [], .list [], .list []]
  root := .node 0

theorem ofYaml_collidingKeysText :
    Document.ofYaml .usual collidingKeysText = .ok collidingKeys := by
  have hparts : (Document.ofYaml .usual collidingKeysText).toOption.map
      (fun doc => (doc.nodes.toList, doc.root)) =
        some (collidingKeys.nodes.toList, collidingKeys.root) := by
    decide +kernel
  cases hdoc : Document.ofYaml .usual collidingKeysText with
  | error fault =>
    rw [hdoc] at hparts
    cases hparts
  | ok doc =>
    rw [hdoc] at hparts
    obtain ⟨nodes, root⟩ := doc
    obtain ⟨hnodes, hroot⟩ := Prod.mk.inj (Option.some.inj hparts)
    rw [show nodes = _ from Array.toList_inj.1 hnodes, show root = _ from hroot]

/-- The field of the key `true` has a question mark although `true` is in the list of required
names, and it has the name of the field of the key `True`, a string. -/
theorem fields_collidingKeys :
    Document.ofYaml .usual collidingKeysText = .ok collidingKeys ∧
    ∃ entries raw items properties required,
      collidingKeys.mapping? collidingKeys.root = some (0, entries) ∧
      mapAt? collidingKeys.shape "properties" entries = some raw ∧
      listAt? collidingKeys.shape "required" entries = some items ∧
      (.bool true, .node 8) ∈ raw ∧ .scalar (.bool true) ∈ items ∧
      ofDocument collidingKeys collidingKeys.root = .ok (.fields properties required) ∧
      (Schema.fields properties required).typeText =
        .ok "\x7b id: string; True?: unknown; True?: unknown \x7d" ∧
      ¬ (properties.map Prod.fst).Nodup := by
  refine ⟨ofYaml_collidingKeysText, _, _, _, _, _, rfl, rfl, rfl, ?_, ?_, rfl, rfl, ?_⟩
  · decide
  · decide
  · decide

theorem ofDocument_declares_fields_collidingKeys :
    ∃ properties required,
      Document.IsWrittenIn .usual (FilePath.ofText "c.yaml") collidingKeysText collidingKeys ∧
      ofDocument collidingKeys collidingKeys.root = .ok (.fields properties required) ∧
      ∃ (id : Nat) (entries raw : List (Scalar × Value)),
        collidingKeys.mapping? collidingKeys.root = some (id, entries) ∧
        mapAt? collidingKeys.shape "properties" entries = some raw ∧
        List.Forall₂ (Declares collidingKeys id) raw properties ∧
        ∃ fields, List.Forall₂ (Prints collidingKeys entries) properties fields := by
  have hdoc :
      Document.IsWrittenIn .usual (FilePath.ofText "c.yaml") collidingKeysText collidingKeys :=
    .yaml (by decide +kernel) ofYaml_collidingKeysText
  obtain ⟨id, entries, raw, hmapping, hraw, hdeclares, -, -, hprinted⟩ :=
    ofDocument_declares_fields (v := collidingKeys.root) hdoc rfl
  obtain ⟨fields, hprints, -⟩ := hprinted _ rfl
  exact ⟨_, _, hdoc, rfl, id, entries, raw, hmapping, hraw, hdeclares, fields, hprints⟩

end Loaded

end Schema

end TypedRoutes
