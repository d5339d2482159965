import TypedRoutes.Proofs.Document.Store
import TypedRoutes.Proofs.Schema.Literal
import TypedRoutes.Proofs.Schema.Parts
import TypedRoutes.Schema.OfDocument
import TypedRoutes.Schema.TypeText

/-!
# Literals give their values back

The type of a schema with a `const` is the text of its value, and reading it as JSON gives the value
again. The type of a schema with an `enum` is the texts of its values with ` | ` between them, which
`Json.parseAlternatives` reads as these values: a value ends where its own text says so, so it does
not matter that strings may hold the separator (`Schema.ofDocument_gives_values_back`).
-/

set_option autoImplicit false

namespace TypedRoutes

namespace Json

/-! ## Values that a separator divides -/

/-- Values with ` | ` between them, up to the end of the text, of which there are fewer than
`steps`. -/
def Reader.alternatives : (steps : Nat) → List Char → Option (List Json)
  | 0, _ => none
  | steps + 1, cs =>
    match value none (2 * cs.length + 2) cs with
    | .ok (j, []) => some [j]
    | .ok (j, rest) =>
      match after? " | " rest with
      | some left => (alternatives steps left).map fun others => j :: others
      | none => none
    | .error _ => none

/-- Reads JSON values that ` | ` divides. -/
def parseAlternatives (text : String) : Option (List Json) :=
  Reader.alternatives (text.toList.length + 1) text.toList

namespace Reader

/-- The text of a well-formed value is read as the value, whatever follows that ends a numeral. -/
theorem value_write_of_wellFormed {j : Json} (h : j.WellFormed) {rest : List Char}
    (hrest : NumeralEnd rest) :
    value none (2 * (j.write.toList ++ rest).length + 2) (j.write.toList ++ rest) =
      .ok (j, rest) := by
  obtain ⟨k, hk, hreads⟩ := value_write j h.within
  obtain rfl := hk h.canonical
  refine hreads hrest ?_
  rw [List.length_append]
  omega

theorem alternatives_singleton {j : Json} (h : j.WellFormed) (steps : Nat) :
    alternatives (steps + 1) j.write.toList = some [j] := by
  have hvalue := value_write_of_wellFormed h Text.stops_nil
  rw [List.append_nil] at hvalue
  rw [alternatives, hvalue]

/-- The first alternative is read up to the bar, and the others behind it. -/
theorem alternatives_cons {j : Json} (h : j.WellFormed) (steps : Nat) (left : List Char) :
    alternatives (steps + 1) (j.write.toList ++ (" | ".toList ++ left)) =
      (alternatives steps left).map fun others => j :: others := by
  have hend : NumeralEnd (" | ".toList ++ left) := numeralEnd_cons (by decide)
  have hafter : after? " | " (" | ".toList ++ left) = some left := after?_append " | " left
  rw [alternatives, value_write_of_wellFormed h hend]
  change (match after? " | " (" | ".toList ++ left) with
    | some left => (alternatives steps left).map fun others => j :: others
    | none => none) = _
  rw [hafter]

/-- Texts of well-formed values with the separator between them are read as these values. -/
theorem alternatives_intercalate {js : List Json} (hne : js ≠ []) (h : ∀ j ∈ js, j.WellFormed)
    {steps : Nat} (hsteps : (" | ".intercalate (js.map write)).toList.length < steps) :
    alternatives steps (" | ".intercalate (js.map write)).toList = some js := by
  induction js generalizing steps with
  | nil => exact absurd rfl hne
  | cons j others ih =>
    obtain ⟨hj, hothers⟩ := List.forall_mem_cons.1 h
    obtain ⟨steps, rfl⟩ := Nat.exists_eq_add_of_le' (show 1 ≤ steps by omega)
    cases others with
    | nil =>
      rw [List.map_singleton, String.intercalate_singleton]
      exact alternatives_singleton hj steps
    | cons k others =>
      rw [List.map_cons, List.map_cons, String.intercalate_cons_cons, ← List.map_cons,
        String.toList_append, String.toList_append, List.append_assoc] at hsteps ⊢
      have hshorter : (" | ".intercalate ((k :: others).map write)).toList.length < steps := by
        simp only [List.length_append] at hsteps
        have hseparator : " | ".toList.length = 3 := rfl
        omega
      rw [alternatives_cons hj, ih (List.cons_ne_nil k others) hothers hshorter, Option.map_some]

end Reader

/-- JSON values with bars between them are read back one by one. -/
theorem parseAlternatives_intercalate {js : List Json} (hne : js ≠ [])
    (h : ∀ j ∈ js, j.WellFormed) :
    parseAlternatives (" | ".intercalate (js.map write)) = some js :=
  Reader.alternatives_intercalate hne h (Nat.lt_succ_self _)

/-! ## Texts of literals -/

/-- A value as a text can give it, other than an infinite number or NaN. -/
structure IsLiteral (j : Json) : Prop where
  wellFormed : j.WellFormed
  finite : ∀ x, j = .float x → x.isFinite = true

/-- The literal of such a value is the text of the value. -/
theorem IsLiteral.literalText_toDatum {j : Json} (h : j.IsLiteral) :
    j.toDatum.literalText = .ok j.write := by
  cases j with
  | float x =>
    rw [toDatum, Datum.literalText, Binary64.literalText, if_pos (h.finite x rfl), write]
  | _ =>
    have hjson := toJson_toDatum _ h.wellFormed.within
    rw [toDatum] at hjson ⊢
    rw [Datum.literalText, hjson]
    · rfl
    · exact nofun

end Json

namespace Schema

open Document (Value)

variable {doc : Document} {s : Value} {id : Nat} {entries : List (Scalar × Value)}

/-- The value has the tree of a JSON value that has a literal. -/
structure HoldsJson (doc : Document) (v : Value) (j : Json) : Prop where
  tree : doc.unfold v = j.toDatum
  isLiteral : j.IsLiteral

/-- The literal of a value that holds JSON has the text of that JSON. -/
theorem HoldsJson.text {v : Value} {j : Json} (h : HoldsJson doc v j) :
    (Literal.ofDocument doc v).text.get = .ok j.write := by
  rw [Literal.ofDocument_eq, h.tree]
  exact h.isLiteral.literalText_toDatum

theorem wellFormed_of_holdsJson {vs : List Value} {js : List Json}
    (h : List.Forall₂ (HoldsJson doc) vs js) : ∀ j ∈ js, j.WellFormed := by
  induction h with
  | nil => exact List.forall_mem_nil _
  | cons hfirst _ ih => exact List.forall_mem_cons.2 ⟨hfirst.isLiteral.wellFormed, ih⟩

/-- A mapping with `const` is decoded to the literal of the value there. -/
theorem ofDocument_of_const {v : Value} (hs : doc.mapping? s = some (id, entries))
    (hconst : field? "const" entries = some v) :
    ofDocument doc s = .ok (.literal (Literal.ofDocument doc v)) := by
  have hlayer : Layer.ofEntries doc.shape entries = .literal v := by rw [Layer.ofEntries, hconst]
  rw [ofDocument, decodeWithin, hs]
  simp only [if_neg List.not_mem_nil, hlayer, Layer.decoded]

/-- A mapping with `enum` and without `const` is decoded to the literals of the values there. -/
theorem ofDocument_of_enum {vs : List Value} (hs : doc.mapping? s = some (id, entries))
    (hconst : field? "const" entries = none)
    (henum : listAt? doc.shape "enum" entries = some vs) :
    ofDocument doc s = .ok (.enumeration (vs.map (Literal.ofDocument doc))) := by
  have hlayer : Layer.ofEntries doc.shape entries = .enumeration vs := by
    rw [Layer.ofEntries, hconst]
    dsimp only
    rw [henum]
  rw [ofDocument, decodeWithin, hs]
  simp only [if_neg List.not_mem_nil, hlayer, Layer.decoded]

theorem literalTexts_of_holdsJson {vs : List Value} {js : List Json}
    (h : List.Forall₂ (HoldsJson doc) vs js) :
    literalTexts (vs.map (Literal.ofDocument doc)) = .ok (js.map Json.write) := by
  rw [literalTexts_eq_ok_iff, List.forall₂_map_left_iff, List.forall₂_map_right_iff]
  exact h.imp fun _ _ => HoldsJson.text

/-- Literals give their values back. The type of a schema with a JSON value under `const` is read as
this value, and the type of one with a list of JSON values under `enum` as exactly these values, in
their order and with their repetitions. -/
theorem ofDocument_gives_values_back (hs : doc.mapping? s = some (id, entries)) :
    (∀ v j, field? "const" entries = some v → HoldsJson doc v j →
      ∃ schema text, ofDocument doc s = .ok schema ∧ schema.typeText = .ok text ∧
        Json.parse text = .ok j) ∧
    (∀ vs js, field? "const" entries = none → listAt? doc.shape "enum" entries = some vs →
      js ≠ [] → List.Forall₂ (HoldsJson doc) vs js →
        ∃ schema text, ofDocument doc s = .ok schema ∧ schema.typeText = .ok text ∧
          Json.parseAlternatives text = some js) := by
  constructor
  · intro v j hconst hv
    exact ⟨_, j.write, ofDocument_of_const hs hconst, hv.text,
      Json.parse_write hv.isLiteral.wellFormed⟩
  · intro vs js hconst henum hne hvs
    have htext : joined " | " neverText (js.map Json.write) =
        " | ".intercalate (js.map Json.write) := by
      rw [joined, if_neg (by simpa using hne)]
    have hwellFormed : ∀ j ∈ js, j.WellFormed := wellFormed_of_holdsJson hvs
    refine ⟨_, " | ".intercalate (js.map Json.write), ofDocument_of_enum hs hconst henum, ?_,
      Json.parseAlternatives_intercalate hne hwellFormed⟩
    rw [typeText, literalTexts_of_holdsJson hvs, ← htext]
    rfl

/-! ## Schemas of JSON values -/

/-- The root of the document of an object is a mapping whose entries stand for its members. -/
theorem exists_entries_ofJson {members : List (String × Json)}
    (h : (Json.object members).WellFormed) :
    ∃ id entries, (Document.ofJson (.object members)).mapping?
        (Document.ofJson (.object members)).root = some (id, entries) ∧
      id ≤ (Document.ofJson (.object members)).nodes.size ∧
      Document.MembersStand (Document.ofJson (.object members)).nodes members id entries := by
  have hempty : Document.Stored #[] := by simp [Document.Stored]
  obtain ⟨-, -, id, entries, hroot, hid, hnode, hmembers⟩ :=
    Document.stored_store (.object members) h hempty
  have hroot : (Document.ofJson (.object members)).root = .node id := hroot
  have hnode : (Document.ofJson (.object members)).nodes[id]? = some (.map entries) := hnode
  refine ⟨id, entries, ?_, hid.le, hmembers⟩
  rw [hroot, Document.mapping?, hnode]

theorem wellFormed_object_singleton {name : String} {j : Json} (h : j.WellFormed) :
    (Json.object [(name, j)]).WellFormed :=
  Json.wellFormed_object.2 ⟨List.nodup_singleton name, List.forall_mem_singleton.2 h⟩

/-- Every such JSON value is the `const` of a schema. -/
theorem exists_const_ofJson {j : Json} (h : j.IsLiteral) :
    ∃ id entries v, (Document.ofJson (.object [("const", j)])).mapping?
        (Document.ofJson (.object [("const", j)])).root = some (id, entries) ∧
      field? "const" entries = some v ∧
      HoldsJson (Document.ofJson (.object [("const", j)])) v j := by
  obtain ⟨id, entries, hmapping, hid, v, others, rfl, hv, rfl⟩ :=
    exists_entries_ofJson (wellFormed_object_singleton h.wellFormed)
  exact ⟨id, _, v, hmapping, rfl, Document.unfold_of_stands hv hid, h⟩

/-- Stored JSON literals are values that hold them. -/
theorem holdsJson_of_itemsStand {bound : Nat} (hbound : bound ≤ doc.nodes.size) :
    ∀ {js : List Json} {vs : List Value}, (∀ j ∈ js, j.IsLiteral) →
      Document.ItemsStand doc.nodes js bound vs → List.Forall₂ (HoldsJson doc) vs js
  | [], _ => by
    rintro - rfl
    exact .nil
  | j :: rest, _ => by
    rintro h ⟨v, others, rfl, hv, hothers⟩
    rw [List.forall_mem_cons] at h
    exact .cons ⟨Document.unfold_of_stands hv hbound, h.1⟩
      (holdsJson_of_itemsStand hbound h.2 hothers)

/-- Every list of such JSON values is the `enum` of a schema. -/
theorem exists_enum_ofJson {js : List Json} (h : ∀ j ∈ js, j.IsLiteral) :
    ∃ id entries vs, (Document.ofJson (.object [("enum", .array js)])).mapping?
        (Document.ofJson (.object [("enum", .array js)])).root = some (id, entries) ∧
      field? "const" entries = none ∧
      listAt? (Document.ofJson (.object [("enum", .array js)])).shape "enum" entries = some vs ∧
      List.Forall₂ (HoldsJson (Document.ofJson (.object [("enum", .array js)]))) vs js := by
  have harray : (Json.array js).WellFormed :=
    Json.wellFormed_array.2 fun j hj => (h j hj).wellFormed
  obtain ⟨id, entries, hmapping, hid, v, others, rfl, hv, rfl⟩ :=
    exists_entries_ofJson (wellFormed_object_singleton harray)
  obtain ⟨inner, vs, rfl, hinner, hnode, hitems⟩ := hv
  refine ⟨id, _, vs, hmapping, rfl, ?_, holdsJson_of_itemsStand (hinner.le.trans hid) h hitems⟩
  have hfield : field? "enum" [(Scalar.str "enum", Value.node inner)] = some (.node inner) := rfl
  rw [listAt?, hfield, Option.map_some, Document.shape, hnode]

/-- Values of several kinds, of which the strings hold the separator and a quote. -/
def separatorStrings : List Json :=
  [.str "a | \"b", .int 1, .float (.ofDecimal false 10 (-1)), .bool true, .str "a | \"b",
    .object [("x | y", .array [.null, .str "\\"])]]

theorem isLiteral_separatorStrings : ∀ j ∈ separatorStrings, j.IsLiteral := by
  have hone : (Json.float (.ofDecimal false 10 (-1))).IsLiteral := by
    refine ⟨⟨.float _, .float (Binary64.isCanonical_ofDecimal _ _ _)⟩, ?_⟩
    rintro x heq
    obtain rfl := Json.float.inj heq
    decide +kernel
  have hitems : (Json.array [.null, .str "\\"]).WellFormed := by
    rw [Json.wellFormed_array, List.forall_mem_cons]
    exact ⟨Json.wellFormed_null, List.forall_mem_singleton.2 (Json.wellFormed_str _)⟩
  simp only [separatorStrings, List.forall_mem_cons]
  exact ⟨⟨Json.wellFormed_str _, nofun⟩, ⟨⟨.int (by decide +kernel), .int 1⟩, nofun⟩, hone,
    ⟨⟨.bool true, .bool true⟩, nofun⟩, ⟨Json.wellFormed_str _, nofun⟩,
    ⟨wellFormed_object_singleton hitems, nofun⟩, List.forall_mem_nil _⟩

theorem ofDocument_gives_values_back_separatorStrings :
    (∃ schema text, ofDocument (Document.ofJson (.object [("const", .array separatorStrings)]))
        (Document.ofJson (.object [("const", .array separatorStrings)])).root = .ok schema ∧
      schema.typeText = .ok text ∧ Json.parse text = .ok (.array separatorStrings)) ∧
    ∃ schema text, ofDocument (Document.ofJson (.object [("enum", .array separatorStrings)]))
        (Document.ofJson (.object [("enum", .array separatorStrings)])).root = .ok schema ∧
      schema.typeText = .ok text ∧ Json.parseAlternatives text = some separatorStrings := by
  have harray : (Json.array separatorStrings).IsLiteral :=
    ⟨Json.wellFormed_array.2 fun j hj => (isLiteral_separatorStrings j hj).wellFormed, nofun⟩
  constructor
  · obtain ⟨id, entries, v, hs, hconst, hv⟩ := exists_const_ofJson harray
    exact (ofDocument_gives_values_back hs).1 v _ hconst hv
  · obtain ⟨id, entries, vs, hs, hconst, henum, hvs⟩ :=
      exists_enum_ofJson isLiteral_separatorStrings
    exact (ofDocument_gives_values_back hs).2 vs _ hconst henum (by decide) hvs

end Schema

end TypedRoutes
