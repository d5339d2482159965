import TypedRoutes.Proofs.Schema.Acyclic
import TypedRoutes.Proofs.Schema.Rule

/-!
# Schemas that decode alike

Two trees are alike if they differ, in the places where they are looked at as schemas and at any
depth, only in what the winning rules do not consult: in other keywords, in the order of the
keywords, and in keywords that some other rule would consult. What a rule consults gives the same
level on both sides (`decoded_ofEntries_of_alike`), so trees that are alike are decoded to the same
schema, and so are the values of two documents whose trees are alike
(`ofDocument_eq_of_alike`).
-/

set_option autoImplicit false

namespace TypedRoutes.Schema

mutual

/-- Trees that differ as schemas only in what decoding does not consult: they are the same, or they
are mappings with the same winning rule that are alike under every keyword that it consults in one
of them. -/
inductive Alike : Datum → Datum → Prop
  | same (d : Datum) : Alike d d
  | mapping {entries entries' : List (Scalar × Datum)}
      (hrule : winningRule? Datum.shape entries = winningRule? Datum.shape entries')
      (hconsulted : ∀ keyword ∈ consultedKeywords Datum.shape entries ++
        consultedKeywords Datum.shape entries',
          AlikeUnder keyword (field? keyword entries) (field? keyword entries')) :
      Alike (.map entries) (.map entries')

/-- What two mappings have under a keyword is the same, or it is alike in the places where decoding
looks at it as schemas. -/
inductive AlikeUnder : String → Option Datum → Option Datum → Prop
  | same (keyword : String) (x : Option Datum) : AlikeUnder keyword x x
  | schema {keyword : String} {d d' : Datum} (hrole : Role.ofKey (.str keyword) = .schema)
      (h : Alike d d') : AlikeUnder keyword (some d) (some d')
  | schemas {keyword : String} {items items' : List Datum}
      (hrole : Role.ofKey (.str keyword) = .schemas) (h : List.Forall₂ Alike items items') :
      AlikeUnder keyword (some (.list items)) (some (.list items'))
  | properties {keyword : String} {entries entries' : List (Scalar × Datum)}
      (hrole : Role.ofKey (.str keyword) = .properties)
      (hkeys : entries.map Prod.fst = entries'.map Prod.fst)
      (h : List.Forall₂ Alike (entries.map Prod.snd) (entries'.map Prod.snd)) :
      AlikeUnder keyword (some (.map entries)) (some (.map entries'))
  | patterns {keyword : String} {first first' : Scalar × Datum} {rest rest' : List (Scalar × Datum)}
      (hrole : Role.ofKey (.str keyword) = .patterns) (h : Alike first.2 first'.2) :
      AlikeUnder keyword (some (.map (first :: rest))) (some (.map (first' :: rest')))

end

/-- Values that are alike are null together. -/
theorem Alike.isNull_eq {d d' : Datum} (h : Alike d d') :
    isNull Datum.shape d = isNull Datum.shape d' := by
  cases h with
  | same => rfl
  | mapping => rfl

/-- Mappings that have the same under every listed keyword are alike, in whatever order their keys
stand and whatever else they have. -/
theorem Alike.of_field?_eq {entries entries' : List (Scalar × Datum)}
    (h : ∀ keyword ∈ schemaKeywords, field? keyword entries = field? keyword entries') :
    Alike (.map entries) (.map entries') := by
  refine .mapping (winningRule?_congr h) fun keyword hkeyword => ?_
  have hlisted : keyword ∈ schemaKeywords := by
    rcases List.mem_append.1 hkeyword with hkeyword | hkeyword
    · exact consultedKeywords_subset hkeyword
    · exact consultedKeywords_subset hkeyword
  rw [h keyword hlisted]
  exact .same keyword _

/-- Every list of values is alike itself. -/
theorem forall₂_alike_refl (ds : List Datum) : List.Forall₂ Alike ds ds :=
  List.forall₂_same.2 fun d _ => .same d

/-! ## What is under a keyword -/

section Under

variable {keyword : String} {x x' : Option Datum}

/-- Under a keyword without schemas only equal values are alike. -/
theorem AlikeUnder.eq_of_plain (h : AlikeUnder keyword x x')
    (hrole : Role.ofKey (.str keyword) = .plain) : x = x' := by
  cases h with
  | same => rfl
  | schema hrole' | schemas hrole' | properties hrole' | patterns hrole' =>
    rw [hrole] at hrole'
    cases hrole'

/-- Under a keyword with one schema, values that are alike are alike as schemas. -/
theorem AlikeUnder.rel_of_schema (h : AlikeUnder keyword x x')
    (hrole : Role.ofKey (.str keyword) = .schema) : Option.Rel Alike x x' := by
  cases h with
  | same =>
    cases x with
    | none => exact .none
    | some d => exact .some (.same d)
  | schema _ h => exact .some h
  | schemas hrole' | properties hrole' | patterns hrole' =>
    rw [hrole] at hrole'
    cases hrole'

/-- Under a keyword with a list of schemas, the schemas are alike one by one. -/
theorem AlikeUnder.rel_of_schemas (h : AlikeUnder keyword x x')
    (hrole : Role.ofKey (.str keyword) = .schemas) :
    Option.Rel (List.Forall₂ Alike) (x.bind fun d => d.shape.items?)
      (x'.bind fun d => d.shape.items?) := by
  cases h with
  | same =>
    cases x.bind fun d => d.shape.items? with
    | none => exact .none
    | some items => exact .some (forall₂_alike_refl items)
  | schemas _ h => exact .some h
  | schema hrole' | properties hrole' | patterns hrole' =>
    rw [hrole] at hrole'
    cases hrole'

/-- Under the keyword of properties, the keys are the same and the schemas alike one by one. -/
theorem AlikeUnder.rel_of_properties (h : AlikeUnder keyword x x')
    (hrole : Role.ofKey (.str keyword) = .properties) :
    Option.Rel (fun es es' => es.map Prod.fst = es'.map Prod.fst ∧
        List.Forall₂ Alike (es.map Prod.snd) (es'.map Prod.snd))
      (x.bind fun d => d.shape.entries?) (x'.bind fun d => d.shape.entries?) := by
  cases h with
  | same =>
    cases x.bind fun d => d.shape.entries? with
    | none => exact .none
    | some entries => exact .some ⟨rfl, forall₂_alike_refl _⟩
  | properties _ hkeys h => exact .some ⟨hkeys, h⟩
  | schema hrole' | schemas hrole' | patterns hrole' =>
    rw [hrole] at hrole'
    cases hrole'

/-- Under the keyword of patterns, only the first schema counts. -/
theorem AlikeUnder.rel_of_patterns (h : AlikeUnder keyword x x')
    (hrole : Role.ofKey (.str keyword) = .patterns) :
    Option.Rel (fun es es' => Option.Rel Alike (es.head?.map Prod.snd) (es'.head?.map Prod.snd))
      (x.bind fun d => d.shape.entries?) (x'.bind fun d => d.shape.entries?) := by
  cases h with
  | same =>
    cases x.bind fun d => d.shape.entries? with
    | none => exact .none
    | some entries =>
      cases entries with
      | nil => exact .some .none
      | cons first rest => exact .some (.some (.same first.2))
  | patterns _ h => exact .some (.some h)
  | schema hrole' | schemas hrole' | properties hrole' =>
    rw [hrole] at hrole'
    cases hrole'

end Under

/-! ## Levels -/

/-- Two mappings are alike under a keyword. -/
def AgreeUnder (entries entries' : List (Scalar × Datum)) (keyword : String) : Prop :=
  AlikeUnder keyword (field? keyword entries) (field? keyword entries')

section Levels

variable {ε : Type} {literal : Datum → Literal} {name : Scalar → Except ε String}
  {decode : Datum → Except ε Schema} {entries entries' : List (Scalar × Datum)}

/-- Mappings that agree under a keyword without schemas have the same value there. -/
theorem AgreeUnder.value_eq {keyword : String} {d d' : Datum}
    (h : AgreeUnder entries entries' keyword) (hrole : Role.ofKey (.str keyword) = .plain)
    (hd : field? keyword entries = some d) (hd' : field? keyword entries' = some d') : d = d' := by
  have heq := h.eq_of_plain hrole
  rw [hd, hd'] at heq
  exact Option.some.inj heq

/-- Mappings that agree under a keyword have lists there that are alike, or none. -/
theorem AgreeUnder.rel_listAt? {keyword : String} (h : AgreeUnder entries entries' keyword)
    (hrole : Role.ofKey (.str keyword) = .schemas) :
    Option.Rel (List.Forall₂ Alike) (listAt? Datum.shape keyword entries)
      (listAt? Datum.shape keyword entries') := by
  rw [listAt?_eq, listAt?_eq]
  exact h.rel_of_schemas hrole

/-- Mappings that agree under `properties` have the same keys there and schemas that are alike. -/
theorem AgreeUnder.rel_properties (h : AgreeUnder entries entries' "properties") :
    Option.Rel (fun es es' => es.map Prod.fst = es'.map Prod.fst ∧
        List.Forall₂ Alike (es.map Prod.snd) (es'.map Prod.snd))
      (mapAt? Datum.shape "properties" entries) (mapAt? Datum.shape "properties" entries') := by
  rw [mapAt?_eq, mapAt?_eq]
  exact h.rel_of_properties rfl

/-- Mappings that agree under `patternProperties` have a first schema there that is alike. -/
theorem AgreeUnder.rel_patterns (h : AgreeUnder entries entries' "patternProperties") :
    Option.Rel (fun es es' => Option.Rel Alike (es.head?.map Prod.snd) (es'.head?.map Prod.snd))
      (mapAt? Datum.shape "patternProperties" entries)
      (mapAt? Datum.shape "patternProperties" entries') := by
  rw [mapAt?_eq, mapAt?_eq]
  exact h.rel_of_patterns rfl

/-- Mappings that agree under `required` require the same names. -/
theorem AgreeUnder.requiredNames_eq (h : AgreeUnder entries entries' "required") :
    requiredNames Datum.shape entries = requiredNames Datum.shape entries' := by
  rw [requiredNames, requiredNames, listAt?, listAt?, h.eq_of_plain rfl]

/-- Both sides have properties or neither has. -/
theorem AgreeUnder.properties_eq_nil_iff (h : AgreeUnder entries entries' "properties") :
    (mapAt? Datum.shape "properties" entries).getD [] = [] ↔
      (mapAt? Datum.shape "properties" entries').getD [] = [] := by
  have hrel := h.rel_properties
  revert hrel
  generalize mapAt? Datum.shape "properties" entries = x
  generalize mapAt? Datum.shape "properties" entries' = x'
  rintro (⟨hkeys, -⟩ | _)
  · rw [Option.getD_some, Option.getD_some, ← List.map_eq_nil_iff, hkeys, List.map_eq_nil_iff]
  · rfl

variable (hdecode : ∀ d d', Alike d d' → decode d = decode d')

include hdecode

/-- Items that are alike are decoded to the same schemas. -/
theorem mapM_decode_of_alike {items items' : List Datum} (h : List.Forall₂ Alike items items') :
    items.mapM decode = items'.mapM decode := by
  induction h with
  | nil => rfl
  | cons hfirst _ ih => rw [List.mapM_cons, List.mapM_cons, hdecode _ _ hfirst, ih]

/-- The members under a keyword are decoded to the same schemas when the mappings agree there. -/
theorem mapM_listAt?_of_alike {keyword : String} {members members' : List Datum}
    (h : AgreeUnder entries entries' keyword) (hrole : Role.ofKey (.str keyword) = .schemas)
    (hmembers : listAt? Datum.shape keyword entries = some members)
    (hmembers' : listAt? Datum.shape keyword entries' = some members') :
    members.mapM decode = members'.mapM decode := by
  have hrel := h.rel_listAt? hrole
  rw [hmembers, hmembers'] at hrel
  obtain ⟨hrel⟩ := hrel
  exact mapM_decode_of_alike hdecode hrel

/-- Properties with the same keys and schemas that are alike are decoded to the same fields. -/
theorem decodeProperties_of_alike {ps ps' : List (Scalar × Datum)}
    (hkeys : ps.map Prod.fst = ps'.map Prod.fst)
    (h : List.Forall₂ Alike (ps.map Prod.snd) (ps'.map Prod.snd)) :
    decodeProperties name decode ps = decodeProperties name decode ps' := by
  induction ps generalizing ps' with
  | nil =>
    cases ps' with
    | nil => rfl
    | cons => cases hkeys
  | cons p rest ih =>
    cases ps' with
    | nil => cases hkeys
    | cons p' rest' =>
      obtain ⟨hkey, hkeys⟩ := List.cons.inj hkeys
      cases h with
      | cons hfirst hothers =>
        rw [decodeProperties, decodeProperties, hkey, hdecode _ _ hfirst, ih hkeys hothers]

/-- A record is decoded alike when the schemas of its values are alike. -/
theorem decoded_record_of_alike {x x' : Option Datum} (h : Option.Rel Alike x x') :
    (Branch.record x).decoded name decode = (Branch.record x').decoded name decode := by
  cases h with
  | none => rfl
  | some h => rw [Branch.decoded, Branch.decoded, hdecode _ _ h]

/-- A schema of additional properties counts only if it is a mapping, which it is on both sides. -/
theorem decoded_additional_of_alike (h : AgreeUnder entries entries' "additionalProperties") :
    (Branch.additional Datum.shape entries).decoded name decode =
      (Branch.additional Datum.shape entries').decoded name decode := by
  have hrel := h.rel_of_schema rfl
  rw [Branch.additional, Branch.additional, mapAt?_eq, mapAt?_eq]
  revert hrel
  generalize field? "additionalProperties" entries = x
  generalize field? "additionalProperties" entries' = x'
  rintro (h | _)
  · cases h with
    | same => rfl
    | mapping hrule hconsulted =>
      exact decoded_record_of_alike hdecode (.some (.mapping hrule hconsulted))
  · rfl

/-- Object types are decoded alike if the mappings are alike under what either side consults. -/
theorem decoded_object_of_alike
    (h : ∀ keyword ∈ objectKeywords Datum.shape entries ++ objectKeywords Datum.shape entries',
      AgreeUnder entries entries' keyword) :
    (Branch.object Datum.shape entries).decoded name decode =
      (Branch.object Datum.shape entries').decoded name decode := by
  have hselects := selectsObject_object Datum.shape entries
  have hselects' := selectsObject_object Datum.shape entries'
  -- What one side consults and has, the other side has too: both sides are read the same way.
  revert h hselects hselects'
  generalize objectKeywords Datum.shape entries = keywords
  generalize objectKeywords Datum.shape entries' = keywords'
  generalize Branch.object Datum.shape entries = branch
  generalize Branch.object Datum.shape entries' = branch'
  intro h hselects hselects'
  cases hselects with
  | patterns hpatterns =>
    have hrel := (h "patternProperties" (by simp)).rel_patterns
    rw [hpatterns] at hrel
    cases hselects' with
    | patterns hpatterns' =>
      rw [hpatterns'] at hrel
      obtain ⟨hfirst⟩ := hrel
      exact decoded_record_of_alike hdecode hfirst
    | properties hpatterns' | additional hpatterns' =>
      rw [hpatterns'] at hrel
      cases hrel
  | properties hpatterns hproperties =>
    have hrel := (h "properties" (by simp)).rel_properties
    rw [hproperties] at hrel
    cases hselects' with
    | patterns hpatterns' =>
      have hrel := (h "patternProperties" (by simp)).rel_patterns
      rw [hpatterns, hpatterns'] at hrel
      cases hrel
    | properties _ hproperties' =>
      rw [hproperties'] at hrel
      obtain ⟨hkeys, hvalues⟩ := hrel
      rw [Branch.decoded, Branch.decoded, (h "required" (by simp)).requiredNames_eq,
        decodeProperties_of_alike hdecode hkeys hvalues]
    | additional _ hempty' =>
      rw [← (h "properties" (by simp)).properties_eq_nil_iff, hproperties] at hempty'
      cases hempty'
  | additional hpatterns hempty =>
    cases hselects' with
    | patterns hpatterns' =>
      have hrel := (h "patternProperties" (by simp)).rel_patterns
      rw [hpatterns, hpatterns'] at hrel
      cases hrel
    | properties _ hproperties' =>
      rw [(h "properties" (by simp)).properties_eq_nil_iff, hproperties'] at hempty
      cases hempty
    | additional _ _ =>
      exact decoded_additional_of_alike hdecode (h "additionalProperties" (by simp))

/-- An array type consults its items, an object type the keywords of objects, and every other type
nothing. -/
theorem decoded_ofTypeName_of_alike {typeName : String}
    (hitems : typeName = "array" → AgreeUnder entries entries' "items")
    (hobject : typeName = "object" → ∀ keyword ∈ objectKeywords Datum.shape entries ++
      objectKeywords Datum.shape entries', AgreeUnder entries entries' keyword) :
    (Branch.ofTypeName Datum.shape typeName entries).decoded name decode =
      (Branch.ofTypeName Datum.shape typeName entries').decoded name decode := by
  rw [Branch.ofTypeName, Branch.ofTypeName]
  split
  · have hrel := (hitems ‹_›).rel_of_schema rfl
    revert hrel
    generalize field? "items" entries = x
    generalize field? "items" entries' = x'
    rintro (h | _)
    · rw [Option.filter_some, Option.filter_some, h.isNull_eq]
      split
      · rw [Branch.decoded, Branch.decoded, hdecode _ _ h]
      · rfl
    · rfl
  · split
    · exact decoded_object_of_alike hdecode (hobject ‹_›)
    · rfl

/-- A type name that both sides declare gives the same on both. -/
theorem decoded_declaredName_of_alike {typeName : String}
    (hname : typeName ∈ declaredNames Datum.shape entries)
    (hname' : typeName ∈ declaredNames Datum.shape entries')
    (h : ∀ keyword ∈ Rule.keywords Datum.shape entries .type ++
      Rule.keywords Datum.shape entries' .type, AgreeUnder entries entries' keyword) :
    (Branch.ofTypeName Datum.shape typeName entries).decoded name decode =
      (Branch.ofTypeName Datum.shape typeName entries').decoded name decode := by
  apply decoded_ofTypeName_of_alike hdecode
  · rintro rfl
    apply h
    simp [Rule.keywords, hname]
  · rintro rfl keyword hkeyword
    apply h
    rw [List.mem_append] at hkeyword ⊢
    rcases hkeyword with hkeyword | hkeyword
    · simp [Rule.keywords, hname, hkeyword]
    · simp [Rule.keywords, hname', hkeyword]

/-- A list of types that both sides declare gives the same on both, member by member. -/
theorem decoded_typeList_of_alike {value : Datum} {types : List Datum}
    (htype : field? "type" entries = some value) (htype' : field? "type" entries' = some value)
    (hvalue : Datum.shape value = .list types)
    (h : ∀ keyword ∈ Rule.keywords Datum.shape entries .type ++
      Rule.keywords Datum.shape entries' .type, AgreeUnder entries entries' keyword) :
    (Layer.branches (types.map (Branch.ofTypeMember Datum.shape entries))).decoded
        literal name decode =
      (Layer.branches (types.map (Branch.ofTypeMember Datum.shape entries'))).decoded
        literal name decode := by
  rw [Layer.decoded, Layer.decoded, List.mapM_map, List.mapM_map]
  refine congrArg _ (Outcome.mapM_congr fun member hmember => ?_)
  rw [Function.comp_apply, Function.comp_apply, Branch.ofTypeMember, Branch.ofTypeMember]
  cases hstring : string? Datum.shape member with
  | none => rfl
  | some typeName =>
    have hdeclared : typeName ∈ types.filterMap (string? Datum.shape) :=
      List.mem_filterMap.2 ⟨member, hmember, hstring⟩
    apply decoded_declaredName_of_alike hdecode _ _ h
    · rwa [declaredNames_of_list htype hvalue]
    · rwa [declaredNames_of_list htype' hvalue]

/-- The level of a mapping is decoded like the level of another one where the same rule wins and
the mappings are alike under what it consults on either side. -/
theorem decoded_ofEntries_of_alike
    (hrule : winningRule? Datum.shape entries = winningRule? Datum.shape entries')
    (h : ∀ keyword ∈ consultedKeywords Datum.shape entries ++
      consultedKeywords Datum.shape entries', AgreeUnder entries entries' keyword) :
    (Layer.ofEntries Datum.shape entries).decoded literal name decode =
      (Layer.ofEntries Datum.shape entries').decoded literal name decode := by
  have hselects := selects_ofEntries Datum.shape entries
  have hselects' := selects_ofEntries Datum.shape entries'
  rw [consultedKeywords, consultedKeywords] at h
  rw [← hrule] at hselects' h
  revert h hselects hselects'
  generalize winningRule? Datum.shape entries = rule
  generalize Layer.ofEntries Datum.shape entries = layer
  generalize Layer.ofEntries Datum.shape entries' = layer'
  intro h hselects hselects'
  -- The rule is the same for both, so of the pairs of layers only those of one rule are left. What
  -- the two mappings hold for that rule is among the keywords that it consults.
  cases hselects with
  | const hconst =>
    cases hselects' with
    | const hconst' =>
      obtain rfl := (h "const" (by simp [Rule.keywords])).value_eq rfl hconst hconst'
      rfl
  | enum henum =>
    cases hselects' with
    | enum henum' =>
      rw [listAt?, (h "enum" (by simp [Rule.keywords])).eq_of_plain rfl, ← listAt?, henum'] at henum
      obtain rfl := Option.some.inj henum
      rfl
  | anyOf hany =>
    cases hselects' with
    | anyOf hany' =>
      have hagree := h "anyOf" (by simp [Rule.keywords])
      rw [Layer.decoded, Layer.decoded, mapM_listAt?_of_alike hdecode hagree rfl hany hany']
  | oneOf hone =>
    cases hselects' with
    | oneOf hone' =>
      have hagree := h "oneOf" (by simp [Rule.keywords])
      rw [Layer.decoded, Layer.decoded, mapM_listAt?_of_alike hdecode hagree rfl hone hone']
  | allOf hall =>
    cases hselects' with
    | allOf hall' =>
      have hagree := h "allOf" (by simp [Rule.keywords])
      rw [Layer.decoded, Layer.decoded, mapM_listAt?_of_alike hdecode hagree rfl hall hall']
  | @typeList value types htype hvalue =>
    have hagree := h "type" (by simp [Rule.keywords])
    cases hselects' with
    | typeList htype' hvalue' =>
      -- A type is compared as a value, so a list on one side is a list on the other.
      obtain rfl := hagree.value_eq rfl htype htype'
      rw [hvalue] at hvalue'
      obtain rfl := Shape.list.inj hvalue'
      exact decoded_typeList_of_alike hdecode htype htype' hvalue h
    | typeName htype' hvalue' =>
      obtain rfl := hagree.value_eq rfl htype htype'
      rw [hvalue] at hvalue'
      cases hvalue'
  | @typeName value typeName htype hvalue =>
    have hagree := h "type" (by simp [Rule.keywords])
    cases hselects' with
    | typeList htype' hvalue' =>
      obtain rfl := hagree.value_eq rfl htype htype'
      rw [hvalue] at hvalue'
      cases hvalue'
    | typeName htype' hvalue' =>
      obtain rfl := hagree.value_eq rfl htype htype'
      rw [hvalue] at hvalue'
      obtain rfl := Scalar.str.inj (Shape.scalar.inj hvalue')
      apply decoded_declaredName_of_alike hdecode _ _ h
      · rw [declaredNames_of_name htype hvalue]
        exact List.mem_singleton_self typeName
      · rw [declaredNames_of_name htype' hvalue]
        exact List.mem_singleton_self typeName
  | properties _ =>
    cases hselects' with
    | properties _ => exact decoded_object_of_alike hdecode h
  | none =>
    cases hselects' with
    | none => rfl

end Levels

/-! ## Trees -/

/-- Trees that are alike are decoded to the same schema. -/
theorem decodePlain_eq_of_alike (depth : Nat) {d d' : Datum} (h : Alike d d') :
    decodePlain Datum.shape Literal.ofDatum depth d =
      decodePlain Datum.shape Literal.ofDatum depth d' := by
  induction depth generalizing d d' with
  | zero => rfl
  | succ depth ih =>
    cases h with
    | same => rfl
    | mapping hrule hconsulted =>
      exact decoded_ofEntries_of_alike (fun _ _ => ih) hrule hconsulted

/-- Only what the winning rules consult matters: values without cycles whose trees are alike are
decoded to the same schema. -/
theorem ofDocument_eq_of_alike {doc doc' : Document} {v v' : Document.Value}
    (hv : ¬ doc.HasCycle v) (hv' : ¬ doc'.HasCycle v')
    (h : Alike (doc.unfold v) (doc'.unfold v')) : ofDocument doc v = ofDocument doc' v' := by
  have hless : doc.mappingCount < doc.mappingCount + doc'.mappingCount + 1 := by omega
  have hless' : doc'.mappingCount < doc.mappingCount + doc'.mappingCount + 1 := by omega
  have htree : decodeWithin doc (doc.mappingCount + 1) [] v =
      decodeWithin doc' (doc'.mappingCount + 1) [] v' := by
    rw [← decodeWithin_eq_of_mappingCount_lt hless, ← decodeWithin_eq_of_mappingCount_lt hless',
      decodeWithin_eq_decodePlain_unfold hv (List.forall_mem_nil _)
        (Nat.lt_of_lt_of_le doc.idle_isMap_nil_lt hless),
      decodeWithin_eq_decodePlain_unfold hv' (List.forall_mem_nil _)
        (Nat.lt_of_lt_of_le doc'.idle_isMap_nil_lt hless'),
      decodePlain_eq_of_alike _ h]
  rw [ofDocument, ofDocument, htree]

/-- A schema with a title, items that an object type does not consult, and properties whose schemas
have a format and a description. -/
def annotated : Document where
  nodes := #[
    .map [(.str "type", .scalar (.str "string")), (.str "format", .scalar (.str "uuid"))],
    .map [(.str "id", .node 0), (.str "name", .node 3)],
    .map [(.str "title", .scalar (.str "User")), (.str "type", .scalar (.str "object")),
      (.str "items", .node 0), (.str "properties", .node 1)],
    .map [(.str "description", .scalar (.str "Full name")), (.str "type", .scalar (.str "string"))]]
  root := .node 2

/-- The same schema with its keywords in another order and without what does not matter. -/
def bare : Document where
  nodes := #[
    .map [(.str "additionalProperties", .scalar (.bool false)),
      (.str "type", .scalar (.str "string"))],
    .map [(.str "id", .node 0), (.str "name", .node 3)],
    .map [(.str "properties", .node 1), (.str "type", .scalar (.str "object")),
      (.str "enum", .scalar .null)],
    .map [(.str "type", .scalar (.str "string"))]]
  root := .node 2

theorem ofDocument_eq_of_alike_annotated :
    ¬ annotated.HasCycle (.node 2) ∧ ¬ bare.HasCycle (.node 2) ∧
      ofDocument annotated (.node 2) = ofDocument bare (.node 2) := by
  have hwritable : ¬ annotated.IsUnwritable (.node 2) :=
    (Document.exists_fold_jsonFold_iff (v := .node 2) (by decide +kernel) nofun).1 ⟨_, rfl⟩
  have hwritable' : ¬ bare.IsUnwritable (.node 2) :=
    (Document.exists_fold_jsonFold_iff (v := .node 2) (by decide +kernel) nofun).1 ⟨_, rfl⟩
  have hcycle : ¬ annotated.HasCycle (.node 2) := fun hcycle => hwritable (.inl hcycle)
  have hcycle' : ¬ bare.HasCycle (.node 2) := fun hcycle => hwritable' (.inl hcycle)
  have hid : Alike (annotated.unfold (.node 0)) (bare.unfold (.node 0)) := by
    refine .mapping rfl (show ∀ keyword ∈ ["type", "type"], AlikeUnder keyword _ _ from ?_)
    simp only [List.forall_mem_cons]
    exact ⟨.same _ _, .same _ _, nofun⟩
  -- The names have the same under every keyword that any rule consults.
  have hname : Alike (annotated.unfold (.node 3)) (bare.unfold (.node 3)) := by
    refine Alike.of_field?_eq ?_
    simp only [schemaKeywords, List.forall_mem_cons]
    exact ⟨rfl, rfl, rfl, rfl, rfl, rfl, rfl, rfl, rfl, rfl, rfl, nofun⟩
  have hproperties : AlikeUnder "properties" (some (annotated.unfold (.node 1)))
      (some (bare.unfold (.node 1))) :=
    .properties rfl rfl (.cons hid (.cons hname .nil))
  refine ⟨hcycle, hcycle', ofDocument_eq_of_alike hcycle hcycle' (.mapping rfl ?_)⟩
  change ∀ keyword ∈ ["type", "properties", "required", "type", "properties", "required"],
    AlikeUnder keyword _ _
  simp only [List.forall_mem_cons]
  exact ⟨.same _ _, hproperties, .same _ _, .same _ _, hproperties, .same _ _, nofun⟩

end TypedRoutes.Schema
