import Mathlib.Data.List.Forall2
import TypedRoutes.Schema

/-!
# What decoding looks at

`Schema.View` holds what the decoding of a schema mapping consults: under each keyword the literals,
names or decoded schemas that its value gives there. Decoding is a function of this view
(`Layer.decoded_ofEntries`), so two mappings decode alike if under every keyword they give the same
(`View.ofEntries_congr`), whatever else is in them and however they are stored.
-/

set_option autoImplicit false

namespace TypedRoutes

namespace Shape

variable {α β : Type}

/-- The items of a list. -/
def items? : Shape α → Option (List α)
  | .list items => some items
  | _ => none

/-- The entries of a mapping. -/
def entries? : Shape α → Option (List (Scalar × α))
  | .map entries => some entries
  | _ => none

end Shape

namespace Schema

/-- The declared type: a name, or a list of which some members are names. -/
inductive DeclaredType where
  | name (name : String)
  | members (names : List (Option String))

/-- What decoding looks at in a schema mapping. Schemas are decoded already. -/
structure View (ε : Type) where
  const : Option Literal
  enum : Option (List Literal)
  anyOf : Option (List (Except ε Schema))
  oneOf : Option (List (Except ε Schema))
  allOf : Option (List (Except ε Schema))
  type : Option DeclaredType
  items : Option (Except ε Schema)
  firstPattern : Option (Option (Except ε Schema))
  properties : Option (List (Scalar × Except ε Schema))
  required : List String
  additional : Option (Except ε Schema)

namespace View

variable {ε : Type} (name : Scalar → Except ε String) (view : View ε)

/-- What the type name `object` gives. -/
def object : Except ε Schema :=
  match view.firstPattern with
  | some first => (first.getD (.ok .unknown)).map .record
  | none =>
    match view.properties with
    | some (first :: rest) =>
      (decodeProperties name id (first :: rest)).map fun ps => .fields ps view.required
    | _ => (view.additional.getD (.ok .unknown)).map .record

/-- What a type name gives. -/
def named (typeName : String) : Except ε Schema :=
  if typeName = "array" then
    match view.items with
    | none => .ok (.array none)
    | some items => items.map fun s => .array (some s)
  else if typeName = "object" then view.object name
  else match Primitive.ofTypeName? typeName with
    | some kind => .ok (.primitive kind)
    | none => .ok .unknown

/-- What a mapping without a recognized type gives. -/
def undeclared : Except ε Schema :=
  match view.properties with
  | some _ => view.object name
  | none => .ok .unknown

/-- What the declared type gives. -/
def declared : Except ε Schema :=
  match view.type with
  | some (.members names) =>
    (names.mapM fun
      | some typeName => view.named name typeName
      | none => .ok .unknown).map (.union .type)
  | some (.name typeName) =>
    if isTypeName typeName then view.named name typeName else view.undeclared name
  | none => view.undeclared name

/-- What a mapping gives. -/
def decoded : Except ε Schema :=
  match view.const with
  | some value => .ok (.literal value)
  | none =>
    match view.enum with
    | some values => .ok (.enumeration values)
    | none =>
      match view.anyOf with
      | some members => (members.mapM id).map (.union .anyOf)
      | none =>
        match view.oneOf with
        | some members => (members.mapM id).map (.union .oneOf)
        | none =>
          match view.allOf with
          | some members => (members.mapM id).map .intersection
          | none => view.declared name

end View

section OfEntries

variable {α ε : Type} (shape : α → Shape α) (literal : α → Literal)
  (decode : α → Except ε Schema) (entries : List (Scalar × α))

/-- The declared type that a value is. -/
def declaredType? (value : α) : Option DeclaredType :=
  match shape value with
  | .list (first :: rest) => some (.members ((first :: rest).map (string? shape)))
  | .scalar (.str typeName) => some (.name typeName)
  | _ => none

/-- The view of the entries of a mapping. -/
def View.ofEntries : View ε where
  const := (field? "const" entries).map literal
  enum := (listAt? shape "enum" entries).map (·.map literal)
  anyOf := (listAt? shape "anyOf" entries).map (·.map decode)
  oneOf := (listAt? shape "oneOf" entries).map (·.map decode)
  allOf := (listAt? shape "allOf" entries).map (·.map decode)
  type := (field? "type" entries).bind (declaredType? shape)
  items := ((field? "items" entries).filter fun items => !isNull shape items).map decode
  firstPattern := (mapAt? shape "patternProperties" entries).map fun patterns =>
    patterns.head?.map fun pattern => decode pattern.2
  properties := (mapAt? shape "properties" entries).map (·.map fun (key, v) => (key, decode v))
  required := requiredNames shape entries
  additional := (field? "additionalProperties" entries).map decode

variable {shape literal decode entries} {name : Scalar → Except ε String}

theorem decodeProperties_map (properties : List (Scalar × α)) :
    decodeProperties name id (properties.map fun (key, v) => (key, decode v)) =
      decodeProperties name decode properties := by
  induction properties with
  | nil => rfl
  | cons entry rest ih => simp [decodeProperties, ih]

/-- A value that is no mapping decodes to the unknown schema. -/
def IgnoresOthers (shape : α → Shape α) (decode : α → Except ε Schema) : Prop :=
  ∀ value, (shape value).entries? = none → decode value = .ok .unknown

theorem mapAt?_eq (keyword : String) :
    mapAt? shape keyword entries =
      (field? keyword entries).bind fun value => (shape value).entries? := by
  unfold mapAt?
  cases field? keyword entries with
  | none => rfl
  | some value =>
    cases hshape : shape value <;> simp [hshape, Shape.entries?]

theorem listAt?_eq (keyword : String) :
    listAt? shape keyword entries =
      (field? keyword entries).bind fun value => (shape value).items? := by
  unfold listAt?
  cases field? keyword entries with
  | none => rfl
  | some value =>
    cases hshape : shape value <;> simp [hshape, Shape.items?]

/-- Whatever stands in the place of a schema of additional properties, it decodes to the values of
the record. -/
theorem decoded_additional (hothers : IgnoresOthers shape decode) :
    (match mapAt? shape "additionalProperties" entries with
      | some _ => Branch.record (field? "additionalProperties" entries)
      | none => .record none).decoded name decode =
      (((field? "additionalProperties" entries).map decode).getD (.ok .unknown)).map .record := by
  rw [mapAt?_eq]
  cases field? "additionalProperties" entries with
  | none => rfl
  | some value =>
    cases hentries : (shape value).entries? with
    | none => simp [hentries, hothers value hentries, Branch.decoded, Except.map]
    | some inner => simp [hentries, Branch.decoded]

/-- An object is decoded from its view. -/
theorem decoded_object (hothers : IgnoresOthers shape decode) :
    (Branch.object shape entries).decoded name decode =
      (View.ofEntries shape literal decode entries).object name := by
  unfold Branch.object View.object View.ofEntries
  cases hpatterns : mapAt? shape "patternProperties" entries with
  | some patterns =>
    cases patterns with
    | nil => rfl
    | cons first rest => rfl
  | none =>
    cases hproperties : mapAt? shape "properties" entries with
    | none => exact decoded_additional hothers
    | some properties =>
      cases properties with
      | nil => exact decoded_additional hothers
      | cons first rest =>
        simp only [Option.map_none, Option.map_some, Branch.decoded]
        rw [← decodeProperties_map]
        rfl

/-- A type name is decoded from the view of the mapping that it stands in. -/
theorem decoded_ofTypeName (hothers : IgnoresOthers shape decode) (typeName : String) :
    (Branch.ofTypeName shape typeName entries).decoded name decode =
      (View.ofEntries shape literal decode entries).named name typeName := by
  unfold Branch.ofTypeName View.named
  split
  · simp only [View.ofEntries]
    cases (field? "items" entries).filter fun items => !isNull shape items <;> rfl
  · split
    · exact decoded_object hothers
    · cases Primitive.ofTypeName? typeName <;> rfl

theorem decoded_undeclared (hothers : IgnoresOthers shape decode) :
    (Branch.undeclared shape entries).decoded name decode =
      (View.ofEntries shape literal decode entries).undeclared name := by
  have hview : (View.ofEntries shape literal decode entries).properties =
    (mapAt? shape "properties" entries).map (·.map fun (key, v) => (key, decode v)) := rfl
  rw [Branch.undeclared, View.undeclared, hview]
  cases mapAt? shape "properties" entries with
  | none => rfl
  | some properties => exact decoded_object hothers

/-- The declared types are decoded from the view of the mapping. -/
theorem decoded_declared (hothers : IgnoresOthers shape decode) :
    (Layer.declared shape entries).decoded literal name decode =
      (View.ofEntries shape literal decode entries).declared name := by
  have hview : (View.ofEntries shape literal decode entries).type =
    (field? "type" entries).bind (declaredType? shape) := rfl
  have hundeclared : (Branch.undeclared shape entries).decoded name decode =
    (View.ofEntries shape literal decode entries).undeclared name := decoded_undeclared hothers
  rw [Layer.declared, View.declared, hview]
  -- The cases follow the value of `type`: a name, a list of names, or nothing that names a type.
  cases field? "type" entries with
  | none => exact hundeclared
  | some value =>
    simp only [Option.map_some, Option.bind_some, declaredType?]
    cases shape value with
    | scalar s =>
      cases s with
      | str typeName =>
        dsimp only
        split
        · exact decoded_ofTypeName hothers typeName
        · exact hundeclared
      | _ => exact hundeclared
    | list types =>
      cases types with
      | nil => exact hundeclared
      | cons first rest =>
        dsimp only [Layer.decoded]
        rw [List.mapM_map, List.mapM_map]
        congr 2
        funext member
        simp only [Function.comp_apply, Branch.ofTypeMember]
        cases string? shape member with
        | none => rfl
        | some typeName => exact decoded_ofTypeName hothers typeName
    | _ => exact hundeclared

/-- Decoding a mapping is a function of its view. -/
theorem Layer.decoded_ofEntries (hothers : IgnoresOthers shape decode) :
    (Layer.ofEntries shape entries).decoded literal name decode =
      (View.ofEntries shape literal decode entries).decoded name := by
  have hmembers (members : List α) : (members.map decode).mapM id = members.mapM decode := by
    rw [List.mapM_map]
    rfl
  unfold Layer.ofEntries View.decoded View.ofEntries
  cases field? "const" entries with
  | some value => rfl
  | none =>
    cases listAt? shape "enum" entries with
    | some values => rfl
    | none =>
      cases listAt? shape "anyOf" entries with
      | some members => simp [Layer.decoded, hmembers]
      | none =>
        cases listAt? shape "oneOf" entries with
        | some members => simp [Layer.decoded, hmembers]
        | none =>
          cases listAt? shape "allOf" entries with
          | some members => simp [Layer.decoded, hmembers]
          | none => exact decoded_declared hothers

end OfEntries

/-! ## Equal views -/

/-- What the value under a keyword is looked at for: as a schema, as a list of schemas, as a mapping
to schemas of which all or the first count, or as it is. -/
inductive Role where
  | plain
  | schema
  | schemas
  | properties
  | patterns
  deriving DecidableEq, Repr

/-- The role of the value under a key. -/
def Role.ofKey : Scalar → Role
  | .str "items" | .str "additionalProperties" => .schema
  | .str "anyOf" | .str "oneOf" | .str "allOf" => .schemas
  | .str "properties" => .properties
  | .str "patternProperties" => .patterns
  | _ => .plain

section Congr

variable {α β ε : Type} {shape : α → Shape α} {shape' : β → Shape β}
  {literal : α → Literal} {literal' : β → Literal}
  {decode : α → Except ε Schema} {decode' : β → Except ε Schema}

variable (shape shape' literal literal' decode decode') in
/-- Two values give the same when they are looked at in a role. -/
def Role.Agrees (a : α) (b : β) : Role → Prop
  | .plain => literal a = literal' b ∧ string? shape a = string? shape' b ∧
      (shape a).items?.map (·.map literal) = (shape' b).items?.map (·.map literal') ∧
      (shape a).items?.map (·.map (string? shape)) = (shape' b).items?.map (·.map (string? shape'))
  | .schema => isNull shape a = isNull shape' b ∧ decode a = decode' b
  | .schemas => (shape a).items?.map (·.map decode) = (shape' b).items?.map (·.map decode')
  | .properties => (shape a).entries?.map (·.map fun (key, v) => (key, decode v)) =
      (shape' b).entries?.map (·.map fun (key, v) => (key, decode' v))
  | .patterns => (shape a).entries?.map (fun patterns => patterns.head?.map fun e => decode e.2) =
      (shape' b).entries?.map fun patterns => patterns.head?.map fun e => decode' e.2

/-- Under a keyword there is a value in both mappings or in none, and the values are related. -/
theorem rel_field? {R : Scalar → α → β → Prop} {entries : List (Scalar × α)}
    {entries' : List (Scalar × β)}
    (h : List.Forall₂ (fun e e' => e.1 = e'.1 ∧ R e.1 e.2 e'.2) entries entries')
    (keyword : String) :
    Option.Rel (R (.str keyword)) (field? keyword entries) (field? keyword entries') := by
  induction h with
  | nil => exact .none
  | @cons e e' rest rest' hentry _ ih =>
    obtain ⟨key, a⟩ := e
    obtain ⟨key', b⟩ := e'
    obtain ⟨rfl, hvalue⟩ := hentry
    by_cases hkey : key = .str keyword
    · subst hkey
      simpa [field?] using Option.Rel.some hvalue
    · simpa [field?, hkey] using ih

theorem bind_eq_of_rel {γ : Type} {R : α → β → Prop} {x : Option α} {y : Option β}
    {f : α → Option γ} {g : β → Option γ} (h : Option.Rel R x y) (hfg : ∀ a b, R a b → f a = g b) :
    x.bind f = y.bind g := by
  cases h with
  | none => rfl
  | some hab => exact hfg _ _ hab

theorem map_eq_of_rel {γ : Type} {R : α → β → Prop} {x : Option α} {y : Option β} {f : α → γ}
    {g : β → γ} (h : Option.Rel R x y) (hfg : ∀ a b, R a b → f a = g b) : x.map f = y.map g := by
  cases h with
  | none => rfl
  | some hab => exact congrArg some (hfg _ _ hab)

/-- The declared type is determined by the strings among its items, or by the string that it is. -/
theorem declaredType?_eq (value : α) :
    declaredType? shape value =
      match (shape value).items?.map (·.map (string? shape)) with
      | some (first :: rest) => some (.members (first :: rest))
      | _ => (string? shape value).map .name := by
  unfold declaredType? string?
  cases hshape : shape value with
  | scalar s => cases s <;> rfl
  | list items => cases items <;> simp [Shape.items?]
  | _ => rfl

/-- The names required are determined by the strings among the items. -/
theorem requiredNames_eq (entries : List (Scalar × α)) :
    requiredNames shape entries =
      match (listAt? shape "required" entries).map (·.map (string? shape)) with
      | some names => (names.filterMap id).eraseDups
      | none => [] := by
  unfold requiredNames
  cases listAt? shape "required" entries with
  | none => rfl
  | some items => simp [List.filterMap_map]

/-- Mappings that agree under every key have the same view. -/
theorem View.ofEntries_congr {entries : List (Scalar × α)} {entries' : List (Scalar × β)}
    (h : List.Forall₂ (fun e e' => e.1 = e'.1 ∧
      (Role.ofKey e.1).Agrees shape shape' literal literal' decode decode' e.2 e'.2)
        entries entries') :
    ofEntries shape literal decode entries = ofEntries shape' literal' decode' entries' := by
  -- The role of a keyword says how its values are compared; each field of a view asks for one
  -- keyword, and so for one role.
  have hfield (keyword : String) : Option.Rel
      (fun a b => (Role.ofKey (.str keyword)).Agrees
        shape shape' literal literal' decode decode' a b)
      (field? keyword entries) (field? keyword entries') :=
    rel_field? (R := fun key a b => (Role.ofKey key).Agrees
      shape shape' literal literal' decode decode' a b) h keyword
  have hschemas (keyword : String) (hrole : Role.ofKey (.str keyword) = .schemas) :
      (listAt? shape keyword entries).map (·.map decode) =
        (listAt? shape' keyword entries').map (·.map decode') := by
    have hfield := hfield keyword
    rw [hrole] at hfield
    simp only [listAt?_eq, Option.map_bind]
    exact bind_eq_of_rel hfield fun a b hab => hab
  have hplain (keyword : String) (hrole : Role.ofKey (.str keyword) = .plain) := by
    have hfield := hfield keyword
    rw [hrole] at hfield
    exact hfield
  have hschema (keyword : String) (hrole : Role.ofKey (.str keyword) = .schema) := by
    have hfield := hfield keyword
    rw [hrole] at hfield
    exact hfield
  unfold ofEntries
  congr 1
  · exact map_eq_of_rel (hplain "const" rfl) fun a b hab => hab.1
  · simp only [listAt?_eq, Option.map_bind]
    exact bind_eq_of_rel (hplain "enum" rfl) fun a b hab => hab.2.2.1
  · exact hschemas "anyOf" rfl
  · exact hschemas "oneOf" rfl
  · exact hschemas "allOf" rfl
  · refine bind_eq_of_rel (hplain "type" rfl) fun a b hab => ?_
    rw [declaredType?_eq, declaredType?_eq, hab.2.1, hab.2.2.2]
  -- The items count as absent where they are null, which the role of a schema compares as well.
  · have hitems := hschema "items" rfl
    revert hitems
    generalize field? "items" entries = items
    generalize field? "items" entries' = items'
    rintro (⟨hnull, hdecode⟩ | _)
    · simp only [Option.filter_some, hnull]
      split
      · exact congrArg some hdecode
      · rfl
    · rfl
  · simp only [mapAt?_eq, Option.map_bind]
    exact bind_eq_of_rel (hfield "patternProperties") fun a b hab => hab
  · simp only [mapAt?_eq, Option.map_bind]
    exact bind_eq_of_rel (hfield "properties") fun a b hab => hab
  · rw [requiredNames_eq, requiredNames_eq]
    have hnames : (listAt? shape "required" entries).map (·.map (string? shape)) =
        (listAt? shape' "required" entries').map (·.map (string? shape')) := by
      simp only [listAt?_eq, Option.map_bind]
      exact bind_eq_of_rel (hplain "required" rfl) fun a b hab => hab.2.2.2
    rw [hnames]
  · exact map_eq_of_rel (hschema "additionalProperties" rfl) fun a b hab => hab.2

end Congr

end Schema
end TypedRoutes
