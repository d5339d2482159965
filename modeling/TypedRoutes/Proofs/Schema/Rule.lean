import TypedRoutes.Schema

/-!
# The rules of decoding

A schema mapping is decoded by the first rule that applies to it (`winningRule?`). A rule consults
the keywords that `Rule.keywords` lists and no others; which of them the rule of the declared type
and the rule of bare properties consult depends on the mapping. `selects_ofEntries` says what the
winning rule makes of a mapping.
-/

set_option autoImplicit false

namespace TypedRoutes.Schema

/-- The rules of decoding. -/
inductive Rule where
  | const
  | enum
  | anyOf
  | oneOf
  | allOf
  | type
  | properties
  deriving DecidableEq, Repr

/-- The rules in the order in which they are tried. -/
def Rule.all : List Rule := [.const, .enum, .anyOf, .oneOf, .allOf, .type, .properties]

section

variable {α : Type} (shape : α → Shape α) (entries : List (Scalar × α))

/-- Does the rule apply to a mapping? Under `const` anything counts, under `enum` and the
compositions only a list, under `type` only the name of a type or a list that is not empty, and
under `properties` only a mapping. -/
def Rule.applies : Rule → Bool
  | .const => (field? "const" entries).isSome
  | .enum => (listAt? shape "enum" entries).isSome
  | .anyOf => (listAt? shape "anyOf" entries).isSome
  | .oneOf => (listAt? shape "oneOf" entries).isSome
  | .allOf => (listAt? shape "allOf" entries).isSome
  | .type =>
    match (field? "type" entries).map shape with
    | some (.list types) => !types.isEmpty
    | some (.scalar (.str name)) => isTypeName name
    | _ => false
  | .properties => (mapAt? shape "properties" entries).isSome

/-- The rule that wins. -/
def winningRule? : Option Rule := Rule.all.find? (Rule.applies shape entries)

/-- The names of types that a mapping declares. -/
def declaredNames : List String :=
  match (field? "type" entries).map shape with
  | some (.list types) => types.filterMap (string? shape)
  | some (.scalar (.str name)) => [name]
  | _ => []

/-- The keywords that an object type consults. -/
def objectKeywords : List String :=
  if (mapAt? shape "patternProperties" entries).isSome then ["patternProperties"]
  else if ((mapAt? shape "properties" entries).getD []).isEmpty then ["additionalProperties"]
  else ["properties", "required"]

/-- The keywords that a rule consults where it wins. -/
def Rule.keywords : Rule → List String
  | .const => ["const"]
  | .enum => ["enum"]
  | .anyOf => ["anyOf"]
  | .oneOf => ["oneOf"]
  | .allOf => ["allOf"]
  | .type =>
    "type" :: ((if "array" ∈ declaredNames shape entries then ["items"] else []) ++
      if "object" ∈ declaredNames shape entries then objectKeywords shape entries else [])
  | .properties => objectKeywords shape entries

/-- The keywords that decoding consults in a mapping. -/
def consultedKeywords : List String :=
  ((winningRule? shape entries).map (Rule.keywords shape entries)).getD []

/-- Every keyword that a rule can consult. -/
def schemaKeywords : List String :=
  ["const", "enum", "anyOf", "oneOf", "allOf", "type", "items", "properties", "patternProperties",
    "additionalProperties", "required"]

/-- The record of an object type without patterns and properties. -/
def Branch.additional : Branch α :=
  match mapAt? shape "additionalProperties" entries with
  | some _ => .record (field? "additionalProperties" entries)
  | none => .record none

/-- What an object type is read from, and what becomes of it. -/
inductive SelectsObject : List String → Branch α → Prop
  | patterns {patterns : List (Scalar × α)}
      (h : mapAt? shape "patternProperties" entries = some patterns) :
      SelectsObject ["patternProperties"] (.record (patterns.head?.map Prod.snd))
  | properties {first : Scalar × α} {rest : List (Scalar × α)}
      (hpatterns : mapAt? shape "patternProperties" entries = none)
      (h : mapAt? shape "properties" entries = some (first :: rest)) :
      SelectsObject ["properties", "required"]
        (.fields (first :: rest) (requiredNames shape entries))
  | additional (hpatterns : mapAt? shape "patternProperties" entries = none)
      (h : (mapAt? shape "properties" entries).getD [] = []) :
      SelectsObject ["additionalProperties"] (Branch.additional shape entries)

/-- What a rule makes of a mapping to which it applies, and what becomes of one without a rule. -/
inductive Selects : Option Rule → Layer α → Prop
  | const {value : α} (h : field? "const" entries = some value) :
      Selects (some .const) (.literal value)
  | enum {values : List α} (h : listAt? shape "enum" entries = some values) :
      Selects (some .enum) (.enumeration values)
  | anyOf {members : List α} (h : listAt? shape "anyOf" entries = some members) :
      Selects (some .anyOf) (.union .anyOf members)
  | oneOf {members : List α} (h : listAt? shape "oneOf" entries = some members) :
      Selects (some .oneOf) (.union .oneOf members)
  | allOf {members : List α} (h : listAt? shape "allOf" entries = some members) :
      Selects (some .allOf) (.intersection members)
  | typeList {value : α} {types : List α} (h : field? "type" entries = some value)
      (hvalue : shape value = .list types) :
      Selects (some .type) (.branches (types.map (Branch.ofTypeMember shape entries)))
  | typeName {value : α} {name : String} (h : field? "type" entries = some value)
      (hvalue : shape value = .scalar (.str name)) :
      Selects (some .type) (.branch (Branch.ofTypeName shape name entries))
  | properties {inner : List (Scalar × α)} (h : mapAt? shape "properties" entries = some inner) :
      Selects (some .properties) (.branch (Branch.object shape entries))
  | none : Selects none (.branch .unknown)

variable {shape entries}

variable (shape entries) in
/-- An object type is read from the keywords that it consults. -/
theorem selectsObject_object :
    SelectsObject shape entries (objectKeywords shape entries) (Branch.object shape entries) := by
  rw [objectKeywords, Branch.object]
  cases hpatterns : mapAt? shape "patternProperties" entries with
  | some patterns => exact .patterns hpatterns
  | none =>
    rw [Option.isSome_none, if_neg Bool.false_ne_true]
    cases hproperties : mapAt? shape "properties" entries with
    | none => exact .additional hpatterns (by rw [hproperties, Option.getD_none])
    | some properties =>
      cases properties with
      | nil => exact .additional hpatterns (by rw [hproperties, Option.getD_some])
      | cons first rest => exact .properties hpatterns hproperties

/-- An object is decoded from keywords that schemas are decoded from. -/
theorem objectKeywords_subset : objectKeywords shape entries ⊆ schemaKeywords := by
  rw [objectKeywords]
  split
  · decide
  · split
    · decide
    · decide

/-- No rule consults a keyword that is not listed. -/
theorem consultedKeywords_subset : consultedKeywords shape entries ⊆ schemaKeywords := by
  rw [consultedKeywords]
  cases winningRule? shape entries with
  | none => exact List.nil_subset schemaKeywords
  | some rule =>
    rw [Option.map_some, Option.getD_some]
    cases rule with
    | type =>
      rw [Rule.keywords, List.cons_subset, List.append_subset]
      refine ⟨by decide, ?_, ?_⟩
      · split
        · decide
        · exact List.nil_subset schemaKeywords
      · split
        · exact objectKeywords_subset
        · exact List.nil_subset schemaKeywords
    | properties => exact objectKeywords_subset
    | _ =>
      rw [Rule.keywords]
      decide

/-- Which rule wins depends on nothing but the listed keywords. -/
theorem winningRule?_congr {entries' : List (Scalar × α)}
    (h : ∀ keyword ∈ schemaKeywords, field? keyword entries = field? keyword entries') :
    winningRule? shape entries = winningRule? shape entries' := by
  rw [winningRule?, winningRule?]
  congr 1
  funext rule
  cases rule with
  | const => rw [Rule.applies, Rule.applies, h "const" (by decide)]
  | enum => rw [Rule.applies, Rule.applies, listAt?, listAt?, h "enum" (by decide)]
  | anyOf => rw [Rule.applies, Rule.applies, listAt?, listAt?, h "anyOf" (by decide)]
  | oneOf => rw [Rule.applies, Rule.applies, listAt?, listAt?, h "oneOf" (by decide)]
  | allOf => rw [Rule.applies, Rule.applies, listAt?, listAt?, h "allOf" (by decide)]
  | type => rw [Rule.applies, Rule.applies, h "type" (by decide)]
  | properties => rw [Rule.applies, Rule.applies, mapAt?, mapAt?, h "properties" (by decide)]

theorem declaredNames_of_list {value : α} {types : List α}
    (h : field? "type" entries = some value) (hvalue : shape value = .list types) :
    declaredNames shape entries = types.filterMap (string? shape) := by
  rw [declaredNames, h, Option.map_some, hvalue]

theorem declaredNames_of_name {value : α} {name : String}
    (h : field? "type" entries = some value) (hvalue : shape value = .scalar (.str name)) :
    declaredNames shape entries = [name] := by
  rw [declaredNames, h, Option.map_some, hvalue]

/-- The first rule that applies is the first one of the list or the first of the others. -/
theorem find?_rule_cons {rule : Rule} {rest : List Rule} :
    (rule :: rest).find? (Rule.applies shape entries) =
      if rule.applies shape entries then some rule
      else rest.find? (Rule.applies shape entries) := by
  rw [List.find?_cons]
  cases rule.applies shape entries <;> rfl

/-- Without a declared type that is recognized, only the properties decide. -/
theorem selects_undeclared :
    Selects shape entries ([Rule.properties].find? (Rule.applies shape entries))
      (.branch (Branch.undeclared shape entries)) := by
  rw [find?_rule_cons, Rule.applies, Branch.undeclared]
  cases hproperties : mapAt? shape "properties" entries with
  | none => exact .none
  | some inner => exact .properties hproperties

/-- Without a value to hold, a mapping is decoded by what it declares. -/
theorem selects_declared :
    Selects shape entries ([Rule.type, .properties].find? (Rule.applies shape entries))
      (Layer.declared shape entries) := by
  rw [find?_rule_cons, Rule.applies, Layer.declared]
  cases htype : field? "type" entries with
  | none => exact selects_undeclared
  | some value =>
    rw [Option.map_some]
    cases hvalue : shape value with
    | list types =>
      cases types with
      | nil => exact selects_undeclared
      | cons first rest => exact .typeList htype hvalue
    | scalar s =>
      cases s with
      | str name =>
        dsimp only
        by_cases hname : isTypeName name = true
        · rw [if_pos hname, if_pos hname]
          exact .typeName htype hvalue
        · rw [if_neg hname, if_neg hname]
          exact selects_undeclared
      | _ => exact selects_undeclared
    | _ => exact selects_undeclared

variable (shape entries) in
/-- The level of a mapping is what the winning rule makes of it. -/
theorem selects_ofEntries :
    Selects shape entries (winningRule? shape entries) (Layer.ofEntries shape entries) := by
  rw [winningRule?, Rule.all, Layer.ofEntries]
  rw [find?_rule_cons, Rule.applies]
  cases hconst : field? "const" entries with
  | some value => exact .const hconst
  | none =>
    rw [Option.isSome_none, if_neg Bool.false_ne_true, find?_rule_cons, Rule.applies]
    cases henum : listAt? shape "enum" entries with
    | some values => exact .enum henum
    | none =>
      rw [Option.isSome_none, if_neg Bool.false_ne_true, find?_rule_cons, Rule.applies]
      cases hany : listAt? shape "anyOf" entries with
      | some members => exact .anyOf hany
      | none =>
        rw [Option.isSome_none, if_neg Bool.false_ne_true, find?_rule_cons, Rule.applies]
        cases hone : listAt? shape "oneOf" entries with
        | some members => exact .oneOf hone
        | none =>
          rw [Option.isSome_none, if_neg Bool.false_ne_true, find?_rule_cons, Rule.applies]
          cases hall : listAt? shape "allOf" entries with
          | some members => exact .allOf hall
          | none => exact selects_declared

end

end TypedRoutes.Schema
