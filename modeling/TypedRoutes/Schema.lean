import TypedRoutes.Schema.Literal

/-!
# Schemas

The shape of a value as a schema describes it: what the types of a client are printed from.
`Schema.Layer` is one level of a schema whose parts are not decoded yet, and
`Schema.Layer.ofEntries` finds it: it picks the keyword of a schema mapping that wins and looks at
nothing that keyword does not consult.
-/

set_option autoImplicit false

namespace TypedRoutes

/-- The keywords that spell a union. -/
inductive UnionKeyword where
  | anyOf
  | oneOf
  | type
  deriving DecidableEq, Repr

/-- A keyword as it is spelled. -/
def UnionKeyword.name : UnionKeyword → String
  | .anyOf => "anyOf"
  | .oneOf => "oneOf"
  | .type => "type"

/-- A decoded schema. `array none` says nothing about its items, and the required names of `fields`
are listed once each, whether or not they are properties. -/
inductive Schema where
  | primitive (kind : Primitive)
  | literal (value : Literal)
  | enumeration (values : List Literal)
  | array (items : Option Schema)
  | fields (properties : List (String × Schema)) (required : List String)
  | record (value : Schema)
  | union (keyword : UnionKeyword) (members : List Schema)
  | intersection (members : List Schema)
  | unknown
  deriving Repr, Inhabited

namespace Schema

/-- What one declared type name gives, with parts that are not decoded yet. -/
inductive Branch (α : Type) where
  | primitive (kind : Primitive)
  | array (items : Option α)
  | fields (properties : List (Scalar × α)) (required : List String)
  | record (value : Option α)
  | unknown
  deriving Repr

/-- One level of a schema, with parts that are not decoded yet. -/
inductive Layer (α : Type) where
  | literal (value : α)
  | enumeration (values : List α)
  | union (keyword : UnionKeyword) (members : List α)
  | intersection (members : List α)
  | branch (alternative : Branch α)
  | branches (alternatives : List (Branch α))
  deriving Repr

section Selection

variable {α : Type} (shape : α → Shape α)

/-- The list under a keyword. -/
def listAt? (keyword : String) (entries : List (Scalar × α)) : Option (List α) :=
  match (field? keyword entries).map shape with
  | some (.list items) => some items
  | _ => none

/-- The mapping under a keyword. -/
def mapAt? (keyword : String) (entries : List (Scalar × α)) : Option (List (Scalar × α)) :=
  match (field? keyword entries).map shape with
  | some (.map inner) => some inner
  | _ => none

/-- The string that a value is. -/
def string? (value : α) : Option String :=
  match shape value with
  | .scalar (.str s) => some s
  | _ => none

/-- Is the value null? -/
def isNull (value : α) : Bool :=
  match shape value with
  | .scalar .null => true
  | _ => false

/-- The names that are required: the strings of the list, each once. -/
def requiredNames (entries : List (Scalar × α)) : List String :=
  match listAt? shape "required" entries with
  | some items => (items.filterMap (string? shape)).eraseDups
  | none => []

/-- An object type. The first pattern makes a record, then declared properties make fields, and
otherwise a schema of the additional properties makes a record. -/
def Branch.object (entries : List (Scalar × α)) : Branch α :=
  match mapAt? shape "patternProperties" entries with
  | some patterns => .record (patterns.head?.map Prod.snd)
  | none =>
    match mapAt? shape "properties" entries with
    | some (first :: rest) => .fields (first :: rest) (requiredNames shape entries)
    | _ =>
      match mapAt? shape "additionalProperties" entries with
      | some _ => .record (field? "additionalProperties" entries)
      | none => .record none

/-- What a type name gives inside a schema mapping. -/
def Branch.ofTypeName (name : String) (entries : List (Scalar × α)) : Branch α :=
  if name = "array" then
    .array ((field? "items" entries).filter fun items => !isNull shape items)
  else if name = "object" then Branch.object shape entries
  else match Primitive.ofTypeName? name with
    | some kind => .primitive kind
    | none => .unknown

/-- What one member of a list of types gives. -/
def Branch.ofTypeMember (entries : List (Scalar × α)) (member : α) : Branch α :=
  match string? shape member with
  | some name => Branch.ofTypeName shape name entries
  | none => .unknown

/-- Is this the name of a type that can be declared? -/
def isTypeName (name : String) : Bool :=
  name = "array" || name = "object" || (Primitive.ofTypeName? name).isSome

/-- What a mapping gives whose declared type is not recognized: an object if it has properties. -/
def Branch.undeclared (entries : List (Scalar × α)) : Branch α :=
  match mapAt? shape "properties" entries with
  | some _ => Branch.object shape entries
  | none => .unknown

/-- What the declared type of a schema mapping gives. -/
def Layer.declared (entries : List (Scalar × α)) : Layer α :=
  match (field? "type" entries).map shape with
  | some (.list (first :: rest)) =>
    .branches ((first :: rest).map (Branch.ofTypeMember shape entries))
  | some (.scalar (.str name)) =>
    if isTypeName name then .branch (Branch.ofTypeName shape name entries)
    else .branch (Branch.undeclared shape entries)
  | _ => .branch (Branch.undeclared shape entries)

/-- One level of a schema mapping. The first that applies wins: `const`, a list under `enum`,
`anyOf`, `oneOf` or `allOf`, the declared type, bare properties. -/
def Layer.ofEntries (entries : List (Scalar × α)) : Layer α :=
  match field? "const" entries with
  | some value => .literal value
  | none =>
    match listAt? shape "enum" entries with
    | some values => .enumeration values
    | none =>
      match listAt? shape "anyOf" entries with
      | some members => .union .anyOf members
      | none =>
        match listAt? shape "oneOf" entries with
        | some members => .union .oneOf members
        | none =>
          match listAt? shape "allOf" entries with
          | some members => .intersection members
          | none => Layer.declared shape entries

end Selection

section Decoding

variable {α ε : Type} (literal : α → Literal) (name : Scalar → Except ε String)
  (decode : α → Except ε Schema)

/-- Decodes the properties of an object in order: each name, then its schema. -/
def decodeProperties : List (Scalar × α) → Except ε (List (String × Schema))
  | [] => .ok []
  | (key, value) :: rest => do
    let text ← name key
    let schema ← decode value
    let others ← decodeProperties rest
    return (text, schema) :: others

/-- Decodes the parts of a branch. -/
def Branch.decoded : Branch α → Except ε Schema
  | .primitive kind => .ok (.primitive kind)
  | .array none => .ok (.array none)
  | .array (some items) => (decode items).map fun s => .array (some s)
  | .fields properties required =>
    (decodeProperties name decode properties).map fun ps => .fields ps required
  | .record none => .ok (.record .unknown)
  | .record (some value) => (decode value).map .record
  | .unknown => .ok .unknown

/-- Decodes the parts of a level. The values of a literal or an enumeration are not schemas and are
carried over. -/
def Layer.decoded : Layer α → Except ε Schema
  | .literal value => .ok (.literal (literal value))
  | .enumeration values => .ok (.enumeration (values.map literal))
  | .union keyword members => (members.mapM decode).map (.union keyword)
  | .intersection members => (members.mapM decode).map .intersection
  | .branch alternative => Branch.decoded name decode alternative
  | .branches alternatives =>
    (alternatives.mapM (Branch.decoded name decode)).map (.union .type)

end Decoding

end Schema
end TypedRoutes
