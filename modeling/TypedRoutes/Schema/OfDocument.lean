import TypedRoutes.Schema

/-!
# Decoding schemas

`Schema.ofDocument` decodes the schema that a value of a document is. Documents can be cyclic, so
a mapping met again inside its own decoding gives `unknown`, and nothing else does: a mapping met
twice side by side is decoded twice. `Schema.decodeWithin` counts the nested steps, of which there
is at most one for each mapping, and one more.
-/

set_option autoImplicit false

namespace TypedRoutes.Schema

/-- Why a schema is not decoded: more nested steps than allowed, or a property name beyond the
limit on digits. -/
inductive DecodeFault where
  | tooDeep
  | digits (limit : DigitLimit)
  deriving DecidableEq, Repr

/-- The name of a property: the plain text of its key. -/
def propertyName (key : Scalar) : Except DecodeFault String :=
  match key.text with
  | .ok name => .ok name
  | .error limit => .error (.digits limit)

/-- Decodes a value in at most `depth` nested steps. `active` holds the mappings that are being
decoded. -/
def decodeWithin (doc : Document) :
    (depth : Nat) → (active : List Nat) → Document.Value → Except DecodeFault Schema
  | 0, _, _ => .error .tooDeep
  | depth + 1, active, v =>
    match doc.mapping? v with
    | none => .ok .unknown
    | some (id, entries) =>
      if id ∈ active then .ok .unknown
      else
        (Layer.ofEntries doc.shape entries).decoded (Literal.ofDocument doc) propertyName
          (decodeWithin doc depth (id :: active))

/-- The schema that a value of a document is. -/
def ofDocument (doc : Document) (v : Document.Value) : Except DigitLimit Schema :=
  match decodeWithin doc (doc.mappingCount + 1) [] v with
  | .ok schema => .ok schema
  | .error .tooDeep => .ok .unknown
  | .error (.digits limit) => .error limit

end TypedRoutes.Schema
