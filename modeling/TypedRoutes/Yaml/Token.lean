import TypedRoutes.Yaml.Fault

/-!
# Tokens of YAML texts

The indicators, names and scalars that a YAML text consists of. The starts and ends of block
collections and the keys without an indicator have tokens too, although no character stands for
them: indentation and the colon that follows give them away. Where the text cannot be read, the
fault takes the place of the next token.
-/

set_option autoImplicit false

namespace TypedRoutes.Yaml

/-- A tag as it is written: a handle and a suffix, or the whole tag. -/
structure TagName where
  handle : Option String
  suffix : String
  deriving DecidableEq, Repr

/-- A directive: the version of the format, a handle of tags, or something else. -/
inductive Directive where
  | version (major : Int)
  | handle (name expansion : String)
  | other
  deriving DecidableEq, Repr

/-- A token. A scalar is plain if it stands without quotes and is no block. -/
inductive Token where
  | streamEnd
  | directive (directive : Directive)
  | documentStart
  | documentEnd
  | blockSequenceStart
  | blockMappingStart
  | blockEnd
  | flowSequenceStart
  | flowSequenceEnd
  | flowMappingStart
  | flowMappingEnd
  | flowEntry
  | blockEntry
  | key
  | value
  | alias (name : String)
  | anchor (name : String)
  | tag (name : TagName)
  | scalar (text : String) (plain : Bool)
  | broken (fault : Fault)
  deriving DecidableEq, Repr

end TypedRoutes.Yaml
