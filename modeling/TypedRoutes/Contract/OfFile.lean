import TypedRoutes.Halt
import TypedRoutes.Limits
import TypedRoutes.Text.Newline
import TypedRoutes.Yaml.Document

/-!
# Contracts in files

A contract file holds a YAML document if its extension says so, and a JSON document otherwise; in
either case the document is a mapping. `Document.ofFile` takes what came of reading the file.
-/

set_option autoImplicit false

namespace TypedRoutes

/-- The extensions of YAML files, in any letter case. -/
def yamlExtensions : List String := [".yml", ".yaml"]

/-- Does a path name a YAML file? -/
def FilePath.isYaml (p : FilePath) : Bool := yamlExtensions.contains (Text.lowerCase p.extension)

namespace Document

/-- Is the root of the document a mapping? -/
def isMapping (doc : Document) : Bool := (doc.mapping? doc.root).isSome

/-- What is reported of a file whose text is no document. -/
def malformed (path : FilePath) (report : String) : Halt :=
  .reported (.general ("Invalid contract document: " ++ report) path.text)

/-- The document that the text of a file is. Only a breach of the format is reported. -/
def ofText (limits : Limits) (path : FilePath) (text : String) : Except Halt Document :=
  if path.isYaml then
    match ofYaml limits text with
    | .ok doc => .ok doc
    | .error .malformed => .error (malformed path Yaml.Fault.malformed.message)
    | .error fault => .error (.yaml fault)
  else
    match Json.parseWithin limits.json text with
    | .ok json => .ok (ofJson json)
    | .error (.malformed fault place) =>
      .error (malformed path (Json.ParseError.malformed fault place).message)
    | .error (.digits limit) => .error (.digits limit)
    | .error (.nesting opened) => .error (.nesting opened)
    | .error (.unpaired half) => .error (.unpaired half)

/-- The text of a file. Every line end is read as a line feed. -/
def fileText (path : FilePath) : Except FileFault (List UInt8) → Except Halt String
  | .ok bytes =>
    match Text.Utf8.read bytes with
    | .ok text => .ok (String.ofList (Text.unifyNewlines text.toList))
    | .error misfit => .error (.encoding misfit)
  | .error fault =>
    if fault.reason = .nullCharacter then .error (.file fault)
    else .error (.reported (.general ("Failed to read contract file: " ++ fault.message) path.text))

/-- The document that a file holds. -/
def ofFile (limits : Limits) (path : FilePath) (content : Except FileFault (List UInt8)) :
    Except Halt Document := do
  let text ← fileText path content
  let doc ← ofText limits path text
  if doc.isMapping then return doc
  else throw (.reported (.general "Contract root must be a mapping" path.text))

end Document
end TypedRoutes
