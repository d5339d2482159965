import TypedRoutes.Text.LowerCase
import TypedRoutes.Text.Split

/-!
# File paths

A path is a list of names below the working directory or below the root. Its normal form, which is
the only one kept, has no empty names and no `.`; a `..` stays, because what it means depends on the
directories that are there. `FilePath.text` writes a path and `FilePath.ofText` reads one.
-/

set_option autoImplicit false

namespace TypedRoutes

/-- A path. Two slashes in front of it are another root than one; more count as one. -/
structure FilePath where
  slashes : Nat
  names : List String
  deriving DecidableEq, Repr, Inhabited

namespace FilePath

/-- The number of slashes that mark the root. -/
def rootSlashes (cs : List Char) : Nat :=
  match (cs.takeWhile (· = '/')).length with
  | 0 => 0
  | 2 => 2
  | _ => 1

/-- Is the name one that a path keeps? -/
def isKept (name : List Char) : Bool := !name.isEmpty && name ≠ ['.']

/-- The path that a text is. -/
def ofText (text : String) : FilePath where
  slashes := rootSlashes text.toList
  names := ((Text.splitAt '/' text.toList).filter isKept).map String.ofList

/-- The text of a path; the working directory is written as a point. -/
def text (p : FilePath) : String :=
  if p.slashes = 0 && p.names.isEmpty then "."
  else String.ofList (List.replicate p.slashes '/') ++ "/".intercalate p.names

/-- The last name of a path, empty if it has none. -/
def name (p : FilePath) : String := p.names.getLast?.getD ""

/-- The directory that holds what a path leads to; without a name the path is its own. -/
def parent (p : FilePath) : FilePath := { p with names := p.names.dropLast }

/-- The extension of the last name, from its last point on. A point at either end of the name
starts none. -/
def extension (p : FilePath) : String :=
  let cs := p.name.toList
  let after := (cs.reverse.takeWhile (· ≠ '.')).reverse
  if after.isEmpty || cs.length ≤ after.length + 1 then ""
  else String.ofList ('.' :: after)

/-- The text without an ending, if it has it. -/
def dropEnding (ending text : String) : String :=
  if ending.toList.isSuffixOf text.toList then
    String.ofList (text.toList.take (text.length - ending.length))
  else text

example : (ofText ".//a/./b/../c/").text = "a/b/../c" := by decide +kernel
example : (ofText "").text = "." := by decide +kernel
example : (ofText "///a").text = "/a" := by decide +kernel
example : (ofText "d.x/c.tar.gz").extension = ".gz" := by decide +kernel
example : (ofText "d.x/.profile").extension = "" := by decide +kernel
example : (ofText "d.x/c.").extension = "" := by decide +kernel

end FilePath
end TypedRoutes
