import TypedRoutes.FilePath
import TypedRoutes.Number.Shortest
import TypedRoutes.Text.Quoted

/-!
# File trees

The files that a program finds and leaves, as data. A path is followed name by name through
directories that exist, so a path through a missing directory leads nowhere even if it comes back
out of it. `FileTree.read` and `FileTree.write` read and write whole files and
`FileTree.makeDirectories` makes a directory with all that are missing above it; a `FileFault` says
why one of them cannot be done. Several directories are made one after another, so a fault can leave
some of them behind: a `FileTree.Breach` is a fault with the tree that it leaves.
-/

set_option autoImplicit false

namespace TypedRoutes

/-- Why the system cannot do what it is asked with a path. -/
inductive FileFault.Reason where
  | missing
  | occupied
  | notDirectory
  | isDirectory
  | nameTooLong
  /-- The path holds a null character, so the system is not even asked. -/
  | nullCharacter
  deriving DecidableEq, Repr

/-- The number that the system gives a reason of its own. -/
def FileFault.Reason.number? : FileFault.Reason → Option Nat
  | .missing => some 2
  | .occupied => some 17
  | .notDirectory => some 20
  | .isDirectory => some 21
  | .nameTooLong => some 36
  | .nullCharacter => none

/-- The report of a reason. -/
def FileFault.Reason.message : FileFault.Reason → String
  | .missing => "No such file or directory"
  | .occupied => "File exists"
  | .notDirectory => "Not a directory"
  | .isDirectory => "Is a directory"
  | .nameTooLong => "File name too long"
  | .nullCharacter => "embedded null byte"

/-- A path that the system cannot do with what it is asked. -/
structure FileFault where
  reason : FileFault.Reason
  path : FilePath
  deriving DecidableEq, Repr

/-- The report of a fault. A reason of the system goes with its number and the path. -/
def FileFault.message (fault : FileFault) : String :=
  match fault.reason.number? with
  | none => fault.reason.message
  | some number =>
    "[Errno " ++ decimalText number ++ "] " ++ fault.reason.message ++ ": " ++
      Text.quoted fault.path.text

/-- Where a location is counted from: the root, or the directory some levels above the working
directory. -/
inductive Origin where
  | root
  | working (climbs : Nat)
  deriving DecidableEq, Repr, Inhabited

/-- A place in the tree: the names to pass, none of which leads up. -/
structure Location where
  origin : Origin
  names : List String
  deriving DecidableEq, Repr, Inhabited

namespace Location

/-- The working directory. -/
def working : Location := ⟨.working 0, []⟩

/-- The location one level up. There is nothing above the root. -/
def up (l : Location) : Location :=
  match l.names, l.origin with
  | [], .root => l
  | [], .working climbs => ⟨.working (climbs + 1), []⟩
  | _, _ => { l with names := l.names.dropLast }

/-- The location that a name leads to. -/
def enter (l : Location) (name : String) : Location :=
  if name = ".." then l.up else { l with names := l.names ++ [name] }

end Location

/-- The files with their contents, and the directories besides the origins, which are always
there. -/
structure FileTree where
  files : List (Location × List UInt8)
  directories : List Location
  deriving Repr, Inhabited

namespace FileTree

/-- A tree without files. -/
def empty : FileTree := ⟨[], []⟩

/-- Is there a directory? -/
def isDirectory (tree : FileTree) (l : Location) : Bool :=
  l.names.isEmpty || tree.directories.contains l

/-- The content of the file at a location. -/
def content? (tree : FileTree) (l : Location) : Option (List UInt8) := tree.files.lookup l

/-- The longest name that a directory can hold, in bytes. -/
def nameLimit : Nat := 255

/-- The length from which on a path is too long as a whole, in bytes. -/
def pathLimit : Nat := 4096

/-- The location that names lead to. All that is passed on the way are directories. -/
def follow (tree : FileTree) (l : Location) : List String → Except FileFault.Reason Location
  | [] => .ok l
  | name :: rest =>
    if tree.isDirectory l then
      if nameLimit < name.utf8ByteSize then .error .nameTooLong
      else tree.follow (l.enter name) rest
    else if (tree.content? l).isSome then .error .notDirectory
    else .error .missing

/-- The location that a path leads to. -/
def locate (tree : FileTree) (p : FilePath) : Except FileFault.Reason Location :=
  if p.text.toList.contains '\x00' then .error .nullCharacter
  else if pathLimit ≤ p.text.utf8ByteSize then .error .nameTooLong
  else tree.follow (if p.slashes = 0 then .working else ⟨.root, []⟩) p.names

/-- The fault of a path that cannot be located, or what is done at its location. -/
def atPath {α : Type} (tree : FileTree) (p : FilePath)
    (action : Location → Except FileFault.Reason α) : Except FileFault α :=
  ((tree.locate p).bind action).mapError fun reason => ⟨reason, p⟩

/-- The content of the file that a path leads to. -/
def read (tree : FileTree) (p : FilePath) : Except FileFault (List UInt8) :=
  tree.atPath p fun l =>
    if tree.isDirectory l then .error .isDirectory
    else match tree.content? l with
      | some content => .ok content
      | none => .error .missing

/-- The files after one of them is set: a file that is there keeps its place. -/
def setFile (l : Location) (content : List UInt8) :
    List (Location × List UInt8) → List (Location × List UInt8)
  | [] => [(l, content)]
  | (k, old) :: rest =>
    if k = l then (k, content) :: rest else (k, old) :: setFile l content rest

/-- Puts a file where a path leads, in the place of one that is there. -/
def write (tree : FileTree) (p : FilePath) (content : List UInt8) : Except FileFault FileTree :=
  tree.atPath p fun l =>
    if tree.isDirectory l then .error .isDirectory
    else .ok { tree with files := setFile l content tree.files }

/-- Does a path lead to a directory? -/
def leadsToDirectory (tree : FileTree) (p : FilePath) : Bool :=
  match tree.locate p with
  | .ok l => tree.isDirectory l
  | .error _ => false

/-- Makes one directory, whose parent has to be there. -/
def makeDirectory (tree : FileTree) (p : FilePath) : Except FileFault FileTree :=
  tree.atPath p fun l =>
    if tree.isDirectory l || (tree.content? l).isSome then .error .occupied
    else .ok { tree with directories := tree.directories ++ [l] }

/-- A fault with what has been done before it: the tree as it is left. -/
structure Breach where
  fault : FileFault
  left : FileTree
  deriving Repr

/-- The tree as it is, if a path leads to a directory: then nothing is to be made. -/
def acceptDirectory (tree : FileTree) (p : FilePath) (fault : FileFault) :
    Except Breach FileTree :=
  if tree.leadsToDirectory p then .ok tree else .error ⟨fault, tree⟩

/-- Makes the directory that a path leads to, unless it is there. If something above it is missing,
that is made first; `depth` bounds how far up this goes. -/
def makeDirectoriesWithin : (depth : Nat) → FileTree → FilePath → Except Breach FileTree
  | depth, tree, p =>
    match tree.makeDirectory p with
    | .ok tree => .ok tree
    | .error fault =>
      if fault.reason = .missing then
        match depth with
        | 0 => .error ⟨fault, tree⟩
        | depth + 1 =>
          match makeDirectoriesWithin depth tree p.parent with
          | .error breach => .error breach
          | .ok tree =>
            match tree.makeDirectory p with
            | .ok tree => .ok tree
            | .error fault => tree.acceptDirectory p fault
      else tree.acceptDirectory p fault

/-- Makes the directory that a path leads to, with all that are missing above it, unless it is
there. -/
def makeDirectories (tree : FileTree) (p : FilePath) : Except Breach FileTree :=
  makeDirectoriesWithin p.names.length tree p

/-- Writes a file, for which the directory is made if it is missing. -/
def publish (tree : FileTree) (p : FilePath) (content : List UInt8) : Except Breach FileTree :=
  (tree.makeDirectories p.parent).bind fun tree =>
    (tree.write p content).mapError fun fault => ⟨fault, tree⟩

end FileTree

section Examples

private def sample : FileTree where
  files := [(⟨.working 0, ["f"]⟩, [1]), (⟨.working 0, ["d", "g"]⟩, [2])]
  directories := [⟨.working 0, ["d"]⟩]

private def reason? {α : Type} : Except FileFault α → Option FileFault.Reason
  | .ok _ => none
  | .error fault => some fault.reason

private def breach? : Except FileTree.Breach FileTree → Option (FileFault.Reason × List Location)
  | .ok _ => none
  | .error breach => some (breach.fault.reason, breach.left.directories)

example : (sample.read (.ofText "d/../d/./g")).toOption = some [2] := by decide +kernel
example : reason? (sample.read (.ofText "x/../f")) = some .missing := by decide +kernel
example : reason? (sample.read (.ofText "f/../f")) = some .notDirectory := by decide +kernel
example : reason? (sample.read (.ofText "")) = some .isDirectory := by decide +kernel
example : breach? (sample.publish (.ofText "f/h") [3]) =
    some (.occupied, [⟨.working 0, ["d"]⟩]) := by decide +kernel
example : breach? (sample.publish (.ofText "x/../f/y/h") [3]) =
    some (.occupied, [⟨.working 0, ["d"]⟩, ⟨.working 0, ["x"]⟩]) := by decide +kernel
example : ((sample.publish (.ofText "x/y/../h") [3]).map FileTree.directories).toOption =
    some [⟨.working 0, ["d"]⟩, ⟨.working 0, ["x"]⟩, ⟨.working 0, ["x", "y"]⟩] := by decide +kernel

end Examples
end TypedRoutes
