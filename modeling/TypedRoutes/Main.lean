import TypedRoutes.CommandLine.Run

/-!
# The program

The toolkit among the files of the machine. Everything is decided by the draft of the task; what is
done here is to read the contract file, to show the texts, and to write the module. Servers cannot
be reached from here, so every request fails.
-/

set_option autoImplicit false

namespace TypedRoutes.CommandLine

/-- The number of an error of the machine, which may be given with a minus sign. -/
def errorNumber (code : UInt32) : Nat := min code.toNat (-code).toNat

/-- The reason that an error of the machine stands for, if it is one of those that have a name. -/
def reasonOf? : IO.Error → Option FileFault.Reason
  | .noFileOrDirectory _ code _ | .alreadyExists _ code _ | .inappropriateType _ code _
  | .invalidArgument _ code _ =>
    [.missing, .occupied, .notDirectory, .isDirectory, .nameTooLong].find? fun reason =>
      FileFault.Reason.number? reason = some (errorNumber code)
  | _ => none

/-- What comes of an action on a path. -/
def attempt {α : Type} (path : FilePath) (action : IO α) : IO (Except FileFault α) := do
  try
    let result ← action
    return .ok result
  catch error =>
    match reasonOf? error with
    | some reason => return .error ⟨reason, path⟩
    | none => throw error

/-- Reads the file that a path leads to. -/
def readFile (path : FilePath) : IO (Except FileFault (List UInt8)) :=
  attempt path do
    let content ← IO.FS.readBinFile path.text
    return content.data.toList

/-- Accepts a directory that could not be made, if it is there: then it is no file to be read. -/
def acceptDirectory (path : FilePath) (fault : FileFault) : IO (Except FileFault Unit) := do
  match ← readFile path with
  | .error ⟨.isDirectory, _⟩ => return .ok ()
  | _ => return .error fault

/-- Makes a directory unless it is there; if something above it is missing, that comes first. -/
def makeDirectories : (depth : Nat) → FilePath → IO (Except FileFault Unit)
  | depth, path => do
    match ← attempt path (IO.FS.createDir path.text) with
    | .ok _ => return .ok ()
    | .error fault =>
      match depth, fault.reason with
      | depth + 1, .missing =>
        match ← makeDirectories depth path.parent with
        | .error fault => return .error fault
        | .ok _ =>
          match ← attempt path (IO.FS.createDir path.text) with
          | .ok _ => return .ok ()
          | .error fault => acceptDirectory path fault
      | _, .missing => return .error fault
      | _, _ => acceptDirectory path fault

/-- Writes a file, for which the directory is made if it is missing. -/
def writeFile (path : FilePath) (text : String) : IO (Except FileFault Unit) := do
  match ← makeDirectories path.parent.names.length path.parent with
  | .error fault => return .error fault
  | .ok _ => attempt path (IO.FS.writeFile path.text text)

/-- The server that cannot be reached. -/
def unreachable : Server := fun _ => .failed "the network cannot be reached"

/-- The draft of a task, for which the contract file is read. -/
def Task.draftFromDisk : Task → IO Draft
  | .generate options => do
    let content ← options.contract.mapM readFile
    return .generate .usual options content
  | task => return task.draft .usual unreachable .empty

/-- Shows why a command is broken off. -/
def showHalt (cause : Halt) : IO UInt32 := do
  IO.eprintln cause.message
  return 1

/-- Carries out what a draft comes to. -/
def Draft.carryOut (draft : Draft) : IO UInt32 := do
  IO.print draft.output
  IO.eprint draft.errors
  match draft.verdict with
  | .exit status => return status.toUInt32
  | .halt cause => showHalt cause
  | .write path artifact report =>
    let written ← writeFile path artifact
    match written with
    | .ok _ =>
      IO.print report
      return 0
    | .error fault => showHalt (.file fault)

end TypedRoutes.CommandLine

/-- Runs the toolkit with the arguments of the command line. -/
def main (arguments : List String) : IO UInt32 := do
  let task := TypedRoutes.CommandLine.Task.ofArguments .toolkit arguments
  let draft ← task.draftFromDisk
  draft.carryOut
