import TypedRoutes.CommandLine.Options

/-!
# Tasks

What a command line asks for. A task is either a text to show, which is all there is to it, or one
of the two commands with its options.
-/

set_option autoImplicit false

namespace TypedRoutes.CommandLine

/-- What a program shows before it ends with a status. -/
structure Notice where
  status : Nat
  output : String
  errors : String
  deriving DecidableEq, Repr

/-- What a command line asks for. -/
inductive Task where
  | notice (notice : Notice)
  | sync (options : SyncOptions)
  | generate (options : GenerateOptions)
  deriving DecidableEq, Repr

/-- The programs: the one with both commands, and the one that is `sync` alone. -/
inductive Program where
  | toolkit
  | sync
  deriving DecidableEq, Repr

/-- The commands with what they do. -/
def commands : List (String × String) :=
  [("sync", "Fetch the contract from a running server and generate types"),
    ("generate", "Generate types from a local contract file")]

/-- What the toolkit says about itself. -/
def introduction : List String :=
  ["",
    "Contract sync CLI - keeps a typed TypeScript client in step with a server.",
    "",
    "Usage:",
    "    python -m api_sync <command> [options]",
    "    api-sync <command> [options]",
    "",
    "Commands:",
    "    sync        Fetch the contract from a running server and generate types",
    "    generate    Generate types from a local contract file",
    "",
    "Examples:",
    "    api-sync sync --url http://localhost:3000",
    "    api-sync sync --url http://localhost:3000 --out web/api.generated.ts " ++
      "--strip-prefix /api/v1",
    "    api-sync generate --contract contract.json",
    ""]

/-- A name filled up with spaces to the width of the column of names. -/
def columnText (name : String) : String :=
  name ++ String.ofList (List.replicate (12 - name.length) ' ')

/-- The introduction and the list of the commands. -/
def overview : String :=
  Manual.paragraph (introduction ++ ["Available commands:"] ++
    (commands.map fun (name, purpose) => "  " ++ columnText name ++ " " ++ purpose) ++
    ["", "Use '<command> --help' for command-specific options."])

/-- What is shown for a command that there is not. -/
def unknownCommand (name : String) : String :=
  Manual.paragraph ["Unknown command: " ++ name,
    "Available commands: " ++ ", ".intercalate (commands.map Prod.fst)]

namespace Task

/-- The task of a command whose options have been read. -/
def ofOptions {α : Type} (manual : Manual) (task : α → Task) : Except Refusal α → Task
  | .ok options => task options
  | .error .help => .notice ⟨0, manual.text, ""⟩
  | .error (.fault fault) => .notice ⟨2, "", manual.complaint fault⟩

/-- The task of the arguments to `sync`. -/
def ofSyncArguments (arguments : List String) : Task :=
  ofOptions SyncOptions.manual .sync (SyncOptions.parse arguments)

/-- The task of the arguments to `generate`. -/
def ofGenerateArguments (arguments : List String) : Task :=
  ofOptions GenerateOptions.manual .generate (GenerateOptions.parse arguments)

/-- The task of the arguments to the toolkit. -/
def ofToolkitArguments : List String → Task
  | [] => .notice ⟨0, overview, ""⟩
  | command :: arguments =>
    if command = "-h" ∨ command = "--help" then .notice ⟨0, overview, ""⟩
    else if command = "sync" then ofSyncArguments arguments
    else if command = "generate" then ofGenerateArguments arguments
    else .notice ⟨1, unknownCommand command, ""⟩

/-- The task of the arguments to a program. -/
def ofArguments : Program → List String → Task
  | .toolkit, arguments => ofToolkitArguments arguments
  | .sync, arguments => ofSyncArguments arguments

end Task
end TypedRoutes.CommandLine
