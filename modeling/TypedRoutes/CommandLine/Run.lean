import TypedRoutes.Client.Rendering
import TypedRoutes.CommandLine.Task
import TypedRoutes.Contract.OfFile
import TypedRoutes.Contract.Server

/-!
# Running a command line

A run takes place among files and beside a server. A task is first drafted: whatever can go wrong
with the contract goes wrong there, before any file is touched. What is left is to write the
finished module, so a run writes all of it or changes no file; a fault there can leave directories.
-/

set_option autoImplicit false

namespace TypedRoutes.CommandLine

/-- What a run shows and how it ends. A halt that is not reported ends it without a status. -/
structure Outcome where
  ending : Except Halt Nat
  output : String
  errors : String
  requests : List Request
  files : FileTree
  deriving Repr

/-- What a draft comes to: an end without writing, or a module to be written, after which something
is shown. -/
inductive Verdict where
  | exit (status : Nat)
  | halt (cause : Halt)
  | write (path : FilePath) (artifact report : String)
  deriving DecidableEq, Repr

/-- A task up to the point where files are written: what has been shown, and what it comes to. -/
structure Draft where
  output : String
  errors : String
  requests : List Request
  verdict : Verdict
  deriving DecidableEq, Repr

/-- What a module comes to. It cannot be written if no place is given. -/
def Verdict.ofModule (out : Option FilePath) (artifact : String) (report : FilePath → String) :
    Verdict :=
  match out with
  | some path => .write path artifact (report path)
  | none => .halt (.noPath .output)

namespace Draft

/-- The draft of a command that has been halted. An error of the contract is shown and ends the
command with a status. -/
def ofHalt (output label : String) (requests : List Request) : Halt → Draft
  | .reported error => ⟨output, label ++ ": " ++ error.message ++ "\n", requests, .exit 1⟩
  | cause => ⟨output, "", requests, .halt cause⟩

theorem requests_ofHalt (output label : String) (requests : List Request) (cause : Halt) :
    (ofHalt output label requests cause).requests = requests := by
  cases cause <;> rfl

/-- How the module is used that is written to a path. -/
def usageHint (out : FilePath) (base : Option String) : String :=
  Manual.paragraph
    ["", "Usage:",
      "   import \x7b createClient \x7d from '" ++ Artifact.package ++ "'",
      "   import \x7b createApiClient \x7d from './" ++ FilePath.dropEnding ".ts" out.text ++ "'",
      "   const api = createApiClient(createClient('" ++ settingText base ++ "'))"]

/-- The draft of `sync`. -/
def sync (limits : Limits) (options : SyncOptions) (server : Server) : Draft :=
  match Request.forContract options.base options.endpoint (options.timeout.map Seconds.fraction)
      RetryPolicy.defaultLimit with
  | .error fault => ⟨"", "", [], .halt (.url fault)⟩
  | .ok request =>
    let output := "Fetching contract from " ++ settingText request.url ++ "...\n"
    let rendering := do
      let doc ← Document.fetch limits server request
      Rendering.ofDocument doc options.mount request.url
    match rendering with
    | .error cause => ofHalt output "Failed to sync contract" [request] cause
    | .ok rendering =>
      let count := decimalText rendering.contract.routes.length
      let report (out : FilePath) : String :=
        "Generated API types -> " ++ out.text ++ "\n" ++ usageHint out options.base
      ⟨output ++ "Received " ++ count ++ " routes\n", "", [request],
        .ofModule options.out rendering.artifact report⟩

/-- The draft of `generate`, for what came of reading the contract file if one was named. -/
def generate (limits : Limits) (options : GenerateOptions)
    (content : Option (Except FileFault (List UInt8))) : Draft :=
  match options.contract, content with
  | some path, some content =>
    let rendering := do
      let doc ← Document.ofFile limits path content
      Rendering.ofDocument doc options.mount (some path.text)
    match rendering with
    | .error cause => ofHalt "" "Failed to generate types" [] cause
    | .ok rendering =>
      let count := decimalText rendering.contract.routes.length
      let report (out : FilePath) : String :=
        "Generated API types for " ++ count ++ " routes -> " ++ out.text ++ "\n"
      ⟨"", "", [], .ofModule options.out rendering.artifact report⟩
  | _, _ => ⟨"", "", [], .halt (.noPath .contract)⟩

/-- The outcome of a draft among files. -/
def finish (draft : Draft) (files : FileTree) : Outcome :=
  let ⟨output, errors, requests, verdict⟩ := draft
  match verdict with
  | .exit status => ⟨.ok status, output, errors, requests, files⟩
  | .halt cause => ⟨.error cause, output, errors, requests, files⟩
  | .write path artifact report =>
    match files.publish path (Text.Utf8.encode artifact) with
    | .ok files => ⟨.ok 0, output ++ report, errors, requests, files⟩
    | .error breach => ⟨.error (.file breach.fault), output, errors, requests, breach.left⟩

end Draft

/-- The draft of a task among files and beside a server. -/
def Task.draft (limits : Limits) (server : Server) (files : FileTree) : Task → Draft
  | .notice shown => ⟨shown.output, shown.errors, [], .exit shown.status⟩
  | .sync options => .sync limits options server
  | .generate options => .generate limits options (options.contract.map files.read)

/-- What comes of running a program with arguments among files and beside a server. -/
def run (limits : Limits) (program : Program) (arguments : List String) (server : Server)
    (files : FileTree) : Outcome :=
  ((Task.ofArguments program arguments).draft limits server files).finish files

end TypedRoutes.CommandLine
