import TypedRoutes.CommandLine.Argument
import TypedRoutes.FilePath

/-!
# The options of the commands

What can be asked of the two commands: `sync`, which takes the contract from a server, and
`generate`, which takes it from a file. An option that is given without a value is without one even
if it has a default. A `Manual` is what a command says about its own use.
-/

set_option autoImplicit false

namespace TypedRoutes.CommandLine

/-- What a command says about its use. -/
structure Manual where
  program : String
  usage : List String
  purpose : String
  options : List String
  deriving Repr

namespace Manual

/-- Lines of text, each of them ended. -/
def paragraph (lines : List String) : String := "".intercalate (lines.map (· ++ "\n"))

/-- The whole manual. -/
def text (m : Manual) : String :=
  paragraph (m.usage ++ ["", m.purpose, "", "options:"] ++ m.options)

/-- What is said of faulty arguments. -/
def complaint (m : Manual) (fault : UsageFault) : String :=
  paragraph (m.usage ++ [m.program ++ ": error: " ++ fault.message])

end Manual

/-- The lines on the options that both commands have, after their own. -/
def outputManual : List String :=
  ["  --out OUT             Output path for the generated TypeScript file",
    "  --strip-prefix STRIP_PREFIX",
    "                        Path prefix to strip from every route (e.g. /api/v1)"]

/-- The line on the option that asks for help. -/
def helpManual : String := "  -h, --help            show this help message and exit"

/-- The options that both commands have. -/
def outputFlags : List Flag := [⟨"--out", false, false⟩, ⟨"--strip-prefix", false, false⟩]

/-- Where the module goes, unless it is said. -/
def defaultOutput : FilePath := .ofText "src/api.generated.ts"

/-- Where servers have their contract, unless it is said. -/
def defaultEndpoint : String := "/__contract__"

/-- Where the module goes, and the mount point to take off. -/
structure OutputOptions where
  out : Option FilePath
  mount : Option String
  deriving DecidableEq, Repr

/-- The options on the output that arguments give. -/
def OutputOptions.ofReading (r : Reading) : OutputOptions where
  out := ((r.value? "--out").map (Option.map FilePath.ofText)).getD (some defaultOutput)
  mount := (r.value? "--strip-prefix").join

/-- The options of `sync`. -/
structure SyncOptions extends OutputOptions where
  base : Option String
  endpoint : Option String
  timeout : Option Binary64
  deriving DecidableEq, Repr

namespace SyncOptions

/-- What can be given to `sync`. -/
def flags : List Flag :=
  [⟨"--url", true, false⟩, ⟨"--endpoint", false, false⟩, ⟨"--timeout", false, true⟩] ++ outputFlags

/-- What `sync` says about its use. -/
def manual : Manual where
  program := "api-sync sync"
  usage :=
    ["usage: api-sync sync [-h] --url URL [--endpoint ENDPOINT] [--timeout TIMEOUT]",
      "                     [--out OUT] [--strip-prefix STRIP_PREFIX]"]
  purpose := "Sync API types from a running server"
  options :=
    [helpManual,
      "  --url URL             Server base URL",
      "  --endpoint ENDPOINT   Contract endpoint path",
      "  --timeout TIMEOUT     Request timeout in seconds"] ++ outputManual

/-- How long to wait for a server, unless it is said. -/
def defaultTimeout : Binary64 := .ofDecimal false 10 0

/-- The options that arguments give to `sync`. -/
def parse (arguments : List String) : Except Refusal SyncOptions := do
  let r ← Flag.parse flags arguments
  return {
    toOutputOptions := .ofReading r
    base := (r.value? "--url").join
    endpoint := (r.value? "--endpoint").getD (some defaultEndpoint)
    timeout :=
      ((r.value? "--timeout").map (Option.bind · Numeral.readBinary64)).getD (some defaultTimeout) }

end SyncOptions

/-- The options of `generate`. -/
structure GenerateOptions extends OutputOptions where
  contract : Option FilePath
  deriving DecidableEq, Repr

namespace GenerateOptions

/-- What can be given to `generate`. -/
def flags : List Flag := ⟨"--contract", true, false⟩ :: outputFlags

/-- What `generate` says about its use. -/
def manual : Manual where
  program := "api-sync generate"
  usage :=
    ["usage: api-sync generate [-h] --contract CONTRACT [--out OUT]",
      "                         [--strip-prefix STRIP_PREFIX]"]
  purpose := "Generate API types from a contract file"
  options :=
    [helpManual,
      "  --contract CONTRACT   Path to the contract document (JSON or YAML)"] ++ outputManual

/-- The options that arguments give to `generate`. -/
def parse (arguments : List String) : Except Refusal GenerateOptions := do
  let r ← Flag.parse flags arguments
  return {
    toOutputOptions := .ofReading r
    contract := (r.value? "--contract").join.map FilePath.ofText }

end GenerateOptions
end TypedRoutes.CommandLine
