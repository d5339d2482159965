import TypedRoutes.Contract.OfDocument
import TypedRoutes.FileTree
import TypedRoutes.Json.OfDatum
import TypedRoutes.Json.Reader
import TypedRoutes.Text.Utf8
import TypedRoutes.Url
import TypedRoutes.Yaml.Fault

/-!
# Halts

Why there is no artifact. An error that concerns the contract is `reported` to the user; the other
halts break a command off where they arise.
-/

set_option autoImplicit false

namespace TypedRoutes

/-- What a path is needed for. -/
inductive PathUse where
  | contract
  | output
  deriving DecidableEq, Repr

/-- The report of a path that is missing. -/
def PathUse.message : PathUse → String
  | .contract => "'list' object has no attribute 'read_text'"
  | .output => "'list' object has no attribute 'parent'"

/-- Why there is no artifact. -/
inductive Halt where
  /-- The contract cannot be had or has the wrong shape. -/
  | reported (error : ContractError)
  /-- The address of the contract is no URL. -/
  | url (fault : Url.Fault)
  /-- The request for the contract breaks off, which is more than a failure of it. -/
  | request (report : String)
  /-- The contract is no text. -/
  | encoding (misfit : Text.Utf8.Misfit)
  /-- The contract holds an integer beyond the limit on digits. -/
  | digits (limit : DigitLimit)
  /-- The contract has more arrays and objects in one another than can be read. -/
  | nesting (opened : Json.Enclosure)
  /-- The contract holds half of a pair of code units, which is beyond what is modelled here. -/
  | unpaired (half : Nat)
  /-- The contract holds a value that does not fit its tag. -/
  | yaml (fault : Yaml.Fault)
  /-- A literal of the contract cannot be written. -/
  | literal (fault : UnwritableFault)
  /-- The artifact cannot be put where it belongs. -/
  | file (fault : FileFault)
  /-- The option for a path is given without one. -/
  | noPath (use : PathUse)
  deriving DecidableEq, Repr

namespace Halt

/-- The report of a halt. -/
def message : Halt → String
  | .reported error => error.message
  | .url fault => fault.message
  | .request report => report
  | .encoding misfit => misfit.message
  | .digits limit => limit.message
  | .nesting opened => opened.message
  | .unpaired half => (Json.ParseError.unpaired half).message
  | .yaml fault => fault.message
  | .literal fault => fault.message
  | .file fault => fault.message
  | .noPath use => use.message

/-- The halt of a document that is no contract. -/
def ofStop (source : Option String) : ContractStop → Halt
  | .fault fault => .reported (fault.toError source)
  | .digits limit => .digits limit

end Halt
end TypedRoutes
