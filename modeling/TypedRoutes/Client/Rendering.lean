import TypedRoutes.Client.Artifact
import TypedRoutes.Halt

/-!
# Rendering documents

From the document of a contract to the client module: the contract is decoded and its module is
generated. `Rendering.ofDocument` gives both, or the halt that prevents it.
-/

set_option autoImplicit false

namespace TypedRoutes

/-- A contract with the module that is generated for it. -/
structure Rendering where
  contract : Contract
  artifact : String
  deriving Repr, Inhabited

/-- The contract that a document holds, and its module below a mount point. -/
def Rendering.ofDocument (doc : Document) (mount source : Option String) :
    Except Halt Rendering := do
  let contract ← (Contract.ofDocument doc).mapError (Halt.ofStop source)
  let artifact ← (Artifact.ofContract contract mount).mapError Halt.literal
  return ⟨contract, artifact⟩

end TypedRoutes
