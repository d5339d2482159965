import TypedRoutes.Client.Declaration
import TypedRoutes.Proofs.Outcome

/-!
# When a declaration is written

What is written for a route, for the routes at one place, for a tree and for a forest is written
exactly if its parts are, and it is put together from these. The equivalences for trees and forests
hold for any way to write a route, so they serve the contract type and the interface of the client.
-/

set_option autoImplicit false

namespace TypedRoutes

namespace Route

variable {r : Route}

/-- The fields of a descriptor take the texts of all slots. -/
theorem descriptorFields_eq_ok_iff {fields : List String} :
    r.descriptorFields = .ok fields ↔ ∃ query body params result,
      slotText? r.slots.query = .ok query ∧ slotText? r.slots.body = .ok body ∧
        slotText? r.slots.params = .ok params ∧ r.resultText = .ok result ∧
        (query.map ("query: " ++ ·)).toList ++ (body.map ("body: " ++ ·)).toList ++
          (params.map ("params: " ++ ·)).toList ++ ["return: " ++ result] = fields := by
  constructor
  · intro h
    obtain ⟨query, hquery, h⟩ := Outcome.bind_eq_ok.1 h
    obtain ⟨body, hbody, h⟩ := Outcome.bind_eq_ok.1 h
    obtain ⟨params, result, hparams, hresult, h⟩ := Outcome.seq_eq_ok.1 h
    exact ⟨query, body, params, result, hquery, hbody, hparams, hresult, h⟩
  · rintro ⟨query, body, params, result, hquery, hbody, hparams, hresult, rfl⟩
    rw [descriptorFields, hquery, hbody, hparams, hresult]
    rfl

/-- A signature takes the text of the result and of two slots. -/
theorem signature_eq_ok_iff {signature : String} :
    r.signature = .ok signature ↔ ∃ result body query,
      r.resultText = .ok result ∧ slotText? r.slots.body = .ok body ∧
        slotText? r.slots.query = .ok query ∧
        "(" ++ ", ".intercalate (parameters r.streaming body query result) ++ ") => " ++
          callResult r.streaming result = signature := by
  constructor
  · intro h
    obtain ⟨result, hresult, h⟩ := Outcome.bind_eq_ok.1 h
    obtain ⟨body, query, hbody, hquery, h⟩ := Outcome.seq_eq_ok.1 h
    exact ⟨result, body, query, hresult, hbody, hquery, h⟩
  · rintro ⟨result, body, query, hresult, hbody, hquery, rfl⟩
    rw [Route.signature, hresult, hbody, hquery]
    rfl

end Route

variable {write : RouteWriter} {level : Int} {key : String} {written : List String}

/-- The methods of a node are printed when the entry of the first can be written and the rest is
printed. -/
theorem methodLines_cons_eq_ok_iff {route : Route} {rest : List (String × Route)} :
    methodLines write level ((key, route) :: rest) = .ok written ↔
      ∃ text others, write route (level + 1) = .ok text ∧
        methodLines write level rest = .ok others ∧
        route.commentLines (padding level ++ "  ") ++
          [padding level ++ "  " ++ PropertyKey.text key ++ ": " ++ text] ++ others = written :=
  Outcome.seq_eq_ok

/-- The lines of a node are those of its methods followed by those of its children. -/
theorem RouteTree.innerLines_eq_ok_iff {isDynamic : Bool} {methods : List (String × Route)}
    {children : List (String × RouteTree)} :
    (RouteTree.node isDynamic methods children).innerLines write level = .ok written ↔
      ∃ own below, methodLines write level methods = .ok own ∧
        forestLines write (level + 1) children = .ok below ∧ own ++ below = written :=
  Outcome.seq_eq_ok

/-- A child is printed between the line that opens its block and the one that closes it. -/
theorem forestLines_cons_eq_ok_iff {tree : RouteTree} {rest : List (String × RouteTree)} :
    forestLines write level ((key, tree) :: rest) = .ok written ↔
      ∃ inner others, tree.innerLines write level = .ok inner ∧
        forestLines write level rest = .ok others ∧
        [padding level ++ PropertyKey.text key ++ ": \x7b"] ++ inner ++
          [padding level ++ "\x7d"] ++ others = written :=
  Outcome.seq_eq_ok

end TypedRoutes
