import TypedRoutes.Client.Method
import TypedRoutes.RouteTree

/-!
# Declarations of the client

A forest of routes as the body of a declaration: one block for each key, in which the routes that
end there come first, each below its description, and the blocks of the segments that follow come
after them. The contract type and the interface of the client differ only in what they write for a
route.
-/

set_option autoImplicit false

namespace TypedRoutes

/-- The text of a comment. The mark that would end it early is split by a backslash. -/
def commentText : List Char → List Char
  | '*' :: '/' :: rest => '*' :: '\\' :: '/' :: commentText rest
  | c :: rest => c :: commentText rest
  | [] => []

/-- The comment above a route, unless it has no description. -/
def Route.commentLines (r : Route) (pad : String) : List String :=
  match r.description with
  | none => []
  | some text =>
    if text.isEmpty then []
    else [pad ++ "/** " ++ String.ofList (commentText text.toList) ++ " */"]

/-- How a route is written below an entry at a level. -/
abbrev RouteWriter := Route → Int → Except UnwritableFault String

/-- The lines of the routes at one place. -/
def methodLines (write : RouteWriter) (level : Int) :
    List (String × Route) → Except UnwritableFault (List String)
  | [] => .ok []
  | (key, route) :: rest => do
    let pad := padding level ++ "  "
    let text ← write route (level + 1)
    let others ← methodLines write level rest
    return route.commentLines pad ++ [pad ++ PropertyKey.text key ++ ": " ++ text] ++ others

mutual

/-- The lines between the braces of a tree whose block stands at a level. -/
def RouteTree.innerLines (write : RouteWriter) (level : Int) :
    RouteTree → Except UnwritableFault (List String)
  | .node _ methods children => do
    let own ← methodLines write level methods
    let below ← forestLines write (level + 1) children
    return own ++ below

/-- The lines of a forest whose blocks stand at a level. -/
def forestLines (write : RouteWriter) (level : Int) :
    List (String × RouteTree) → Except UnwritableFault (List String)
  | [] => .ok []
  | (key, tree) :: rest => do
    let inner ← tree.innerLines write level
    let others ← forestLines write level rest
    return [padding level ++ PropertyKey.text key ++ ": \x7b"] ++ inner ++
      [padding level ++ "\x7d"] ++ others

end

namespace RouteForest

/-- The body of the contract type. -/
def contractType (forest : RouteForest) (level : Int) : Except UnwritableFault String :=
  (forestLines Route.descriptor level forest).map lines

/-- The body of the interface of the client. -/
def clientType (forest : RouteForest) (level : Int) : Except UnwritableFault String :=
  (forestLines (fun route _ => route.signature) level forest).map lines

end RouteForest
end TypedRoutes
