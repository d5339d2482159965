import TypedRoutes.Contract
import TypedRoutes.Entries
import TypedRoutes.Text.Split

/-!
# The tree of routes

Routes grouped by the segments of their paths. A dynamic segment, written with a leading colon,
stands under one key whatever its name, and a streaming route is kept under a key of its own instead
of its method. `RouteForest.ofRoutes` builds the trees: keys keep the order in which they were first
met, and of two routes in one place the later one stays.
-/

set_option autoImplicit false

namespace TypedRoutes

/-- What stands under one segment: the routes that end here by method key, and the trees of the
segments that follow. -/
inductive RouteTree where
  | node (isDynamic : Bool) (methods : List (String × Route))
      (children : List (String × RouteTree))
  deriving Repr, Inhabited

/-- The trees of the first segments. -/
abbrev RouteForest := List (String × RouteTree)

namespace RouteTree

/-- Does the segment of this tree stand for a parameter? -/
def isDynamic : RouteTree → Bool
  | .node isDynamic _ _ => isDynamic

/-- The routes that end at this tree, by method key. -/
def methods : RouteTree → List (String × Route)
  | .node _ methods _ => methods

/-- The trees of the segments that follow. -/
def children : RouteTree → RouteForest
  | .node _ _ children => children

end RouteTree

namespace RoutePath

/-- The text without the separators at its ends. -/
def trim (cs : List Char) : List Char :=
  ((cs.dropWhile (· = '/')).reverse.dropWhile (· = '/')).reverse

/-- A mount point in its normal form: one leading separator and none at the end, or nothing. -/
def normalizeMount (mount : Option String) : String :=
  match trim (mount.getD "").toList with
  | [] => ""
  | cs => String.ofList ('/' :: cs)

/-- A path without a leading mount point, which is compared letter by letter. What is left of the
path of the mount point itself is the root. -/
def unmount (mount path : String) : String :=
  if !mount.isEmpty && mount.toList.isPrefixOf path.toList then
    match path.toList.drop mount.length with
    | [] => "/"
    | rest => String.ofList rest
  else path

/-- The segments of a path: the parts between its separators that are not empty. -/
def segments (path : String) : List String :=
  ((Text.splitAt '/' path.toList).filter fun part => !part.isEmpty).map String.ofList

/-- The key of every dynamic segment. -/
def dynamicKey : String := ":id"

/-- A segment in its canonical form: its key, and whether it is dynamic. A dynamic segment is
written with a leading colon. -/
def canonical (segment : String) : String × Bool :=
  if segment.toList.head? = some ':' then (dynamicKey, true) else (segment, false)

/-- The canonical segments of a path below a mount point in its normal form. -/
def address (mount path : String) : List (String × Bool) :=
  (segments (unmount mount path)).map canonical

end RoutePath

/-- The key of every streaming route. -/
def streamKey : String := "sse"

/-- The key under which a route is kept at the end of its path. -/
def Route.key (r : Route) : String := if r.streaming then streamKey else r.methodKey

namespace RouteTree

/-- A tree without routes. -/
def bare (isDynamic : Bool) : RouteTree := .node isDynamic [] []

/-- The tree with a route set at an address below it. -/
def insert (route : Route) : List (String × Bool) → RouteTree → RouteTree
  | [], .node isDynamic methods children =>
    .node isDynamic (Entries.put route.key route methods) children
  | (key, dynamic) :: rest, .node isDynamic methods children =>
    .node isDynamic methods
      (Entries.alter key (fun below => insert route rest (below.getD (bare dynamic))) children)

end RouteTree

namespace RouteForest

/-- The forest with a route set at an address. An empty address changes nothing. -/
def insert (route : Route) (address : List (String × Bool)) (forest : RouteForest) : RouteForest :=
  match address with
  | [] => forest
  | (key, dynamic) :: rest =>
    Entries.alter key (fun below => (below.getD (.bare dynamic)).insert route rest) forest

/-- The forest of a list of routes below a mount point. -/
def ofRoutes (mount : Option String) (routes : List Route) : RouteForest :=
  let normalized := RoutePath.normalizeMount mount
  routes.foldl (fun forest r => insert r (RoutePath.address normalized r.path) forest) []

end RouteForest

example : RoutePath.normalizeMount (some "billing/api//") = "/billing/api" := by decide
example : RoutePath.segments "//a/:b/" = ["a", ":b"] := by decide
example : RoutePath.unmount "/api" "/api" = "/" := by decide
example : RoutePath.unmount "/api" "/apiary" = "ary" := by decide

end TypedRoutes
