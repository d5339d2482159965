import TypedRoutes.Proofs.Client.Declaration
import TypedRoutes.Proofs.PropertyKey

/-!
# The skeleton of an interface

What the interface of a client says, without its layout: the blocks in order, and in each block its
methods with their comments and signatures, and the blocks inside it. `RouteForest.skeleton` takes
it from a forest of routes; `Skeleton.read` takes it from the text of an interface, knowing nothing
of the forest or of the level at which it was written.

The reader goes through the lines with the blocks that are open. Padding says nothing to it: where a
block ends is said by its closing line.
-/

set_option autoImplicit false

namespace TypedRoutes

/-- A method of a block: its key, its comment as it is written, and its signature. -/
structure Skeleton.Method where
  key : String
  comment : Option String
  signature : String
  deriving DecidableEq, Repr

/-- A block of an interface: its key, its methods, and the blocks inside it. -/
inductive Skeleton where
  | block (key : String) (methods : List Skeleton.Method) (blocks : List Skeleton)
  deriving Repr

/-! ## From routes -/

/-- The comment of a route as it is written; an empty description makes none. -/
def Route.comment? (r : Route) : Option String :=
  match r.description with
  | none => none
  | some text => if text.isEmpty then none else some (String.ofList (commentText text.toList))

/-- The comment of a route is one line or none. -/
theorem Route.commentLines_eq_map (r : Route) (pad : String) :
    r.commentLines pad = r.comment?.toList.map fun text => pad ++ "/** " ++ text ++ " */" := by
  unfold commentLines comment?
  cases r.description with
  | none => rfl
  | some text => by_cases hempty : text.isEmpty = true <;> simp [hempty]

/-- The methods of the routes at one place. -/
def methodSkeletons : List (String × Route) → Except UnwritableFault (List Skeleton.Method)
  | [] => .ok []
  | (key, route) :: rest => do
    let signature ← route.signature
    let others ← methodSkeletons rest
    return ⟨key, route.comment?, signature⟩ :: others

mutual

/-- The block of a tree that stands under a key. -/
def RouteTree.skeleton (key : String) : RouteTree → Except UnwritableFault Skeleton
  | .node _ methods children => do
    let own ← methodSkeletons methods
    let below ← forestSkeleton children
    return .block key own below

/-- The blocks of a forest. -/
def forestSkeleton : List (String × RouteTree) → Except UnwritableFault (List Skeleton)
  | [] => .ok []
  | (key, tree) :: rest => do
    let first ← tree.skeleton key
    let others ← forestSkeleton rest
    return first :: others

end

/-- The skeleton of a node is a block of its methods and its children. -/
theorem RouteTree.skeleton_node {key : String} {dynamic : Bool} {methods : List (String × Route)}
    {children : List (String × RouteTree)} {own : List Skeleton.Method} {below : List Skeleton}
    (hmethods : methodSkeletons methods = .ok own)
    (hchildren : forestSkeleton children = .ok below) :
    RouteTree.skeleton key (.node dynamic methods children) = .ok (.block key own below) :=
  Outcome.seq_eq_ok.2 ⟨own, below, hmethods, hchildren, rfl⟩

theorem forestSkeleton_singleton {key : String} {tree : RouteTree} {block : Skeleton}
    (h : tree.skeleton key = .ok block) : forestSkeleton [(key, tree)] = .ok [block] :=
  Outcome.seq_eq_ok.2 ⟨block, [], h, rfl, rfl⟩

/-- The skeleton of the interface of a forest. -/
def RouteForest.skeleton (forest : RouteForest) : Except UnwritableFault (List Skeleton) :=
  forestSkeleton forest

namespace Skeleton

/-! ## From text -/

/-- What a line of an interface says. -/
inductive Line where
  | opening (key : String)
  | comment (text : String)
  | method (key signature : String)
  | closing
  deriving DecidableEq, Repr

/-- The text of a comment, after its opening mark. -/
def commentBody? (cs : List Char) : Option (List Char) :=
  match cs.reverse with
  | '/' :: '*' :: ' ' :: body => some body.reverse
  | _ => none

/-- What a line that begins with a key says. -/
def Line.ofEntry? (cs : List Char) : Option Line :=
  match PropertyKey.scan cs with
  | some (key, [':', ' ', '\x7b']) => some (.opening (String.ofList key))
  | some (key, ':' :: ' ' :: signature) =>
    some (.method (String.ofList key) (String.ofList signature))
  | _ => none

/-- What a line says, whatever its padding. -/
def Line.read? (cs : List Char) : Option Line :=
  match cs.dropWhile (· = ' ') with
  | ['\x7d'] => some .closing
  | '/' :: '*' :: '*' :: ' ' :: rest =>
    (commentBody? rest).map fun text => .comment (String.ofList text)
  | cs => Line.ofEntry? cs

/-- A block that is open: what it holds so far. -/
structure Frame where
  key : String
  methods : List Method
  blocks : List Skeleton

/-- The reader between two lines: the innermost open block, the blocks around it, and a comment that
waits for its method. The outermost block is the interface itself, which has no key. -/
structure Reader where
  current : Frame
  outer : List Frame
  pending : Option String

/-- Nothing is read yet. -/
def Reader.start : Reader := ⟨⟨"", [], []⟩, [], none⟩

/-- What a line does to the reader; nothing if it cannot stand here. -/
def Reader.step (reader : Reader) : Line → Option Reader
  | .opening key =>
    if reader.pending.isNone then some ⟨⟨key, [], []⟩, reader.current :: reader.outer, none⟩
    else none
  | .comment text =>
    if reader.pending.isNone then some { reader with pending := some text } else none
  | .method key signature =>
    let method : Method := ⟨key, reader.pending, signature⟩
    some { reader with
      current := { reader.current with methods := reader.current.methods ++ [method] }
      pending := none }
  | .closing =>
    match reader.pending, reader.outer with
    | none, parent :: rest =>
      let block := Skeleton.block reader.current.key reader.current.methods reader.current.blocks
      some ⟨{ parent with blocks := parent.blocks ++ [block] }, rest, none⟩
    | _, _ => none

/-- Reads a line. -/
def Reader.next (reader : Reader) (cs : List Char) : Option Reader :=
  (Line.read? cs).bind reader.step

/-- The skeleton that is read when the text ends. -/
def Reader.finish (reader : Reader) : Option (List Skeleton) :=
  match reader with
  | ⟨⟨_, [], blocks⟩, [], none⟩ => some blocks
  | _ => none

/-- Reads the text of an interface. An interface without blocks has no line. -/
def read (text : String) : Option (List Skeleton) :=
  if text.isEmpty then some []
  else ((text.toList.splitOn '\n').foldlM Reader.next Reader.start).bind Reader.finish

end Skeleton
end TypedRoutes
