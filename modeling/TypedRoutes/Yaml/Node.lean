import TypedRoutes.Yaml.Fault
import TypedRoutes.Yaml.Token

/-!
# Nodes of YAML documents

The tree of nodes that the tokens of a text spell. `Node.ofTokens` reads it; a text holds one
document, or nothing at all. Left out keys, values and items are empty plain scalars. An anchor is
set once, and before its alias. No token is looked at before the ones in front of it are dealt with,
so the fault that comes first in the text is the one that is reported. One of these faults is a
collection inside as many others as may be open at a time.
-/

set_option autoImplicit false

namespace TypedRoutes.Yaml

/-- The anchor and the tag of a node, as far as they are given. -/
structure Properties where
  anchor : Option String
  tag : Option String
  deriving DecidableEq, Repr

/-- A node as it is written. -/
inductive Node where
  | alias (name : String)
  | scalar (properties : Properties) (text : String) (plain : Bool)
  | sequence (properties : Properties) (items : List Node)
  | mapping (properties : Properties) (entries : List (Node × Node))
  deriving Repr, Inhabited

/-- No anchor and no tag. -/
def Properties.none : Properties := ⟨Option.none, Option.none⟩

/-- The node that stands for what is left out. -/
def Node.empty : Node := .scalar .none "" true

/-- Handles of tags and what they expand to. -/
abbrev Handles := List (String × String)

/-- The handles that need no directive. -/
def Handles.standard : Handles := [("!", "!"), ("!!", "tag:yaml.org,2002:")]

/-- What is left to be read: the tokens, and the anchors that have been set. -/
structure Source where
  tokens : List Token
  anchors : List String

namespace Source

/-- Why the next token is refused: reading ends there with a fault, or it is in a wrong place. -/
def refusal (s : Source) : Fault :=
  match s.tokens with
  | .broken fault :: _ => fault
  | _ => .malformed

/-- The same anchors before other tokens. -/
def goOn (s : Source) (tokens : List Token) : Source := { s with tokens }

/-- Is the next token one of these? -/
def startsWith (stops : List Token) (s : Source) : Bool := s.tokens.head?.any stops.contains

/-- Sets the anchor of a node, if it has one, at the token after its properties. -/
def declare (s : Source) (properties : Properties) : Except Fault Source :=
  match s.tokens, properties.anchor with
  | .broken fault :: _, _ => .error fault
  | _, none => .ok s
  | _, some name =>
    if s.anchors.contains name then .error .malformed
    else .ok { s with anchors := name :: s.anchors }

/-- What follows the comma that separates all parts between brackets but the first. -/
def separated (first : Bool) (s : Source) : Except Fault Source :=
  if first then .ok s
  else match s.tokens with
    | .flowEntry :: rest => .ok (s.goOn rest)
    | _ => .error s.refusal

end Source

namespace Node

/-- A tag with its handle expanded. -/
def expand (handles : Handles) (t : TagName) : Except Fault String :=
  match t.handle with
  | none => .ok t.suffix
  | some handle =>
    match handles.lookup handle with
    | some expansion => .ok (expansion ++ t.suffix)
    | none => .error .malformed

/-- The properties in front of a node: an anchor and a tag, in either order. -/
def properties (handles : Handles) : List Token → Except Fault (Properties × List Token)
  | .anchor a :: .tag t :: rest | .tag t :: .anchor a :: rest =>
    (expand handles t).map fun tag => (⟨some a, some tag⟩, rest)
  | .tag _ :: .broken fault :: _ => .error fault
  | .anchor a :: rest => .ok (⟨some a, none⟩, rest)
  | .tag t :: rest => (expand handles t).map fun tag => (⟨none, some tag⟩, rest)
  | ts => .ok (.none, ts)

/-- The tokens before which an item of a sequence is left out. -/
def itemStops : List Token := [.blockEntry, .blockEnd]

/-- The tokens before which a part of a block mapping is left out. -/
def partStops : List Token := [.key, .value, .blockEnd]

/-- How many more collections may be open once one is opened. -/
def enter : (levels : Nat) → Except Fault Nat
  | 0 => .error .nesting
  | levels + 1 => .ok levels

mutual

/-- A node, in which some levels of collections may be open at a time. Block collections are read
only where `block` says so, and a sequence without an indentation of its own only where `indentless`
does. -/
def read (handles : Handles) (levels : Nat) (block indentless : Bool) :
    (fuel : Nat) → Source → Except Fault (Node × Source)
  | 0, _ => .error .malformed
  | fuel + 1, s =>
    match s.tokens with
    | .alias name :: rest =>
      if s.anchors.contains name then .ok (.alias name, s.goOn rest) else .error .malformed
    | ts => do
      let (props, ts) ← properties handles ts
      let s ← (s.goOn ts).declare props
      match ts, block, indentless with
      | .blockEntry :: _, _, true =>
        let inner ← enter levels
        let (items, s) ← indentlessItems handles inner fuel s
        return (.sequence props items, s)
      | .scalar text plain :: rest, _, _ => return (.scalar props text plain, s.goOn rest)
      | .flowSequenceStart :: rest, _, _ =>
        let inner ← enter levels
        let (items, s) ← flowItems handles inner true fuel (s.goOn rest)
        return (.sequence props items, s)
      | .flowMappingStart :: rest, _, _ =>
        let inner ← enter levels
        let (entries, s) ← flowEntries handles inner true fuel (s.goOn rest)
        return (.mapping props entries, s)
      | .blockSequenceStart :: rest, true, _ =>
        let inner ← enter levels
        let (items, s) ← blockItems handles inner fuel (s.goOn rest)
        return (.sequence props items, s)
      | .blockMappingStart :: rest, true, _ =>
        let inner ← enter levels
        let (entries, s) ← blockEntries handles inner fuel (s.goOn rest)
        return (.mapping props entries, s)
      | _, _, _ => if props = .none then throw s.refusal else return (.scalar props "" true, s)
termination_by structural fuel => fuel

/-- A node, or the empty one before a token that shows that it is left out. -/
def readUnless (handles : Handles) (levels : Nat) (block indentless : Bool) (stops : List Token) :
    (fuel : Nat) → Source → Except Fault (Node × Source)
  | 0, _ => .error .malformed
  | fuel + 1, s =>
    if s.startsWith stops then .ok (empty, s) else read handles levels block indentless fuel s
termination_by structural fuel => fuel

/-- The items of a block sequence up to its end. -/
def blockItems (handles : Handles) (levels : Nat) :
    (fuel : Nat) → Source → Except Fault (List Node × Source)
  | 0, _ => .error .malformed
  | fuel + 1, s =>
    match s.tokens with
    | .blockEntry :: rest => do
      let (item, s) ← readUnless handles levels true false itemStops fuel (s.goOn rest)
      let (items, s) ← blockItems handles levels fuel s
      return (item :: items, s)
    | .blockEnd :: rest => .ok ([], s.goOn rest)
    | _ => .error s.refusal
termination_by structural fuel => fuel

/-- The items of a sequence that stands at the indentation of the mapping around it. -/
def indentlessItems (handles : Handles) (levels : Nat) :
    (fuel : Nat) → Source → Except Fault (List Node × Source)
  | 0, _ => .error .malformed
  | fuel + 1, s =>
    match s.tokens with
    | .blockEntry :: rest => do
      let (item, s) ←
        readUnless handles levels true false (.blockEntry :: partStops) fuel (s.goOn rest)
      let (items, s) ← indentlessItems handles levels fuel s
      return (item :: items, s)
    | _ => .ok ([], s)
termination_by structural fuel => fuel

/-- The entries of a block mapping up to its end. -/
def blockEntries (handles : Handles) (levels : Nat) :
    (fuel : Nat) → Source → Except Fault (List (Node × Node) × Source)
  | 0, _ => .error .malformed
  | fuel + 1, s =>
    match s.tokens with
    | .key :: rest => do
      let (key, s) ← readUnless handles levels true true partStops fuel (s.goOn rest)
      let (value, s) ← valuePart handles levels true partStops fuel s
      let (entries, s) ← blockEntries handles levels fuel s
      return ((key, value) :: entries, s)
    | .blockEnd :: rest => .ok ([], s.goOn rest)
    | _ => .error s.refusal
termination_by structural fuel => fuel

/-- The value of an entry, after its indicator; without one it is left out. -/
def valuePart (handles : Handles) (levels : Nat) (block : Bool) (stops : List Token) :
    (fuel : Nat) → Source → Except Fault (Node × Source)
  | 0, _ => .error .malformed
  | fuel + 1, s =>
    match s.tokens with
    | .value :: rest => readUnless handles levels block block stops fuel (s.goOn rest)
    | _ => .ok (empty, s)
termination_by structural fuel => fuel

/-- The items of a sequence in brackets up to its end. An item with a key is a mapping of one
entry. -/
def flowItems (handles : Handles) (levels : Nat) (first : Bool) :
    (fuel : Nat) → Source → Except Fault (List Node × Source)
  | 0, _ => .error .malformed
  | fuel + 1, s =>
    match s.tokens with
    | .flowSequenceEnd :: rest => .ok ([], s.goOn rest)
    | _ => do
      let s ← s.separated first
      match s.tokens with
      | .flowSequenceEnd :: rest => return ([], s.goOn rest)
      | .key :: rest =>
        let inner ← enter levels
        let (entry, s) ← flowEntry handles inner .flowSequenceEnd fuel (s.goOn rest)
        let (items, s) ← flowItems handles levels false fuel s
        return (.mapping .none [entry] :: items, s)
      | _ =>
        let (item, s) ← read handles levels false false fuel s
        let (items, s) ← flowItems handles levels false fuel s
        return (item :: items, s)
termination_by structural fuel => fuel

/-- The entries of a mapping in braces up to its end. -/
def flowEntries (handles : Handles) (levels : Nat) (first : Bool) :
    (fuel : Nat) → Source → Except Fault (List (Node × Node) × Source)
  | 0, _ => .error .malformed
  | fuel + 1, s =>
    match s.tokens with
    | .flowMappingEnd :: rest => .ok ([], s.goOn rest)
    | _ => do
      let s ← s.separated first
      match s.tokens with
      | .flowMappingEnd :: rest => return ([], s.goOn rest)
      | .key :: rest =>
        let (entry, s) ← flowEntry handles levels .flowMappingEnd fuel (s.goOn rest)
        let (entries, s) ← flowEntries handles levels false fuel s
        return (entry :: entries, s)
      | _ =>
        let (key, s) ← read handles levels false false fuel s
        let (entries, s) ← flowEntries handles levels false fuel s
        return ((key, empty) :: entries, s)
termination_by structural fuel => fuel

/-- An entry between brackets that `close` ends, after the indicator of its key. -/
def flowEntry (handles : Handles) (levels : Nat) (close : Token) :
    (fuel : Nat) → Source → Except Fault ((Node × Node) × Source)
  | 0, _ => .error .malformed
  | fuel + 1, s => do
    let (key, s) ← readUnless handles levels false false [.value, .flowEntry, close] fuel s
    let (value, s) ← valuePart handles levels false [.flowEntry, close] fuel s
    return ((key, value), s)
termination_by structural fuel => fuel

end

/-- The directives in front of a document: the handles that they define. A handle is defined once,
and the version, also given once, is one of the first major version. -/
def directives (versioned : Bool) (handles : Handles) :
    List Token → Except Fault (Handles × List Token)
  | .directive (.version major) :: rest =>
    if versioned || major ≠ 1 then .error .malformed else directives true handles rest
  | .directive (.handle name expansion) :: rest =>
    if (handles.lookup name).isSome then .error .malformed
    else directives versioned (handles ++ [(name, expansion)]) rest
  | .directive .other :: rest => directives versioned handles rest
  | ts => .ok (handles, ts)

/-- Does a document start here that has a mark of its own? -/
def isExplicit : List Token → Bool
  | .directive _ :: _ | .documentStart :: _ => true
  | _ => false

/-- Is the content of a document left out here? -/
def isBare : List Token → Bool
  | .directive _ :: _ | .documentStart :: _ | .documentEnd :: _ | .streamEnd :: _ => true
  | _ => false

/-- The first document, and the tokens after it. -/
def document (levels fuel : Nat) (ts : List Token) : Except Fault (Node × List Token) := do
  if isExplicit ts then
    let (defined, ts) ← directives false [] ts
    match ts with
    | .documentStart :: rest =>
      if isBare rest then return (empty, rest)
      else
        let (node, s) ← read (defined ++ Handles.standard) levels true false fuel ⟨rest, []⟩
        return (node, s.tokens)
    | _ => throw (Source.refusal ⟨ts, []⟩)
  else
    let (node, s) ← read Handles.standard levels true false fuel ⟨ts, []⟩
    return (node, s.tokens)

/-- Checks that no second document follows the first one. The directives of one are still read. -/
def checkEnd (ts : List Token) : Except Fault Unit :=
  match ts.dropWhile (· = .documentEnd) with
  | .streamEnd :: _ => .ok ()
  | ts => do
    let (_, ts) ← directives false [] ts
    throw (Source.refusal ⟨ts, []⟩)

/-- The one document that tokens spell, if they spell any. -/
def ofTokens (levels : Nat) (ts : List Token) : Except Fault (Option Node) :=
  if ts = [.streamEnd] then .ok none
  else do
    let (node, rest) ← document levels (4 * ts.length + 4) ts
    checkEnd rest
    return some node

end Node
end TypedRoutes.Yaml
