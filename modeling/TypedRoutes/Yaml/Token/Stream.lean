import TypedRoutes.Yaml.Token.Block
import TypedRoutes.Yaml.Token.Name
import TypedRoutes.Yaml.Token.Plain
import TypedRoutes.Yaml.Token.Quoted

/-!
# The tokens of a YAML text

`Token.ofText` splits a text into tokens. Two kinds of token have no characters of their own. A
deeper indentation of an entry starts a block collection, and a shallower one ends it. A key
without an indicator is only known by the colon after it, so every place where one could start is
kept as a candidate, and its token is put in front of what was read since; a candidate lasts to the
end of its line, and no more than 1024 characters. Where a text cannot be read on, the tokens that
no key can be put in front of any more still count, and the fault follows them.
-/

set_option autoImplicit false

namespace TypedRoutes.Yaml

/-- A place where a key without an indicator may have started. A required one has to be a key,
since nothing else may stand at its indentation. -/
structure KeyCandidate where
  tokenNumber : Nat
  required : Bool
  index : Nat
  line : Nat
  column : Nat
  deriving Repr

/-- What is known while a text is split: the tokens so far, last first, and their number, the number
of open brackets, the indentation of the open block collections, innermost first, whether a key may
start here, and the candidates for keys by bracket level. -/
structure TokenStream where
  cursor : Cursor
  tokens : List Token
  count : Nat
  flowLevel : Nat
  indents : List Nat
  keyAllowed : Bool
  candidates : List (Nat × KeyCandidate)

namespace TokenStream

/-- The stream at the start of a text. -/
def start (text : List Char) : TokenStream := ⟨.start text, [], 0, 0, [], true, []⟩

/-- Are brackets open? -/
def inFlow (s : TokenStream) : Bool := s.flowLevel ≠ 0

/-- The indentation of the innermost block collection, -1 outside all of them. -/
def indent (s : TokenStream) : Int :=
  match s.indents with
  | [] => -1
  | column :: _ => column

/-- Puts a token at a place among those so far. -/
def insert (s : TokenStream) (place : Nat) (t : Token) : TokenStream :=
  { s with tokens := s.tokens.insertIdx (s.count - place) t, count := s.count + 1 }

/-- Appends a token. -/
def push (s : TokenStream) (t : Token) : TokenStream :=
  { s with tokens := t :: s.tokens, count := s.count + 1 }

/-- Goes to a place. -/
def moveTo (s : TokenStream) (c : Cursor) : TokenStream := { s with cursor := c }

/-- Says whether a key may start here. -/
def allowKey (s : TokenStream) (allowed : Bool) : TokenStream := { s with keyAllowed := allowed }

/-- Has a candidate been passed: by the end of its line or by its length? -/
def isStale (s : TokenStream) (k : KeyCandidate) : Bool :=
  k.line ≠ s.cursor.line || 1024 < s.cursor.index - k.index

/-- Drops the candidates that have been passed; a required one must not be among them. -/
def dropStale (s : TokenStream) : Except Fault TokenStream :=
  if s.candidates.any fun (_, k) => s.isStale k && k.required then .error .malformed
  else .ok { s with candidates := s.candidates.filter fun (_, k) => !s.isStale k }

/-- The candidate on the current bracket level. -/
def candidate? (s : TokenStream) : Option KeyCandidate := s.candidates.lookup s.flowLevel

/-- The stream without the candidate on the current bracket level. -/
def withoutCandidate (s : TokenStream) : TokenStream :=
  { s with candidates := s.candidates.filter fun (level, _) => level ≠ s.flowLevel }

/-- Gives up the candidate on the current bracket level, which must not be required. -/
def dropCandidate (s : TokenStream) : Except Fault TokenStream :=
  if s.candidate?.any KeyCandidate.required then .error .malformed else .ok s.withoutCandidate

/-- Makes the next token a candidate, if a key may start here. -/
def saveCandidate (s : TokenStream) : Except Fault TokenStream :=
  if s.keyAllowed then do
    let s ← s.dropCandidate
    let required := !s.inFlow && s.indent = s.cursor.column
    let k : KeyCandidate :=
      ⟨s.count, required, s.cursor.index, s.cursor.line, s.cursor.column⟩
    return { s with candidates := (s.flowLevel, k) :: s.candidates }
  else .ok s

/-- Ends the block collections that are indented more than a column. -/
def unwind (s : TokenStream) (column : Int) : TokenStream :=
  if s.inFlow then s
  else
    let ended := s.indents.takeWhile fun (indent : Nat) => column < (indent : Int)
    { s with
      indents := s.indents.drop ended.length
      tokens := List.replicate ended.length .blockEnd ++ s.tokens
      count := s.count + ended.length }

/-- Opens a block collection at a column, unless the innermost one is indented as much: the token
that starts it goes to the given place. -/
def openBlock (s : TokenStream) (column place : Nat) (start : Token) : TokenStream :=
  if s.indent < column then { s.insert place start with indents := column :: s.indents } else s

/-- The place of the next token, and whether a line ended before it. -/
def nextPlace : (fuel : List Char) → Cursor → Bool × Cursor
  | [], c => (false, c)
  | _ :: fuel, c =>
    let c := c.skipSpaces.skipComment
    match c.lineBreak? with
    | none => (false, c)
    | some (_, c) => (true, (nextPlace fuel c).2)

/-- Goes to the next token. A mark at the very start of the text is passed over, and after the end
of a line a key may start again outside brackets. -/
def skipToNext (s : TokenStream) : TokenStream :=
  let c := s.cursor
  let c := if c.index = 0 && c.peek 0 = some byteOrderMark then c.step else c
  let (broken, c) := nextPlace c.rest c
  { s with cursor := c, keyAllowed := s.keyAllowed || (broken && !s.inFlow) }

/-- Ends all block collections before a directive, a mark of a document or the end. -/
def endBlocks (s : TokenStream) : Except Fault TokenStream :=
  ((s.unwind (-1)).dropCandidate).map fun s => s.allowKey false

/-- Reads a directive. -/
def readDirective (s : TokenStream) : Except Fault TokenStream := do
  let s ← s.endBlocks
  let (directive, c) ← Name.directive s.cursor.step
  return (s.push (.directive directive)).moveTo c

/-- Reads a mark of a document, three characters long. -/
def readDocumentMark (s : TokenStream) (t : Token) : Except Fault TokenStream := do
  let s ← s.endBlocks
  return (s.push t).moveTo (s.cursor.skip 3)

/-- Reads an opening bracket, which may itself start a key. -/
def readOpening (s : TokenStream) (t : Token) : Except Fault TokenStream := do
  let s ← s.saveCandidate
  return { (s.push t).moveTo s.cursor.step with flowLevel := s.flowLevel + 1, keyAllowed := true }

/-- Reads a closing bracket. There is none to close outside brackets. -/
def readClosing (s : TokenStream) (t : Token) : Except Fault TokenStream := do
  let s ← s.dropCandidate
  if !s.inFlow then throw .malformed
  return { (s.push t).moveTo s.cursor.step with flowLevel := s.flowLevel - 1, keyAllowed := false }

/-- Reads a comma between brackets. -/
def readFlowEntry (s : TokenStream) : Except Fault TokenStream := do
  let s ← s.dropCandidate
  return ((s.push .flowEntry).moveTo s.cursor.step).allowKey true

/-- Reads an indicator that may open a block collection where a key may start. -/
def readBlockIndicator (s : TokenStream) (opening t : Token) (keyAfter : Bool) :
    Except Fault TokenStream := do
  if !s.inFlow && !s.keyAllowed then throw .malformed
  let s := if s.inFlow then s else s.openBlock s.cursor.column s.count opening
  let s ← s.dropCandidate
  return ((s.push t).moveTo s.cursor.step).allowKey keyAfter

/-- Reads a colon. The candidate on this level is the key that it follows; without one it follows a
key with an indicator. -/
def readValue (s : TokenStream) : Except Fault TokenStream :=
  match s.candidate? with
  | some k =>
    let s := s.withoutCandidate.insert k.tokenNumber .key
    let s := if s.inFlow then s else s.openBlock k.column k.tokenNumber .blockMappingStart
    .ok (((s.push .value).moveTo s.cursor.step).allowKey false)
  | none => s.readBlockIndicator .blockMappingStart .value (!s.inFlow)

/-- Reads an alias, an anchor, a tag or a scalar, each of which may start a key. -/
def readContent {α : Type} (s : TokenStream) (read : Cursor → Except Fault (α × Cursor))
    (token : α → Token) : Except Fault TokenStream := do
  let s ← s.saveCandidate
  let (content, c) ← read s.cursor
  return ((s.push (token content)).moveTo c).allowKey false

/-- Reads a block scalar, after which a key may start. -/
def readBlockScalar (s : TokenStream) (folded : Bool) : Except Fault TokenStream := do
  let s ← s.dropCandidate
  let (text, c) ← Block.read folded s.indent s.cursor.step
  return ((s.push (.scalar (String.ofList text) false)).moveTo c).allowKey true

/-- Reads a plain scalar. Where it was ended by a new line, a key may start. -/
def readPlain (s : TokenStream) : Except Fault TokenStream := do
  let s ← s.saveCandidate
  let r := Plain.read s.inFlow (s.indent + 1).toNat s.cursor
  return ((s.push (.scalar (String.ofList r.text) true)).moveTo r.after).allowKey r.broken

/-- The characters that no plain scalar starts with. -/
def indicators : List Char :=
  ['-', '?', ':', ',', '[', ']', '{', '}', '#', '&', '*', '!', '|', '>', '\'', '"', '%', '@', '`']

/-- May a plain scalar start with this character? A dash, and outside brackets a question mark or a
colon, may if no gap follows. -/
def startsPlain (s : TokenStream) (c : Char) : Bool :=
  (!isGap (some c) && !indicators.contains c) ||
    (!isGap (s.cursor.peek 1) && (c = '-' || (!s.inFlow && (c = '?' || c = ':'))))

/-- Is there an indicator of a block here? Between brackets it need not be followed by a gap. -/
def isIndicator (s : TokenStream) : Bool := s.inFlow || isGap (s.cursor.peek 1)

/-- Is there a mark of a document here, made of this character? -/
def atMark (s : TokenStream) : Bool := s.cursor.column = 0 && s.cursor.atSeparator

/-- Reads the token that starts with a character. -/
def readToken (s : TokenStream) (c : Char) : Except Fault TokenStream :=
  if c = '%' && s.cursor.column = 0 then s.readDirective
  else if c = '-' && s.atMark then s.readDocumentMark .documentStart
  else if c = '.' && s.atMark then s.readDocumentMark .documentEnd
  else if c = '[' then s.readOpening .flowSequenceStart
  else if c = '{' then s.readOpening .flowMappingStart
  else if c = ']' then s.readClosing .flowSequenceEnd
  else if c = '}' then s.readClosing .flowMappingEnd
  else if c = ',' then s.readFlowEntry
  else if c = '-' && isGap (s.cursor.peek 1) then
    s.readBlockIndicator .blockSequenceStart .blockEntry true
  else if c = '?' && s.isIndicator then
    s.readBlockIndicator .blockMappingStart .key (!s.inFlow)
  else if c = ':' && s.isIndicator then s.readValue
  else if c = '*' then s.readContent (fun c => Name.anchor c.step) Token.alias
  else if c = '&' then s.readContent (fun c => Name.anchor c.step) Token.anchor
  else if c = '!' then s.readContent Name.tag Token.tag
  else if c = '|' && !s.inFlow then s.readBlockScalar false
  else if c = '>' && !s.inFlow then s.readBlockScalar true
  else if c = '\'' || c = '"' then
    s.readContent (fun cursor => Quoted.read (c = '"') cursor.step)
      fun text => .scalar (String.ofList text) false
  else if s.startsPlain c then s.readPlain
  else .error .malformed

/-- Reads the next token, with the ends of block collections that come in front of it. -/
def readNext (s : TokenStream) : Except Fault TokenStream := do
  let s ← s.skipToNext.dropStale
  let s := s.unwind s.cursor.column
  match s.cursor.peek 0 with
  | none => (s.endBlocks).map fun s => s.push .streamEnd
  | some c => s.readToken c

/-- The tokens that no key can be put in front of any more. -/
def settled (s : TokenStream) : List Token :=
  let waiting := s.candidates.filter fun (_, k) => !s.isStale k
  let first := waiting.foldl (fun n (_, k) => min n k.tokenNumber) s.count
  (s.tokens.drop (s.count - first)).reverse

/-- The tokens from a place to the end of the text, after those that have been read, or up to the
fault that is met. Every token takes a character at least. -/
def readAll : (fuel : Nat) → TokenStream → List Token
  | 0, s => s.tokens.reverse
  | fuel + 1, s =>
    match s.readNext with
    | .error fault => s.settled ++ [.broken fault]
    | .ok s => if s.tokens.head? = some .streamEnd then s.tokens.reverse else readAll fuel s

end TokenStream

/-- The tokens of a text, of which the last is its end or the fault that ends the reading. -/
def Token.ofText (text : String) : List Token :=
  let cs := text.toList
  if cs.all isAllowed then TokenStream.readAll (cs.length + 1) (.start cs)
  else [.broken .malformed]

end TypedRoutes.Yaml
