import TypedRoutes.Entries
import TypedRoutes.Json
import TypedRoutes.Number.Numeral
import TypedRoutes.Text.Hex

/-!
# Reading JSON

`Json.parse` reads a whole text or says what is wrong with it and where. The reader works on the
list of the remaining characters; a fault carries how many characters were left, which gives its
place. Beyond the standard it takes the words `NaN`, `Infinity` and `-Infinity`. An integer is
subject to the limit on digits, and `Json.parseWithin` also limits how many arrays and objects are
open at a time.
-/

set_option autoImplicit false

namespace TypedRoutes.Json

/-- What is wrong with a JSON text. -/
inductive SyntaxFault where
  | expectingValue
  | expectingName
  | expectingColon
  | expectingComma
  | extraData
  | byteOrderMark
  | unterminatedString
  | controlCharacter
  | escape
  | unicodeEscape
  deriving DecidableEq, Repr

/-- The report of a fault, without its place. -/
def SyntaxFault.message : SyntaxFault → String
  | .expectingValue => "Expecting value"
  | .expectingName => "Expecting property name enclosed in double quotes"
  | .expectingColon => "Expecting ':' delimiter"
  | .expectingComma => "Expecting ',' delimiter"
  | .extraData => "Extra data"
  | .byteOrderMark => "Unexpected UTF-8 BOM (decode using utf-8-sig)"
  | .unterminatedString => "Unterminated string starting at"
  | .controlCharacter => "Invalid control character at"
  | .escape => "Invalid \\escape"
  | .unicodeEscape => "Invalid \\uXXXX escape"

/-- A place in a text: the line and the column, counted from 1, and the characters before it. -/
structure Place where
  line : Nat
  column : Nat
  offset : Nat
  deriving DecidableEq, Repr

/-- The place after some characters. -/
def Place.after (before : List Char) : Place where
  line := before.count '\n' + 1
  column := (before.reverse.takeWhile (· ≠ '\n')).length + 1
  offset := before.length

/-- What encloses other values. -/
inductive Enclosure where
  | array
  | object
  deriving DecidableEq, Repr

/-- The report of an array or an object that is one too many inside others. -/
def Enclosure.message : Enclosure → String
  | .array =>
    "maximum recursion depth exceeded while decoding a JSON array from a unicode string"
  | .object =>
    "maximum recursion depth exceeded while decoding a JSON object from a unicode string"

/-- Why a text is not read. -/
inductive ParseError where
  /-- The text breaks the rules of the format. -/
  | malformed (fault : SyntaxFault) (place : Place)
  /-- An integer has too many digits. -/
  | digits (limit : DigitLimit)
  /-- An array or an object is opened where no more of them may be open. -/
  | nesting (opened : Enclosure)
  /-- An escape stands for half of a pair, and the other half is not there. The format allows it,
  but there is no such character, so the text is beyond what is modelled here. -/
  | unpaired (half : Nat)
  deriving DecidableEq, Repr

/-- The report of an error. -/
def ParseError.message : ParseError → String
  | .malformed fault place =>
    fault.message ++ ": line " ++ decimalText place.line ++ " column " ++
      decimalText place.column ++ " (char " ++ decimalText place.offset ++ ")"
  | .digits limit => limit.message
  | .nesting opened => opened.message
  | .unpaired half => "no character has the code " ++ decimalText half

namespace Reader

/-- Why reading stops: a fault with the number of characters left, too many digits, too many open
arrays and objects, or half of a pair. -/
inductive Stop where
  | fault (fault : SyntaxFault) (left : Nat)
  | digits (count : Nat)
  | nesting (opened : Enclosure)
  | unpaired (half : Nat)
  deriving DecidableEq, Repr

/-- What a part of the reader gives: what it read, and the characters left. -/
abbrev Reading (α : Type) := Except Stop (α × List Char)

/-- The blanks of the format. -/
def isBlank (c : Char) : Bool := c = ' ' || c = '\t' || c = '\n' || c = '\r'

/-- The text from its first character that is no blank. -/
def skipBlanks (cs : List Char) : List Char := cs.dropWhile isBlank

/-- The character that a letter after a backslash stands for. -/
def escaped? (c : Char) : Option Char :=
  if c = '"' ∨ c = '\\' ∨ c = '/' then some c
  else if c = 'b' then some '\x08'
  else if c = 'f' then some '\x0c'
  else if c = 'n' then some '\n'
  else if c = 'r' then some '\r'
  else if c = 't' then some '\t'
  else none

/-- The code units of a string up to its closing quote. `opened` is what follows the
opening quote, where an unterminated string is reported. -/
def units (opened : List Char) : List Char → Reading (List Nat)
  | [] => .error (.fault .unterminatedString (opened.length + 1))
  | '"' :: rest => .ok ([], rest)
  | '\\' :: 'u' :: a :: b :: c :: d :: rest =>
    match Text.hexNumber? [a, b, c, d] with
    | some code =>
      if rest.isEmpty then .error (.fault .unicodeEscape (rest.length + 5))
      else (units opened rest).map fun (us, left) => (code :: us, left)
    | none => .error (.fault .unicodeEscape (rest.length + 5))
  | '\\' :: 'u' :: rest => .error (.fault .unicodeEscape (rest.length + 1))
  | ['\\'] => .error (.fault .unterminatedString (opened.length + 1))
  | '\\' :: c :: rest =>
    match escaped? c with
    | some e => (units opened rest).map fun (us, left) => (e.toNat :: us, left)
    | none => .error (.fault .escape (rest.length + 2))
  | c :: rest =>
    if c.toNat < 32 then .error (.fault .controlCharacter (rest.length + 1))
    else (units opened rest).map fun (us, left) => (c.toNat :: us, left)

/-- Is a code unit one half of a pair? -/
def isHalf (code : Nat) : Bool := 0xD800 ≤ code && code < 0xE000

/-- The character that the two halves of a pair make, if the one is a first and the other a second
half. -/
def pair? (high low : Nat) : Option Char :=
  if 0xD800 ≤ high ∧ high < 0xDC00 ∧ 0xDC00 ≤ low ∧ low < 0xE000 then
    some (Char.ofNat (0x10000 + (high - 0xD800) * 0x400 + (low - 0xDC00)))
  else none

/-- The characters that code units stand for: two halves of a pair make one character, and half of
a pair makes none. -/
def joinPairs : List Nat → Except Stop (List Char)
  | high :: low :: rest =>
    match pair? high low with
    | some c => (joinPairs rest).map (c :: ·)
    | none =>
      if isHalf high then .error (.unpaired high)
      else (joinPairs (low :: rest)).map (Char.ofNat high :: ·)
  | [code] => if isHalf code then .error (.unpaired code) else .ok [Char.ofNat code]
  | [] => .ok []

/-- A string, after its opening quote. -/
def string (cs : List Char) : Except Stop (String × List Char) := do
  let (us, left) ← units cs cs
  let text ← joinPairs us
  return (String.ofList text, left)

/-- The values of ASCII digits. -/
def digitValues (cs : List Char) : List Nat := cs.map fun c => c.toNat - 48

/-- The fraction after a point, if a digit follows it, and the characters left. -/
def fraction : List Char → List Char × List Char
  | '.' :: rest => match rest.takeWhile Char.isDigit with
    | [] => ([], '.' :: rest)
    | digits => (digits, rest.dropWhile Char.isDigit)
  | cs => ([], cs)

/-- The exponent after its mark and sign, if a digit follows them, and the characters left. -/
def exponent (cs : List Char) : Option Int × List Char :=
  match cs with
  | c :: rest =>
    if c = 'e' ∨ c = 'E' then
      let (negative, body) := Numeral.splitSign rest
      match body.takeWhile Char.isDigit with
      | [] => (none, cs)
      | digits =>
        let value : Int := Numeral.ofDigits 10 (digitValues digits)
        (some (if negative then -value else value), body.dropWhile Char.isDigit)
    else (none, cs)
  | [] => (none, [])

/-- The digits before the point: a lone zero, or digits that do not start with one. -/
def whole (cs : List Char) : List Char × List Char :=
  match cs with
  | '0' :: rest => (['0'], rest)
  | _ => (cs.takeWhile Char.isDigit, cs.dropWhile Char.isDigit)

/-- A number without its sign: an integer if neither a fraction nor an exponent follows. -/
def unsigned (negative : Bool) (cs : List Char) : Except Nat (Option (Json × List Char)) :=
  let (front, rest) := whole cs
  if front.isEmpty then .ok none
  else
    let (fractionDigits, rest) := fraction rest
    let (exponentValue, rest) := exponent rest
    if fractionDigits.isEmpty && exponentValue.isNone then
      if digitLimit < front.length then .error front.length
      else
        let value : Int := Numeral.ofDigits 10 (digitValues front)
        .ok (some (.int (if negative then -value else value), rest))
    else
      let written : Numeral.Scientific :=
        ⟨digitValues front, digitValues fractionDigits, exponentValue.getD 0⟩
      .ok (some (.float (written.toBinary64 negative), rest))

/-- What follows a word at the front of a text. -/
def after? (word : String) (cs : List Char) : Option (List Char) :=
  if word.toList.isPrefixOf cs then some (cs.drop word.length) else none

/-- The words that are values. -/
def words : List (String × Json) :=
  [("null", .null), ("true", .bool true), ("false", .bool false), ("NaN", .float .nan),
    ("Infinity", .float (.infinite false)), ("-Infinity", .float (.infinite true))]

/-- A value that is a word or a number. -/
def atom (cs : List Char) : Reading Json :=
  match words.findSome? fun (word, value) => (after? word cs).map fun left => (value, left) with
  | some reading => .ok reading
  | none =>
    let (negative, body) := match cs with
      | '-' :: rest => (true, rest)
      | _ => (false, cs)
    match unsigned negative body with
    | .ok (some reading) => .ok reading
    | .ok none => .error (.fault .expectingValue cs.length)
    | .error count => .error (.digits count)

/-- How many more arrays and objects may be open once one is opened. Without a number there is no
limit. -/
def enter (opened : Enclosure) : (levels : Option Nat) → Except Stop (Option Nat)
  | none => .ok none
  | some 0 => .error (.nesting opened)
  | some (levels + 1) => .ok (some levels)

mutual

/-- A value at the front of a text, in which some levels of arrays and objects may be open at a
time. `depth` bounds the number of nested calls, of which there are at most two for a character. -/
def value (levels : Option Nat) :
    (depth : Nat) → List Char → Except Stop (Json × List Char)
  | 0, cs => .error (.fault .expectingValue cs.length)
  | _ + 1, '"' :: rest => (string rest).map fun (s, left) => (.str s, left)
  | depth + 1, '[' :: rest => do
    let inner ← enter .array levels
    match skipBlanks rest with
    | ']' :: left => return (.array [], left)
    | body => (items inner depth body).map fun (js, left) => (.array js, left)
  | depth + 1, '\x7b' :: rest => do
    let inner ← enter .object levels
    match skipBlanks rest with
    | '\x7d' :: left => return (.object [], left)
    | body => (members inner depth body).map fun (ms, left) =>
      (.object (Entries.ofAssignments (· == ·) ms), left)
  | _ + 1, cs => atom cs

/-- The items of an array up to its closing bracket. -/
def items (levels : Option Nat) :
    (depth : Nat) → List Char → Except Stop (List Json × List Char)
  | 0, cs => .error (.fault .expectingValue cs.length)
  | depth + 1, cs => do
    let (item, rest) ← value levels depth cs
    match skipBlanks rest with
    | ']' :: left => return ([item], left)
    | ',' :: rest =>
      let (others, left) ← items levels depth (skipBlanks rest)
      return (item :: others, left)
    | rest => throw (.fault .expectingComma rest.length)

/-- The members of an object up to its closing brace, repeated names included. -/
def members (levels : Option Nat) :
    (depth : Nat) → List Char → Except Stop (List (String × Json) × List Char)
  | 0, cs => .error (.fault .expectingValue cs.length)
  | depth + 1, '"' :: rest => do
    let (name, rest) ← string rest
    match skipBlanks rest with
    | ':' :: rest =>
      let (item, rest) ← value levels depth (skipBlanks rest)
      match skipBlanks rest with
      | '\x7d' :: left => return ([(name, item)], left)
      | ',' :: rest =>
        let (others, left) ← members levels depth (skipBlanks rest)
        return ((name, item) :: others, left)
      | rest => throw (.fault .expectingComma rest.length)
    | rest => throw (.fault .expectingColon rest.length)
  | _ + 1, cs => .error (.fault .expectingName cs.length)

end

/-- A whole text: one value with blanks around it. -/
def whole? (levels : Option Nat) (cs : List Char) : Except Stop Json :=
  if cs.head? = some '\ufeff' then .error (.fault .byteOrderMark cs.length)
  else do
    let (result, rest) ← value levels (2 * cs.length + 2) (skipBlanks cs)
    match skipBlanks rest with
    | [] => return result
    | left => throw (.fault .extraData left.length)

/-- The error that a stop in the middle of a text is. -/
def Stop.toError (cs : List Char) : Stop → ParseError
  | .fault breach left => .malformed breach (Place.after (cs.take (cs.length - left)))
  | .digits count => .digits (.reading count)
  | .nesting opened => .nesting opened
  | .unpaired half => .unpaired half

end Reader

/-- Reads a JSON text in which no more than some number of arrays and objects may be open at a time,
if there is a number. -/
def parseWithin (levels : Option Nat) (text : String) : Except ParseError Json :=
  (Reader.whole? levels text.toList).mapError (Reader.Stop.toError text.toList)

/-- Reads a JSON text, however deep it is nested. -/
def parse (text : String) : Except ParseError Json := parseWithin none text

end TypedRoutes.Json
