import TypedRoutes.Text.Split

/-!
# Tags

The type of a node. A plain scalar without a tag has the type that its spelling shows:
`Tag.ofPlain` knows the spellings of nulls, booleans, integers, floats, timestamps and the two
special keys, and everything else is a string. A scalar of another style has such a type if its tag
asks for it, and then a line feed may end the spelling.
-/

set_option autoImplicit false

namespace TypedRoutes.Yaml

/-- The tags with a meaning; `other` has none. -/
inductive Tag where
  | null
  | bool
  | int
  | float
  | binary
  | timestamp
  | omap
  | pairs
  | set
  | str
  | seq
  | map
  | merge
  | value
  | other
  deriving DecidableEq, Repr

/-- What the names of the tags with a meaning start with. -/
def Tag.namespaceName : String := "tag:yaml.org,2002:"

/-- The tags by the rest of their names. -/
def Tag.names : List (String × Tag) :=
  [("null", .null), ("bool", .bool), ("int", .int), ("float", .float), ("binary", .binary),
    ("timestamp", .timestamp), ("omap", .omap), ("pairs", .pairs), ("set", .set), ("str", .str),
    ("seq", .seq), ("map", .map), ("merge", .merge), ("value", .value)]

/-- The tag with a name. -/
def Tag.ofName (name : String) : Tag :=
  match Tag.names.find? fun (suffix, _) => Tag.namespaceName ++ suffix = name with
  | some (_, tag) => tag
  | none => .other

namespace Spelling

/-- Is this one of the words for true and false? -/
def isBool (s : String) : Bool :=
  ["yes", "Yes", "YES", "no", "No", "NO", "true", "True", "TRUE", "false", "False", "FALSE", "on",
    "On", "ON", "off", "Off", "OFF"].contains s

/-- Is this nothing, a tilde, or a word for null? -/
def isNull (s : String) : Bool := ["", "~", "null", "Null", "NULL"].contains s

/-- The text without a sign in front. -/
def unsigned : List Char → List Char
  | '-' :: rest | '+' :: rest => rest
  | cs => cs

/-- A digit of the base, or an underscore. -/
def isDigitOr (last : Char) (c : Char) : Bool := ('0' ≤ c && c ≤ last) || c = '_'

/-- A hexadecimal digit, or an underscore. -/
def isHexOr (c : Char) : Bool :=
  isDigitOr '9' c || ('a' ≤ c && c ≤ 'f') || ('A' ≤ c && c ≤ 'F')

/-- One character or more, all of them with a property. -/
def isRun (p : Char → Bool) (cs : List Char) : Bool := !cs.isEmpty && cs.all p

/-- A number below sixty, of one or two digits. -/
def isSixty : List Char → Bool
  | [a] => a.isDigit
  | [a, b] => '0' ≤ a && a ≤ '5' && b.isDigit
  | _ => false

/-- Digits and underscores that start with a digit. -/
def isNumber (cs : List Char) : Bool := cs.head?.any Char.isDigit && cs.all (isDigitOr '9')

/-- Digits and underscores that start with a digit other than zero. -/
def isLedNumber (cs : List Char) : Bool := isNumber cs && cs.head? ≠ some '0'

/-- A number to the base of sixty. -/
def isSexagesimal (cs : List Char) : Bool :=
  match Text.splitAt ':' cs with
  | first :: second :: rest => isLedNumber first && (second :: rest).all isSixty
  | _ => false

/-- Is this an integer: binary, octal, decimal, hexadecimal, or to the base of sixty? -/
def isInt (cs : List Char) : Bool :=
  match unsigned cs with
  | '0' :: 'b' :: rest => isRun (isDigitOr '1') rest
  | '0' :: 'x' :: rest => isRun isHexOr rest
  | '0' :: rest => rest.all (isDigitOr '7')
  | body => isLedNumber body || isSexagesimal body

/-- An exponent with its mark and its sign, or nothing. -/
def isExponent : List Char → Bool
  | [] => true
  | mark :: sign :: digits =>
    (mark = 'e' || mark = 'E') && (sign = '-' || sign = '+') && isRun Char.isDigit digits
  | _ => false

/-- Digits and underscores, and an exponent after them. -/
def isFraction (cs : List Char) : Bool := isExponent (cs.dropWhile (isDigitOr '9'))

/-- A decimal fraction with digits before the point. -/
def isDecimal (cs : List Char) : Bool :=
  let front := cs.takeWhile (isDigitOr '9')
  isNumber front &&
    match cs.drop front.length with
    | '.' :: rest => isFraction rest
    | _ => false

/-- A fraction to the base of sixty. -/
def isSexagesimalFraction (cs : List Char) : Bool :=
  let front := cs.takeWhile (· ≠ '.')
  match Text.splitAt ':' front, cs.drop front.length with
  | first :: second :: rest, '.' :: digits =>
    isNumber first && (second :: rest).all isSixty && digits.all (isDigitOr '9')
  | _, _ => false

/-- Is this a float: a decimal fraction, an infinity, a NaN, or a fraction to the base of sixty? -/
def isFloat (cs : List Char) : Bool :=
  match cs with
  | '.' :: d :: rest =>
    if d.isDigit then isFraction rest
    else [".inf", ".Inf", ".INF", ".nan", ".NaN", ".NAN"].contains (String.ofList cs)
  | _ =>
    let body := unsigned cs
    isDecimal body || isSexagesimalFraction body ||
      [".inf", ".Inf", ".INF"].contains (String.ofList body)

end Spelling

/-- A timestamp as it is written: the parts of the date, and the clock if there is one. -/
structure TimestampText where
  year : Nat
  month : Nat
  day : Nat
  clock : Option (Nat × Nat × Nat × List Char × Option Int)
  deriving Repr

namespace TimestampText

/-- One or two digits. -/
def oneOrTwo? : List Char → Option (Nat × List Char)
  | a :: b :: rest =>
    if a.isDigit then
      if b.isDigit then some ((a.toNat - 48) * 10 + (b.toNat - 48), rest)
      else some (a.toNat - 48, b :: rest)
    else none
  | [a] => if a.isDigit then some (a.toNat - 48, []) else none
  | [] => none

/-- Two digits. -/
def two? : List Char → Option (Nat × List Char)
  | a :: b :: rest =>
    if a.isDigit && b.isDigit then some ((a.toNat - 48) * 10 + (b.toNat - 48), rest) else none
  | _ => none

/-- What follows a character at the front. -/
def after? (c : Char) : List Char → Option (List Char)
  | d :: rest => if d = c then some rest else none
  | [] => none

/-- Is the character a space or a tab? -/
def isBlank (c : Char) : Bool := c = ' ' || c = '\t'

/-- The offset at the end of a clock, in minutes; blanks may stand before it. -/
def offset? (cs : List Char) : Option (Option Int) :=
  if cs.isEmpty then some none
  else match cs.dropWhile isBlank with
    | ['Z'] => some (some 0)
    | sign :: rest =>
      if sign = '+' ∨ sign = '-' then do
        let (hours, rest) ← oneOrTwo? rest
        let (minutes, rest) ← match rest with
          | ':' :: rest => two? rest
          | _ => some (0, rest)
        if !rest.isEmpty then none
        let total : Int := (hours * 60 + minutes : Nat)
        return some (if sign = '-' then -total else total)
      else none
    | [] => none

/-- The clock after a date: the mark or the blanks before it, the time, the digits of the fraction,
and the offset. -/
def clock? (cs : List Char) : Option (Nat × Nat × Nat × List Char × Option Int) := do
  let cs ← match cs with
    | c :: rest =>
      if c = 'T' ∨ c = 't' then some rest
      else if isBlank c then some (rest.dropWhile isBlank)
      else none
    | [] => none
  let (hour, cs) ← oneOrTwo? cs
  let (minute, cs) ← two? (← after? ':' cs)
  let (second, cs) ← two? (← after? ':' cs)
  let (fraction, cs) := match cs with
    | '.' :: rest => (rest.takeWhile Char.isDigit, rest.dropWhile Char.isDigit)
    | _ => ([], cs)
  let offset ← offset? cs
  return (hour, minute, second, fraction, offset)

/-- A date of four, two and two digits, where the last two may be one, and maybe a clock. -/
def read? (cs : List Char) : Option TimestampText := do
  let (century, cs) ← two? cs
  let (years, cs) ← two? cs
  let (month, cs) ← oneOrTwo? (← after? '-' cs)
  let (day, cs) ← oneOrTwo? (← after? '-' cs)
  if cs.isEmpty then return ⟨century * 100 + years, month, day, none⟩
  let clock ← clock? cs
  return ⟨century * 100 + years, month, day, some clock⟩

end TimestampText

/-- Is this a timestamp: a date in full, or a date with a clock? -/
def Spelling.isTimestamp (cs : List Char) : Bool :=
  match TimestampText.read? cs with
  | some t => t.clock.isSome || cs.length = 10
  | none => false

/-- The text without a line feed that ends it. A line feed alone is no end of anything. -/
def Spelling.withoutFinalBreak (s : String) : String :=
  match s.toList.reverse with
  | '\n' :: c :: rest => String.ofList (c :: rest).reverse
  | _ => s

/-- The tag that a spelling shows. -/
def Tag.ofSpelling (s : String) : Tag :=
  let cs := s.toList
  if Spelling.isNull s then .null
  else if Spelling.isBool s then .bool
  else if Spelling.isFloat cs then .float
  else if Spelling.isInt cs then .int
  else if s = "<<" then .merge
  else if Spelling.isTimestamp cs then .timestamp
  else if s = "=" then .value
  else if ["!", "&", "*"].contains s then .other
  else .str

/-- The tag of a text that nothing else gives a tag: what its spelling shows, which a line feed may
end. -/
def Tag.ofPlain (s : String) : Tag := Tag.ofSpelling (Spelling.withoutFinalBreak s)

example : ["017", "0x1F", "0b1", "1_000", "1:30", "-0"].all (Tag.ofPlain · = .int) = true := by
  decide +kernel
example : ["1.0e+3", ".5", "1:30.5", "-.INF", ".NaN"].all (Tag.ofPlain · = .float) = true := by
  decide +kernel
example : ["1e3", "-.5", "0o17", "08", "1:60", "2020-1-1"].all (Tag.ofPlain · = .str) = true := by
  decide +kernel
example : ["2020-01-01", "2020-1-1 1:02:03", "2020-01-01T00:00:00.5 +2"].all
    (Tag.ofPlain · = .timestamp) = true := by decide +kernel
example : ["12\n", "12\n\n", "\n", "12 \n"].map Tag.ofPlain = [.int, .str, .str, .str] := by
  decide +kernel

end TypedRoutes.Yaml
