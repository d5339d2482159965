import TypedRoutes.Text.Base64
import TypedRoutes.Text.LowerCase
import TypedRoutes.Yaml.Fault
import TypedRoutes.Yaml.Tag

/-!
# The values of scalars

What the text of a scalar stands for under its tag. An explicit tag may stand before any text, so
each reader also says what is wrong with a text that does not fit.
-/

set_option autoImplicit false

namespace TypedRoutes.Yaml

/-- The text without underscores. -/
def withoutUnderscores (s : String) : List Char := s.toList.filter (· ≠ '_')

/-- The words for true and false, in lower case. -/
def booleanWords : List (String × Bool) :=
  [("yes", true), ("no", false), ("true", true), ("false", false), ("on", true), ("off", false)]

/-- The boolean that a word stands for, in any letter case. -/
def readBoolean (s : String) : Except Fault Scalar :=
  let word := Text.lowerCase s
  match booleanWords.lookup word with
  | some b => .ok (.bool b)
  | none => .error (.boolean word)

/-- An integer of a base. -/
def readBase (base : Nat) (cs : List Char) : Except Fault Int :=
  match Numeral.readInteger base (String.ofList cs) with
  | .ok n => .ok n
  | .error fault => .error (.integer fault)

/-- An integer without underscores and sign: its front shows the base. -/
def readMagnitude (cs : List Char) : Except Fault Int :=
  match cs with
  | [] => .error .emptyNumber
  | '0' :: 'b' :: digits => readBase 2 digits
  | '0' :: 'x' :: digits => readBase 16 digits
  | '0' :: _ => readBase 8 cs
  | _ =>
    if cs.contains ':' then do
      let digits ← (Text.splitAt ':' cs).mapM (readBase 10)
      return digits.foldl (fun n d => n * 60 + d) 0
    else readBase 10 cs

/-- The integer that a text stands for. -/
def readInt (s : String) : Except Fault Scalar :=
  match withoutUnderscores s with
  | [] => .error .emptyNumber
  | c :: rest =>
    if c = '-' then (readMagnitude rest).map fun n => .int (-n)
    else (readMagnitude (if c = '+' then rest else c :: rest)).map .int

/-- A float of one part. -/
def readPart (cs : List Char) : Except Fault Binary64 :=
  let text := String.ofList cs
  match Numeral.readBinary64 text with
  | some x => .ok x
  | none => .error (.float text)

/-- The sum of digits to the base of sixty, the last first, where the first counts as a place does.
Every place is in the range of floats, whatever the digit. -/
def sexagesimalSum (sum : Binary64) (place : Int) : List Binary64 → Except Fault Binary64
  | [] => .ok sum
  | digit :: rest =>
    match Binary64.ofInt place with
    | .infinite _ => .error .overflow
    | factor => sexagesimalSum (sum.add (digit.mul factor)) (place * 60) rest

/-- A float without sign, in lower case. -/
def readUnsignedFloat (cs : List Char) : Except Fault Binary64 :=
  if cs = ".inf".toList then .ok (.infinite false)
  else if cs = ".nan".toList then .ok .nan
  else if cs.contains ':' then do
    let digits ← (Text.splitAt ':' cs).mapM readPart
    sexagesimalSum .zero 1 digits.reverse
  else readPart cs

/-- Has a float a minus sign, and what follows its sign, without underscores and in lower case.
Without any text there is no float. -/
def floatParts? (s : String) : Option (Bool × List Char) :=
  match (Text.lowerCase (String.ofList (withoutUnderscores s))).toList with
  | [] => none
  | '-' :: rest => some (true, rest)
  | '+' :: rest => some (false, rest)
  | cs => some (false, cs)

/-- The float that a text stands for. -/
def readFloat (s : String) : Except Fault Scalar :=
  match floatParts? s with
  | none => .error .emptyNumber
  | some (negative, cs) =>
    (readUnsignedFloat cs).map fun x => .float (if negative then x.neg else x)

/-- Is this the name of the NaN? There is one NaN by that name, and every other spelling makes a new
one. -/
def isNaNName (s : String) : Bool := (floatParts? s).any fun (_, cs) => cs = ".nan".toList

/-- The microseconds that the digits of a fraction stand for; only six of them count. -/
def microseconds (digits : List Char) : Nat :=
  let six := digits.take 6
  Numeral.ofDigits 10 (six.map fun d => d.toNat - 48) * tenTo (6 - six.length)

/-- Carries a part that is out of range over. -/
def calendar {α : Type} : Except CalendarFault α → Except Fault α
  | .ok a => .ok a
  | .error fault => .error (.calendar fault)

/-- The date or the timestamp that a text stands for. A line feed may end it. -/
def readTimestamp (s : String) : Except Fault Scalar :=
  match TimestampText.read? (Spelling.withoutFinalBreak s).toList with
  | none => .error .timestamp
  | some ⟨year, month, day, none⟩ => (calendar (Date.of? year month day)).map .date
  | some ⟨year, month, day, some (hour, minute, second, fraction, offset)⟩ =>
    (calendar (Timestamp.of? year month day hour minute second (microseconds fraction)
      offset)).map .timestamp

/-- The bytes that a text stands for. -/
def readBinary (s : String) : Except Fault Scalar :=
  let cs := s.toList
  if cs.all fun c => c.toNat < 128 then
    match Text.Base64.decode? cs with
    | some bytes => .ok (.bytes bytes)
    | none => .error .malformed
  else .error .malformed

/-- The value of a scalar under a tag, if the tag is one of scalars. -/
def Tag.read? (tag : Tag) (text : String) : Option (Except Fault Scalar) :=
  match tag with
  | .null => some (.ok .null)
  | .bool => some (readBoolean text)
  | .int => some (readInt text)
  | .float => some (readFloat text)
  | .binary => some (readBinary text)
  | .timestamp => some (readTimestamp text)
  | .str => some (.ok (.str text))
  | .omap | .pairs | .set | .seq | .map | .merge | .value | .other => none

example : (readInt "-1:30").toOption = some (.int (-90)) := by decide +kernel
example : (readFloat "685.230_15e+03").toOption =
    some (.float (.ofDecimal false 68523015 (-2))) := by decide +kernel
example : (readFloat "1:30.5").toOption = some (.float (.ofDecimal false 905 (-1))) := by
  decide +kernel

end TypedRoutes.Yaml
