import TypedRoutes.Calendar
import TypedRoutes.Datum.Display
import TypedRoutes.Number.Numeral

/-!
# Faults of YAML documents

Why a YAML text gives no document. Whatever breaks the rules of the format itself is `malformed`,
and what is nested deeper than can be followed is `nesting`; the others are values that look right
and are out of range, or that an explicit tag does not fit.
-/

set_option autoImplicit false

namespace TypedRoutes.Yaml

/-- Why a YAML text gives no document. -/
inductive Fault where
  /-- The text breaks the rules of the format. -/
  | malformed
  /-- More nodes are nested in one another than can be followed. -/
  | nesting
  /-- An escape names a code point beyond the last one. -/
  | codePoint (code : Nat)
  /-- An escape names half of a pair. The format allows it, but there is no such character, so the
  text is beyond what is modelled here. -/
  | unpaired (half : Nat)
  /-- A tagged integer that is not one. -/
  | integer (fault : Numeral.Fault)
  /-- A tagged float that is not one. -/
  | float (text : String)
  /-- A float to the base of sixty with more places than floats have room for. -/
  | overflow
  /-- A tagged number without any text. -/
  | emptyNumber
  /-- A tagged boolean that is not one. -/
  | boolean (word : String)
  /-- A tagged timestamp that is not one. -/
  | timestamp
  /-- A tagged timestamp that is a mapping, even one with a text under its special key. -/
  | timestampMapping
  /-- A date or a time that the calendar does not have. -/
  | calendar (fault : CalendarFault)
  deriving DecidableEq, Repr

/-- The largest code point that an escape can name without overflowing a word. -/
def wordLimit : Nat := 0x7FFFFFFF

/-- The report of a numeral that is not an integer; a long text is shown in part. -/
def integerMessage : Numeral.Fault → String
  | .malformed base text =>
    "invalid literal for int() with base " ++ decimalText base ++ ": " ++
      String.ofList ((Text.quoted text).toList.take 200)
  | .tooLong count => (DigitLimit.reading count).message

/-- The report of a part of a date or a time that is out of range. -/
def calendarMessage : CalendarFault → String
  | .year given => "year " ++ decimalText given ++ " is out of range"
  | .month => "month must be in 1..12"
  | .day => "day is out of range for month"
  | .hour => "hour must be in 0..23"
  | .minute => "minute must be in 0..59"
  | .second => "second must be in 0..59"
  | .offset minutes =>
    "offset must be a timedelta strictly between -timedelta(hours=24) and timedelta(hours=24), not "
      ++ shownMinutes minutes ++ "."

/-- The report of a fault. The wording of a breach of the format is left open, and so is what is
said of nesting beyond the fact itself. -/
def Fault.message : Fault → String
  | .malformed => ""
  | .nesting => "maximum recursion depth exceeded"
  | .unpaired half => "no character has the code " ++ decimalText half
  | .codePoint code =>
    if code ≤ wordLimit then "chr() arg not in range(0x110000)"
    else "Python int too large to convert to C int"
  | .integer fault => integerMessage fault
  | .float text => "could not convert string to float: " ++ Text.quoted text
  | .overflow => "int too large to convert to float"
  | .emptyNumber => "string index out of range"
  | .boolean word => Text.quoted word
  | .timestamp => "'NoneType' object has no attribute 'groupdict'"
  | .timestampMapping => "expected string or bytes-like object, got 'list'"
  | .calendar fault => calendarMessage fault

end TypedRoutes.Yaml
