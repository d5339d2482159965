import TypedRoutes.Datum.Fold
import TypedRoutes.Number.Numeral
import TypedRoutes.Text.Quoted

/-!
# The plain text of data

How a value is shown where a contract gives something else than a string: `Datum.text` leaves a
string as it is, `Datum.shown` puts it between quotes, as it stands inside a container. Only an
integer beyond the limit on digits has no text.
-/

set_option autoImplicit false

namespace TypedRoutes

/-- The arguments of a call as it is shown. -/
def shownCall (name : String) (arguments : List String) : String :=
  name ++ "(" ++ ", ".intercalate arguments ++ ")"

/-- A length of time as it is shown, in whole days and the seconds beyond them. -/
def shownMinutes (minutes : Int) : String :=
  let days := minutes / 1440
  let seconds := minutes % 1440 * 60
  let parts := (if days = 0 then [] else ["days=" ++ decimalText days]) ++
    (if seconds = 0 then [] else ["seconds=" ++ decimalText seconds])
  shownCall "datetime.timedelta" (if parts.isEmpty then ["0"] else parts)

/-- An offset from UTC as it is shown. -/
def shownOffset (minutes : Int) : String :=
  if minutes = 0 then "datetime.timezone.utc"
  else shownCall "datetime.timezone" [shownMinutes minutes]

/-- A date as it is shown. -/
def Date.shown (d : Date) : String :=
  shownCall "datetime.date" (d.parts.map fun n : Nat => decimalText n)

/-- A timestamp as it is shown; zero seconds and fractions at the end are left out. -/
def Timestamp.shown (t : Timestamp) : String :=
  let clock := [t.hour, t.minute] ++
    if t.microsecond ≠ 0 then [t.second, t.microsecond]
    else if t.second ≠ 0 then [t.second] else []
  let offset := match t.offset with
    | some minutes => ["tzinfo=" ++ shownOffset minutes]
    | none => []
  shownCall "datetime.datetime"
    ((t.date.parts ++ clock).map (fun n : Nat => decimalText n) ++ offset)

namespace Scalar

/-- A scalar as it stands inside a container. -/
def shown : Scalar → Except DigitLimit String
  | .null => .ok "None"
  | .bool b => .ok (if b then "True" else "False")
  | .int n => integerText n
  | .float x => .ok x.text
  | .str s => .ok (Text.quoted s)
  | .bytes b => .ok (Text.quotedBytes b)
  | .date d => .ok d.shown
  | .timestamp t => .ok t.shown

/-- A scalar by itself: strings, dates and timestamps have no quotes or frames. -/
def text : Scalar → Except DigitLimit String
  | .str s => .ok s
  | .date d => .ok d.text
  | .timestamp t => .ok t.text
  | s => s.shown

end Scalar

/-- A set as it is shown; the empty one has no braces of its own. The order of the members in a text
is not fixed where sets come from, and here it is the one in which they are given. -/
def shownSet (members : List Scalar) : Except DigitLimit String := do
  let shown ← members.mapM Scalar.shown
  return if shown.isEmpty then "set()" else "\x7b" ++ ", ".intercalate shown ++ "\x7d"

namespace Datum

/-- How the parts of a datum are shown inside a container. -/
def shownFold : Fold DigitLimit String where
  scalar := Scalar.shown
  set := shownSet
  cycle
    | .list => .ok "[...]"
    | .pair => .ok "(...)"
    | .map => .ok "\x7b...\x7d"
  key := Scalar.shown
  pair first second := "(" ++ first ++ ", " ++ second ++ ")"
  list items := "[" ++ ", ".intercalate items ++ "]"
  map entries :=
    "\x7b" ++ ", ".intercalate (entries.map fun (key, value) => key ++ ": " ++ value) ++ "\x7d"

/-- A datum as it stands inside a container. -/
def shown (d : Datum) : Except DigitLimit String := d.fold shownFold

/-- The plain text of a datum. -/
def text : Datum → Except DigitLimit String
  | .scalar s => s.text
  | d => d.shown

end Datum

example : (Timestamp.shown ⟨⟨2020, 1, 2⟩, 3, 4, 0, 0, some (-30)⟩) =
    "datetime.datetime(2020, 1, 2, 3, 4, tzinfo=datetime.timezone(" ++
      "datetime.timedelta(days=-1, seconds=84600)))" := by decide +kernel
example : (Datum.shown (.map [(.str "a", .list [.scalar .null, .cycle .map])])).toOption =
    some "\x7b'a': [None, \x7b...\x7d]\x7d" := by decide +kernel

end TypedRoutes
