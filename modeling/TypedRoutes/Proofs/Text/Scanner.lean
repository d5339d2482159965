import Mathlib.Data.List.Basic

/-!
# Scanning declarations

`Scanner.run` goes through a text of declarations knowing nothing of how it is written: it skips
strings between single or double quotes, in which a backslash makes the next character stand for
itself, and comments between `/*` and `*/`, and it matches the brackets outside them. The text is
closed if the scanner ends where it started (`isClosed`).

A text passes if it leaves the scanner as it was, whatever brackets are open before it (`Passes`).
Texts put together from such texts pass, and so do texts between brackets and between quotes, so
whether a text is closed can be said piece by piece.
-/

set_option autoImplicit false

namespace TypedRoutes.Text

/-- The kinds of bracket. -/
inductive Bracket where
  | round
  | square
  | curly
  deriving DecidableEq, Repr

namespace Bracket

/-- The character that opens a bracket. -/
def opening : Bracket → Char
  | .round => '('
  | .square => '['
  | .curly => '\x7b'

/-- The character that closes a bracket. -/
def closing : Bracket → Char
  | .round => ')'
  | .square => ']'
  | .curly => '\x7d'

/-- All kinds of bracket. -/
def all : List Bracket := [.round, .square, .curly]

end Bracket

/-- What a scanner is in: the text itself, or right after a slash in it; a string that a quote ends,
or right after a backslash in it; a comment, or right after a star in it. -/
inductive Scanner.Mode where
  | code
  | slash
  | quoted (quote : Char)
  | escaped (quote : Char)
  | comment
  | star
  deriving DecidableEq, Repr

/-- A scanner: what it is in, and the brackets that are open, the innermost first. -/
structure Scanner where
  mode : Scanner.Mode
  opened : List Bracket
  deriving DecidableEq, Repr

namespace Scanner

/-- At the start nothing is open. -/
def start : Scanner := ⟨.code, []⟩

/-- Reads a closing bracket, which has to close the innermost open one. -/
def close (bracket : Bracket) : List Bracket → Option Scanner
  | innermost :: outer => if innermost = bracket then some ⟨.code, outer⟩ else none
  | [] => none

/-- Reads a character of the text itself. -/
def readCode (opened : List Bracket) (c : Char) : Option Scanner :=
  if c = '\'' ∨ c = '"' then some ⟨.quoted c, opened⟩
  else if c = '/' then some ⟨.slash, opened⟩
  else match Bracket.all.find? (·.opening = c), Bracket.all.find? (·.closing = c) with
    | some bracket, _ => some ⟨.code, bracket :: opened⟩
    | none, some bracket => close bracket opened
    | none, none => some ⟨.code, opened⟩

/-- Reads a character. -/
def step : Scanner → Char → Option Scanner
  | ⟨.code, opened⟩, c => readCode opened c
  | ⟨.slash, opened⟩, c => if c = '*' then some ⟨.comment, opened⟩ else readCode opened c
  | ⟨.quoted quote, opened⟩, c =>
    if c = '\\' then some ⟨.escaped quote, opened⟩
    else if c = quote then some ⟨.code, opened⟩
    else some ⟨.quoted quote, opened⟩
  | ⟨.escaped quote, opened⟩, _ => some ⟨.quoted quote, opened⟩
  | ⟨.comment, opened⟩, c => some ⟨if c = '*' then .star else .comment, opened⟩
  | ⟨.star, opened⟩, c =>
    some ⟨if c = '/' then .code else if c = '*' then .star else .comment, opened⟩

/-- Reads a text. -/
def run (scanner : Scanner) (cs : List Char) : Option Scanner := cs.foldlM step scanner

@[simp] theorem run_nil (scanner : Scanner) : run scanner [] = some scanner := rfl

theorem run_cons (scanner : Scanner) (c : Char) (cs : List Char) :
    run scanner (c :: cs) = (step scanner c).bind fun next => run next cs := rfl

theorem run_append (scanner : Scanner) (cs ds : List Char) :
    run scanner (cs ++ ds) = (run scanner cs).bind fun next => run next ds :=
  List.foldlM_append

end Scanner

/-- Is every string and every comment of the text ended, and is every bracket outside them closed by
one of its kind? -/
def isClosed (text : String) : Bool := Scanner.run .start text.toList == some .start

example : isClosed "a: (b: 'it\\'s \x7d', c: \"[\") /* '( */" = true := by decide
example : isClosed "(]" = false ∧ isClosed "\x7d" = false ∧ isClosed "/*/" = false := by decide

namespace Scanner

/-! ## Texts that pass -/

/-- The text leaves the scanner in the mode it was in, with the same brackets open. -/
def Passes (mode : Mode) (cs : List Char) : Prop :=
  ∀ opened, run ⟨mode, opened⟩ cs = some ⟨mode, opened⟩

theorem passes_nil (mode : Mode) : Passes mode [] := fun _ => rfl

theorem Passes.append {mode : Mode} {cs ds : List Char} (hcs : Passes mode cs)
    (hds : Passes mode ds) : Passes mode (cs ++ ds) := by
  intro opened
  rw [run_append, hcs opened, Option.bind_some, hds opened]

theorem Passes.flatMap {α : Type} {mode : Mode} {f : α → List Char} {parts : List α}
    (h : ∀ part ∈ parts, Passes mode (f part)) : Passes mode (parts.flatMap f) := by
  induction parts with
  | nil => exact passes_nil mode
  | cons part rest ih =>
    rw [List.forall_mem_cons] at h
    exact h.1.append (ih h.2)

/-- The characters at which a scanner leaves the text or counts a bracket. -/
def marks : List Char := ['\'', '"', '/', '(', '[', '\x7b', ')', ']', '\x7d']

/-- In code, a character that is no mark leaves the scanner as it is. -/
theorem step_of_not_mem_marks {c : Char} (h : c ∉ marks) (opened : List Bracket) :
    step ⟨.code, opened⟩ c = some ⟨.code, opened⟩ := by
  simp only [marks, List.mem_cons, List.not_mem_nil, or_false, not_or] at h
  obtain ⟨hsingle, hdouble, hslash, hround, hsquare, hcurly, hround', hsquare', hcurly'⟩ := h
  simp [step, readCode, Bracket.all, Bracket.opening, Bracket.closing, hsingle, hdouble, hslash,
    Ne.symm hround, Ne.symm hsquare, Ne.symm hcurly, Ne.symm hround', Ne.symm hsquare',
    Ne.symm hcurly']

/-- A text without marks passes. -/
theorem passes_of_no_marks {cs : List Char} (h : ∀ c ∈ cs, c ∉ marks) : Passes .code cs := by
  intro opened
  induction cs with
  | nil => rfl
  | cons c cs ih =>
    rw [List.forall_mem_cons] at h
    rw [run_cons, step_of_not_mem_marks h.1, Option.bind_some, ih h.2]

/-- A text between brackets passes if it does without them. -/
theorem Passes.bracketed (bracket : Bracket) {cs : List Char} (h : Passes .code cs) :
    Passes .code (bracket.opening :: cs ++ [bracket.closing]) := by
  intro opened
  have hopen : step ⟨.code, opened⟩ bracket.opening = some ⟨.code, bracket :: opened⟩ := by
    cases bracket <;> rfl
  have hclose : step ⟨.code, bracket :: opened⟩ bracket.closing = some ⟨.code, opened⟩ := by
    cases bracket <;> rfl
  rw [List.cons_append, run_cons, hopen, Option.bind_some, run_append, h (bracket :: opened),
    Option.bind_some, run_cons, hclose]
  rfl

/-! ## Strings -/

theorem passes_quoted_singleton {quote c : Char} (hquote : c ≠ quote) (hslash : c ≠ '\\') :
    Passes (.quoted quote) [c] := by
  intro opened
  simp [run_cons, step, hquote, hslash]

theorem passes_quoted_escape (quote c : Char) : Passes (.quoted quote) ['\\', c] := fun _ => rfl

/-- A text between quotes passes if it stays between them. -/
theorem Passes.quoted {quote : Char} (hquote : quote = '\'' ∨ quote = '"') {cs : List Char}
    (h : Passes (.quoted quote) cs) : Passes .code (quote :: cs ++ [quote]) := by
  intro opened
  have hopen : step ⟨.code, opened⟩ quote = some ⟨.quoted quote, opened⟩ := by
    simp [step, readCode, hquote]
  have hclose : step ⟨.quoted quote, opened⟩ quote = some ⟨.code, opened⟩ := by
    rcases hquote with rfl | rfl <;> rfl
  rw [List.cons_append, run_cons, hopen, Option.bind_some, run_append, h opened, Option.bind_some,
    run_cons, hclose]
  rfl

end Scanner

/-! ## Closed texts -/

/-- The text passes outside strings and comments. -/
def Passes (text : String) : Prop := Scanner.Passes .code text.toList

/-- A text that passes leaves nothing open. -/
theorem isClosed_of_passes {text : String} (h : Passes text) : isClosed text = true := by
  rw [isClosed, Scanner.start, h []]
  decide

theorem Passes.append {s t : String} (hs : Passes s) (ht : Passes t) : Passes (s ++ t) := by
  rw [Passes, String.toList_append]
  exact Scanner.Passes.append hs ht

theorem passes_of_no_marks {text : String} (h : ∀ c ∈ text.toList, c ∉ Scanner.marks) :
    Passes text :=
  Scanner.passes_of_no_marks h

/-- A text between brackets passes if it does without them. -/
theorem Passes.bracketed (bracket : Bracket) {text : String} (h : Passes text) :
    Passes (String.ofList (bracket.opening :: text.toList ++ [bracket.closing])) := by
  rw [Passes, String.toList_ofList]
  exact Scanner.Passes.bracketed bracket h

/-- A text between quotes passes if it stays between them. -/
theorem Passes.quoted {quote : Char} (hquote : quote = '\'' ∨ quote = '"') {cs : List Char}
    (h : Scanner.Passes (.quoted quote) cs) : Passes (String.ofList (quote :: cs ++ [quote])) := by
  rw [Passes, String.toList_ofList]
  exact Scanner.Passes.quoted hquote h

end TypedRoutes.Text
