import TypedRoutes.Proofs.Text.Compositional

/-!
# Splitting outside strings and brackets

`splitOutside` cuts a text at every separator that stands outside strings, comments and brackets.
Angle brackets count as brackets as long as they stand outside all others.

A text is kept if a splitter takes it into its piece as a whole and is left as it was (`Keeps`).
Brackets keep whatever passes the scanner (`keeps_bracketed`), quotes keep what stays between them
(`Keeps.quoted`), and angle brackets keep what is kept (`Keeps.angled`). A text that leaves nothing
open is split whatever follows (`Splits.append`), so texts that are kept, with the separator between
them, are split into themselves (`splits_intercalate`).
-/

set_option autoImplicit false

namespace TypedRoutes.Text

/-! ## More open brackets -/

namespace Scanner

/-- A bracket is closed alike with further brackets open outside. -/
theorem close_append {bracket : Bracket} {opened : List Bracket} {next : Scanner}
    (h : close bracket opened = some next) (outer : List Bracket) :
    close bracket (opened ++ outer) = some ⟨next.mode, next.opened ++ outer⟩ := by
  cases opened with
  | nil => cases h
  | cons innermost others =>
    simp only [close, Option.ite_none_right_eq_some, Option.some.injEq] at h
    obtain ⟨rfl, rfl⟩ := h
    simp [close]

/-- A character of code is read alike with further brackets open outside. -/
theorem readCode_append {c : Char} {opened : List Bracket} {next : Scanner}
    (h : readCode opened c = some next) (outer : List Bracket) :
    readCode (opened ++ outer) c = some ⟨next.mode, next.opened ++ outer⟩ := by
  unfold readCode at h ⊢
  split
  -- The cases follow the kinds of characters; only a closing bracket looks at those that are open.
  · next hquote =>
    rw [if_pos hquote] at h
    obtain rfl := Option.some.inj h
    rfl
  · next hquote =>
    rw [if_neg hquote] at h
    split
    · next hslash =>
      rw [if_pos hslash] at h
      obtain rfl := Option.some.inj h
      rfl
    · next hslash =>
      rw [if_neg hslash] at h
      cases hopening : Bracket.all.find? (·.opening = c) with
      | some bracket =>
        rw [hopening] at h
        obtain rfl := Option.some.inj h
        rfl
      | none =>
        rw [hopening] at h
        cases hclosing : Bracket.all.find? (·.closing = c) with
        | some bracket =>
          rw [hclosing] at h
          exact close_append h outer
        | none =>
          rw [hclosing] at h
          obtain rfl := Option.some.inj h
          rfl

/-- What a scanner does at a character, it does with more brackets open, and these stay open. -/
theorem step_append {mode : Mode} {opened : List Bracket} {c : Char} {next : Scanner}
    (h : step ⟨mode, opened⟩ c = some next) (outer : List Bracket) :
    step ⟨mode, opened ++ outer⟩ c = some ⟨next.mode, next.opened ++ outer⟩ := by
  -- Only code looks at the open brackets; in strings and comments they are passed on.
  cases mode with
  | code => exact readCode_append h outer
  | slash =>
    by_cases hstar : c = '*'
    · simp only [step, hstar, if_true, Option.some.injEq] at h ⊢
      rw [← h]
    · simp only [step, hstar, if_false] at h ⊢
      exact readCode_append h outer
  | quoted quote =>
    simp only [step] at h ⊢
    split at h
    · next hescape =>
      obtain rfl := Option.some.inj h
      rw [if_pos hescape]
    · next hescape =>
      rw [if_neg hescape]
      split at h
      · next hend =>
        obtain rfl := Option.some.inj h
        rw [if_pos hend]
      · next hend =>
        obtain rfl := Option.some.inj h
        rw [if_neg hend]
  | escaped quote =>
    obtain rfl := Option.some.inj h
    rfl
  | comment =>
    obtain rfl := Option.some.inj h
    rfl
  | star =>
    obtain rfl := Option.some.inj h
    rfl

end Scanner

/-! ## Splitters -/

/-- A splitter: the scanner of brackets, strings and comments, the number of open angle brackets,
the piece that is being read, and the pieces before it. -/
structure Splitter where
  scanner : Scanner
  angles : Nat
  piece : List Char
  pieces : List (List Char)
  deriving DecidableEq, Repr

namespace Splitter

/-- At the start nothing is open and nothing is read. -/
def start : Splitter := ⟨.start, 0, [], []⟩

/-- The number of open angle brackets after a character outside all other brackets. -/
def countAngle (c : Char) (angles : Nat) : Nat :=
  if c = '<' then angles + 1 else if c = '>' then angles - 1 else angles

/-- Reads a character. -/
def step (separator : Char) (s : Splitter) (c : Char) : Option Splitter :=
  if s.scanner = .start ∧ s.angles = 0 ∧ c = separator then
    some { s with piece := [], pieces := s.pieces ++ [s.piece] }
  else
    (s.scanner.step c).map fun scanner =>
      { s with
        scanner
        angles := if s.scanner = .start then countAngle c s.angles else s.angles
        piece := s.piece ++ [c] }

/-- Reads a text. -/
def run (separator : Char) (s : Splitter) (cs : List Char) : Option Splitter :=
  cs.foldlM (step separator) s

@[simp] theorem run_nil (separator : Char) (s : Splitter) : run separator s [] = some s := rfl

theorem run_cons (separator : Char) (s : Splitter) (c : Char) (cs : List Char) :
    run separator s (c :: cs) = (step separator s c).bind fun next => run separator next cs := rfl

theorem run_append (separator : Char) (s : Splitter) (cs ds : List Char) :
    run separator s (cs ++ ds) = (run separator s cs).bind fun next => run separator next ds :=
  List.foldlM_append

end Splitter

/-- The pieces of a text between the separators outside strings, comments and brackets. -/
def splitOutside (separator : Char) (cs : List Char) : Option (List (List Char)) :=
  (Splitter.run separator .start cs).map fun s => s.pieces ++ [s.piece]

example : splitOutside ',' "a[,], <b, c>,',\x7d\\','".toList =
    some ["a[,]".toList, " <b, c>".toList, "',\x7d\\','".toList] := by decide
example : splitOutside ',' "a, (b".toList = some ["a".toList, " (b".toList] := by decide

namespace Splitter

/-- A separator opens nothing: it is no quote and no opening bracket, angle brackets included. -/
def IsSeparator (c : Char) : Prop := c ∉ ['<', '>', '\'', '"', '(', '[', '\x7b']

instance (c : Char) : Decidable (IsSeparator c) := inferInstanceAs (Decidable (c ∉ _))

variable {separator : Char} {scanner : Scanner} {cs ds : List Char}

/-! ## Texts that are kept -/

/-- A splitter takes the text into its piece as a whole, and all else is as it was. -/
def Keeps (separator : Char) (scanner : Scanner) (cs : List Char) : Prop :=
  ∀ angles piece pieces, run separator ⟨scanner, angles, piece, pieces⟩ cs =
    some ⟨scanner, angles, piece ++ cs, pieces⟩

theorem keeps_nil : Keeps separator scanner [] := by
  intro angles piece pieces
  simp

theorem Keeps.append (hcs : Keeps separator scanner cs) (hds : Keeps separator scanner ds) :
    Keeps separator scanner (cs ++ ds) := by
  intro angles piece pieces
  rw [run_append, hcs, Option.bind_some, hds, List.append_assoc]

theorem Keeps.flatMap {α : Type} {f : α → List Char} {parts : List α}
    (h : ∀ part ∈ parts, Keeps separator scanner (f part)) :
    Keeps separator scanner (parts.flatMap f) := by
  induction parts with
  | nil => exact keeps_nil
  | cons part rest ih =>
    rw [List.forall_mem_cons] at h
    exact h.1.append (ih h.2)

/-! ## Plain characters -/

/-- A character that neither splits nor opens or closes anything. -/
def IsInert (separator c : Char) : Prop := c ∉ separator :: '<' :: '>' :: Scanner.marks

instance (separator c : Char) : Decidable (IsInert separator c) :=
  inferInstanceAs (Decidable (c ∉ _))

/-- Characters without a mark join the piece, unless one of them splits. -/
theorem run_of_no_marks {angles : Nat} (h : ∀ c ∈ cs, c ∉ '<' :: '>' :: Scanner.marks)
    (hsplit : angles = 0 → separator ∉ cs) (piece : List Char) (pieces : List (List Char)) :
    run separator ⟨.start, angles, piece, pieces⟩ cs =
      some ⟨.start, angles, piece ++ cs, pieces⟩ := by
  induction cs generalizing piece with
  | nil => simp
  | cons c cs ih =>
    obtain ⟨hc, hcs⟩ := List.forall_mem_cons.1 h
    simp only [List.mem_cons, not_or] at hc hsplit
    obtain ⟨hopen, hclose, hmark⟩ := hc
    have hscan : Scanner.step .start c = some .start := Scanner.step_of_not_mem_marks hmark []
    have hjoins : ¬ (angles = 0 ∧ c = separator) := by
      rintro ⟨hzero, rfl⟩
      exact (hsplit hzero).1 rfl
    have hstep : step separator ⟨.start, angles, piece, pieces⟩ c =
        some ⟨.start, angles, piece ++ [c], pieces⟩ := by
      simp [step, hscan, countAngle, hjoins, hopen, hclose]
    rw [run_cons, hstep, Option.bind_some, ih hcs fun hzero => (hsplit hzero).2,
      List.append_assoc, List.singleton_append]

/-- A text of inert characters is kept in one piece. -/
theorem keeps_of_inert (h : ∀ c ∈ cs, IsInert separator c) : Keeps separator .start cs := by
  intro angles piece pieces
  refine run_of_no_marks ?_ ?_ piece pieces
  · intro c hc hmark
    exact h c hc (List.mem_cons_of_mem _ hmark)
  · intro _ hseparator
    exact h separator hseparator List.mem_cons_self

/-! ## Brackets and quotes -/

/-- Where something is open, a character does to the scanner what it does anyway and joins the
piece. -/
theorem step_of_ne_start (hscanner : scanner ≠ .start) {c : Char} {next : Scanner}
    (h : scanner.step c = some next) (angles : Nat) (piece : List Char)
    (pieces : List (List Char)) :
    step separator ⟨scanner, angles, piece, pieces⟩ c =
      some ⟨next, angles, piece ++ [c], pieces⟩ := by
  simp [step, hscanner, h]

/-- Where something is open, the splitter reads what the scanner reads: `outer` stays open. -/
theorem run_enclosed (separator : Char) {mode : Scanner.Mode} {opened outer : List Bracket}
    {next : Scanner} (houter : outer ≠ []) (h : Scanner.run ⟨mode, opened⟩ cs = some next)
    (angles : Nat) (piece : List Char) (pieces : List (List Char)) :
    run separator ⟨⟨mode, opened ++ outer⟩, angles, piece, pieces⟩ cs =
      some ⟨⟨next.mode, next.opened ++ outer⟩, angles, piece ++ cs, pieces⟩ := by
  induction cs generalizing mode opened piece with
  | nil =>
    obtain rfl := Option.some.inj h
    simp
  | cons c cs ih =>
    obtain ⟨middle, hstep, hrest⟩ := Option.bind_eq_some_iff.1 h
    have hopen : (⟨mode, opened ++ outer⟩ : Scanner) ≠ .start := by
      intro heq
      exact houter (List.append_eq_nil_iff.1 (Scanner.mk.inj heq).2).2
    rw [run_cons, step_of_ne_start hopen (Scanner.step_append hstep outer), Option.bind_some,
      ih hrest, List.append_assoc, List.singleton_append]

variable (hseparator : IsSeparator separator)

include hseparator

/-- A character that opens something joins the piece. -/
theorem step_of_opens {c : Char} (hopens : c ∈ ['\'', '"', '(', '[', '\x7b']) {next : Scanner}
    (h : Scanner.step .start c = some next) (angles : Nat) (piece : List Char)
    (pieces : List (List Char)) :
    step separator ⟨.start, angles, piece, pieces⟩ c =
      some ⟨next, angles, piece ++ [c], pieces⟩ := by
  have hother : ∀ c ∈ ['\'', '"', '(', '[', '\x7b'], c ≠ '<' ∧ c ≠ '>' := by decide
  obtain ⟨hopen, hclose⟩ := hother c hopens
  have hne : c ≠ separator := by
    rintro rfl
    exact hseparator (List.mem_cons_of_mem _ (List.mem_cons_of_mem _ hopens))
  simp [step, h, hne, countAngle, hopen, hclose]

/-- Brackets keep what passes the scanner. -/
theorem keeps_bracketed (bracket : Bracket) (h : Scanner.Passes .code cs) :
    Keeps separator .start (bracket.opening :: cs ++ [bracket.closing]) := by
  intro angles piece pieces
  have hopens : bracket.opening ∈ ['\'', '"', '(', '[', '\x7b'] := by cases bracket <;> decide
  have hopening : Scanner.step .start bracket.opening = some ⟨.code, [bracket]⟩ := by
    cases bracket <;> rfl
  have hclosing : Scanner.step ⟨.code, [bracket]⟩ bracket.closing = some .start := by
    cases bracket <;> rfl
  have hinner := run_enclosed separator (List.cons_ne_nil bracket []) (h [])
  rw [List.cons_append, run_cons, step_of_opens hseparator hopens hopening, Option.bind_some,
    run_append]
  simp only [List.nil_append] at hinner
  rw [hinner, Option.bind_some, run_cons, step_of_ne_start (by simp [Scanner.start]) hclosing,
    Option.bind_some, run_nil]
  simp

/-- Quotes keep what is kept inside them. -/
theorem Keeps.quoted {quote : Char} (hquote : quote = '\'' ∨ quote = '"')
    (h : Keeps separator ⟨.quoted quote, []⟩ cs) :
    Keeps separator .start (quote :: cs ++ [quote]) := by
  intro angles piece pieces
  have hopens : quote ∈ ['\'', '"', '(', '[', '\x7b'] := by
    rcases hquote with rfl | rfl <;> decide
  have hopening : Scanner.step .start quote = some ⟨.quoted quote, []⟩ := by
    rcases hquote with rfl | rfl <;> rfl
  have hclosing : Scanner.step ⟨.quoted quote, []⟩ quote = some .start := by
    rcases hquote with rfl | rfl <;> rfl
  rw [List.cons_append, run_cons, step_of_opens hseparator hopens hopening, Option.bind_some,
    run_append, h, Option.bind_some, run_cons, step_of_ne_start (by simp [Scanner.start]) hclosing,
    Option.bind_some, run_nil]
  simp

omit hseparator

theorem keeps_quoted_singleton {quote c : Char} (hquote : c ≠ quote) (hslash : c ≠ '\\') :
    Keeps separator ⟨.quoted quote, []⟩ [c] := by
  intro angles piece pieces
  have hstep : Scanner.step ⟨.quoted quote, []⟩ c = some ⟨.quoted quote, []⟩ := by
    simp [Scanner.step, hquote, hslash]
  rw [run_cons, step_of_ne_start (by simp [Scanner.start]) hstep]
  rfl

theorem keeps_quoted_escape (quote c : Char) : Keeps separator ⟨.quoted quote, []⟩ ['\\', c] := by
  intro angles piece pieces
  have hslash : Scanner.step ⟨.quoted quote, []⟩ '\\' = some ⟨.escaped quote, []⟩ := rfl
  have hescaped : Scanner.step ⟨.escaped quote, []⟩ c = some ⟨.quoted quote, []⟩ := rfl
  rw [run_cons, step_of_ne_start (by simp [Scanner.start]) hslash, Option.bind_some, run_cons,
    step_of_ne_start (by simp [Scanner.start]) hescaped]
  simp

/-! ## Angle brackets -/

/-- A character that the scanner reads on its own and that is no separator is added to the piece. -/
theorem step_start_of_ne {c : Char} (hne : c ≠ separator) (h : Scanner.step .start c = some .start)
    (angles : Nat) (piece : List Char) (pieces : List (List Char)) :
    step separator ⟨.start, angles, piece, pieces⟩ c =
      some ⟨.start, countAngle c angles, piece ++ [c], pieces⟩ := by
  simp [step, hne, h]

/-- A text that is kept is kept between angle brackets, after anything that opens and closes
nothing. -/
theorem Keeps.angled (hseparator : IsSeparator separator) {before : List Char}
    (hbefore : ∀ c ∈ before, c ∉ '<' :: '>' :: Scanner.marks) (h : Keeps separator .start cs) :
    Keeps separator .start ('<' :: before ++ cs ++ ['>']) := by
  intro angles piece pieces
  have hne : ∀ c ∈ ['<', '>'], c ≠ separator := by
    rintro c hc rfl
    exact hseparator (List.mem_append_left ['\'', '"', '(', '[', '\x7b'] hc)
  have hopen : step separator ⟨.start, angles, piece, pieces⟩ '<' =
      some ⟨.start, angles + 1, piece ++ ['<'], pieces⟩ :=
    step_start_of_ne (hne _ (by decide)) (by decide) _ _ _
  have hclose (piece : List Char) : step separator ⟨.start, angles + 1, piece, pieces⟩ '>' =
      some ⟨.start, angles, piece ++ ['>'], pieces⟩ :=
    step_start_of_ne (hne _ (by decide)) (by decide) _ _ _
  -- Between angle brackets a separator does not count.
  have hinside (piece : List Char) : run separator ⟨.start, angles + 1, piece, pieces⟩ before =
      some ⟨.start, angles + 1, piece ++ before, pieces⟩ :=
    run_of_no_marks hbefore (absurd · (Nat.succ_ne_zero angles)) piece pieces
  rw [List.cons_append, List.cons_append, run_cons, hopen, Option.bind_some, run_append, run_append,
    hinside, Option.bind_some, h, Option.bind_some, run_cons, hclose]
  simp

/-! ## Texts that leave nothing open -/

/-- The text is split into the pieces, and nothing is open at its end. -/
def Splits (separator : Char) (cs : List Char) (pieces : List (List Char)) : Prop :=
  ∃ before last, pieces = before ++ [last] ∧
    run separator .start cs = some ⟨.start, 0, last, before⟩

variable {pieces others : List (List Char)}

theorem Splits.splitOutside_eq (h : Splits separator cs pieces) :
    splitOutside separator cs = some pieces := by
  obtain ⟨before, last, rfl, hrun⟩ := h
  rw [splitOutside, hrun]
  rfl

theorem Keeps.splits (h : Keeps separator .start cs) : Splits separator cs [cs] :=
  ⟨[], cs, rfl, h 0 [] []⟩

/-- A separator outside all brackets ends the piece. -/
theorem step_separator (separator : Char) (piece : List Char) (pieces : List (List Char)) :
    step separator ⟨.start, 0, piece, pieces⟩ separator =
      some ⟨.start, 0, [], pieces ++ [piece]⟩ := by
  simp [step]

/-- The pieces that are read do not matter to what is read next. -/
theorem run_pieces (separator : Char) (s : Splitter) (before : List (List Char)) (cs : List Char) :
    run separator { s with pieces := before ++ s.pieces } cs =
      (run separator s cs).map fun last => { last with pieces := before ++ last.pieces } := by
  induction cs generalizing s with
  | nil => rfl
  | cons c cs ih =>
    have hstep : step separator { s with pieces := before ++ s.pieces } c =
        (step separator s c).map fun next => { next with pieces := before ++ next.pieces } := by
      unfold step
      split
      · simp
      · rw [Option.map_map]
        rfl
    rw [run_cons, run_cons, hstep]
    cases step separator s c with
    | none => rfl
    | some next => exact ih next

/-- Two texts with the separator between them are split one after the other. -/
theorem Splits.append (hcs : Splits separator cs pieces) (hds : Splits separator ds others) :
    Splits separator (cs ++ separator :: ds) (pieces ++ others) := by
  obtain ⟨before, last, rfl, hrun⟩ := hcs
  obtain ⟨after, final, rfl, hrest⟩ := hds
  have hpieces := run_pieces separator .start (before ++ [last]) ds
  simp only [start, List.append_nil] at hpieces
  refine ⟨before ++ [last] ++ after, final, by simp, ?_⟩
  rw [run_append, hrun, Option.bind_some, run_cons, step_separator, Option.bind_some, hpieces,
    ← start, hrest]
  rfl

/-- Texts that are kept, joined by a glue that begins with the separator, are split into themselves,
with what follows the separator in the glue before all but the first. -/
theorem splits_intercalate {glue : String} {after lead : List Char}
    (hglue : glue.toList = separator :: after) (hafter : Keeps separator .start after)
    (hlead : Keeps separator .start lead) {part : String} {rest : List String}
    (h : ∀ text ∈ part :: rest, Keeps separator .start text.toList) :
    Splits separator (lead ++ (glue.intercalate (part :: rest)).toList)
      ((lead ++ part.toList) :: rest.map fun text => after ++ text.toList) := by
  induction rest generalizing lead part with
  | nil =>
    rw [List.forall_mem_singleton] at h
    simpa using (hlead.append h).splits
  | cons next rest ih =>
    obtain ⟨hpart, hrest⟩ := List.forall_mem_cons.1 h
    have hsplit : lead ++ (glue.intercalate (part :: next :: rest)).toList =
        (lead ++ part.toList) ++
          separator :: (after ++ (glue.intercalate (next :: rest)).toList) := by
      rw [String.intercalate_cons_cons, String.toList_append, String.toList_append, hglue]
      simp
    rw [hsplit]
    exact (hlead.append hpart).splits.append (ih hafter hrest)

end Splitter
end TypedRoutes.Text
