import TypedRoutes.Proofs.Text.Compositional

/-!
# Lexemes of declarations

A text of declarations is cut into strings between single or double quotes, comments between `/*`
and `*/`, and the characters outside them (`Text.lexemes`). A backslash in a string makes the next
character stand for itself. Nothing of the text is lost (`Text.flatMap_chars_lexemes`), and a text
has lexemes only if each of its strings and comments is ended.

A text that gives its lexemes whatever follows it can be read piece by piece (`Text.Reads`): texts
put together from such texts give the lexemes of their parts, one after the other.
-/

set_option autoImplicit false

namespace TypedRoutes.Text

/-- A piece of a text: a character outside strings and comments, what a string holds as it is
written, or what stands between the marks of a comment. -/
inductive Lexeme where
  | plain (c : Char)
  | quoted (quote : Char) (body : List Char)
  | comment (body : List Char)
  deriving DecidableEq, Repr

namespace Lexeme

/-- The lexeme as it is written. -/
def chars : Lexeme → List Char
  | plain c => [c]
  | quoted quote body => quote :: body ++ [quote]
  | comment body => '/' :: '*' :: body ++ ['*', '/']

/-- The text of a comment. -/
def comment? : Lexeme → Option (List Char)
  | comment body => some body
  | _ => none

/-- What a string between single quotes holds. -/
def singleQuoted? : Lexeme → Option (List Char)
  | quoted '\'' body => some body
  | _ => none

theorem filterMap_comment?_map_plain (cs : List Char) :
    (cs.map plain).filterMap comment? = [] := by
  rw [List.filterMap_map]
  exact List.filterMap_eq_nil_iff.2 fun _ _ => rfl

theorem filterMap_singleQuoted?_map_plain (cs : List Char) :
    (cs.map plain).filterMap singleQuoted? = [] := by
  rw [List.filterMap_map]
  exact List.filterMap_eq_nil_iff.2 fun _ _ => rfl

/-- What a reader is in, with the part of it that is read: nothing, a string, or a comment. -/
inductive Place where
  | outside
  | inString (quote : Char) (body : List Char)
  | inComment (body : List Char)

/-- The part that is read, as it is written. -/
def Place.chars : Place → List Char
  | outside => []
  | inString quote body => quote :: body
  | inComment body => '/' :: '*' :: body

/-- The lexemes of a text that goes on from a place; none if a string or a comment is not ended. -/
def read : Place → List Char → Option (List Lexeme)
  | .outside, [] => some []
  | .outside, '/' :: '*' :: rest => read (.inComment []) rest
  | .outside, c :: rest =>
    if c = '\'' ∨ c = '"' then read (.inString c []) rest
    else (read .outside rest).map (plain c :: ·)
  | .inString _ _, [] => none
  | .inString quote body, '\\' :: c :: rest => read (.inString quote (body ++ ['\\', c])) rest
  | .inString quote body, c :: rest =>
    if c = quote then (read .outside rest).map (quoted quote body :: ·)
    else read (.inString quote (body ++ [c])) rest
  | .inComment _, [] => none
  | .inComment body, '*' :: '/' :: rest => (read .outside rest).map (comment body :: ·)
  | .inComment body, c :: rest => read (.inComment (body ++ [c])) rest

end Lexeme

/-- The lexemes of a text. -/
def lexemes (cs : List Char) : Option (List Lexeme) := Lexeme.read .outside cs

/-- What the strings between single quotes hold, in order. -/
def singleQuoted? (text : String) : Option (List (List Char)) :=
  (lexemes text.toList).map fun tokens => tokens.filterMap Lexeme.singleQuoted?

example : lexemes "a/**/'\\'*/'".toList =
    some [.plain 'a', .comment [], .quoted '\'' ['\\', '\'', '*', '/']] := by decide
example : lexemes "'/*".toList = none ∧ lexemes "/*/".toList = none := by decide

/-- Nothing of a text is lost. -/
theorem Lexeme.flatMap_chars_read {place : Place} {cs : List Char} {tokens : List Lexeme}
    (h : read place cs = some tokens) : tokens.flatMap chars = place.chars ++ cs := by
  -- A lexeme that ends here stands before the lexemes of the rest.
  have hends {token : Lexeme} {rest : List Char} {tokens : List Lexeme}
      (ih : ∀ {others}, read .outside rest = some others → others.flatMap chars = rest)
      (h : (read .outside rest).map (token :: ·) = some tokens) :
      tokens.flatMap chars = token.chars ++ rest := by
    obtain ⟨others, hothers, rfl⟩ := Option.map_eq_some_iff.1 h
    rw [List.flatMap_cons, ih hothers]
  fun_induction read place cs generalizing tokens with
  | case1 =>
    obtain rfl := Option.some.inj h
    rfl
  | case2 rest ih => exact ih h
  | case3 c rest _ _ ih => exact ih h
  | case4 c rest _ _ ih => exact hends ih h
  | case5 quote body => cases h
  | case6 quote body c rest ih => simpa [Place.chars] using ih h
  | case7 quote body rest _ ih => simpa [Place.chars, chars] using hends ih h
  | case8 quote body c rest _ _ ih => simpa [Place.chars] using ih h
  | case9 body => cases h
  | case10 body rest ih => simpa [Place.chars, chars] using hends ih h
  | case11 body c rest _ ih => simpa [Place.chars] using ih h

/-- The lexemes of a text make up the text. -/
theorem flatMap_chars_lexemes {cs : List Char} {tokens : List Lexeme}
    (h : lexemes cs = some tokens) : tokens.flatMap Lexeme.chars = cs :=
  Lexeme.flatMap_chars_read h

/-! ## Reading piece by piece -/

/-- The text gives these lexemes, and then those of what follows it. -/
def Reads (cs : List Char) (tokens : List Lexeme) : Prop :=
  ∀ rest, lexemes (cs ++ rest) = (lexemes rest).map (tokens ++ ·)

theorem Reads.lexemes_eq {cs : List Char} {tokens : List Lexeme} (h : Reads cs tokens) :
    lexemes cs = some tokens := by
  have hread := h []
  rwa [List.append_nil, show lexemes [] = some [] from rfl, Option.map_some, List.append_nil]
    at hread

theorem reads_nil : Reads [] [] := by
  intro rest
  simp

theorem Reads.append {cs ds : List Char} {tokens others : List Lexeme} (hcs : Reads cs tokens)
    (hds : Reads ds others) : Reads (cs ++ ds) (tokens ++ others) := by
  intro rest
  rw [List.append_assoc, hcs, hds, Option.map_map]
  simp only [Function.comp_def, List.append_assoc]

/-- The characters at which a string or a comment may begin. -/
def openers : List Char := ['\'', '"', '/']

theorem reads_singleton {c : Char} (h : c ∉ openers) : Reads [c] [.plain c] := by
  simp only [openers, List.mem_cons, List.not_mem_nil, or_false, not_or] at h
  obtain ⟨hsingle, hdouble, hslash⟩ := h
  intro rest
  rw [List.singleton_append, lexemes, Lexeme.read]
  · simp [hsingle, hdouble, lexemes]
  · exact fun _ hc _ => hslash hc

/-- A line feed in front of a text is a lexeme of its own. -/
theorem lexemes_feed (cs : List Char) :
    lexemes ('\n' :: cs) = (lexemes cs).map (.plain '\n' :: ·) :=
  reads_singleton (by decide) cs

/-- A text in which no string or comment begins is its characters. -/
theorem reads_of_no_openers {cs : List Char} (h : ∀ c ∈ cs, c ∉ openers) :
    Reads cs (cs.map .plain) := by
  induction cs with
  | nil => exact reads_nil
  | cons c cs ih =>
    obtain ⟨hc, hcs⟩ := List.forall_mem_cons.1 h
    exact (reads_singleton hc).append (ih hcs)

/-! ## Strings -/

/-- What stands in a string with this quote, and does not end it. -/
def StaysIn (quote : Char) (cs : List Char) : Prop :=
  ∀ body rest, Lexeme.read (.inString quote body) (cs ++ rest) =
    Lexeme.read (.inString quote (body ++ cs)) rest

theorem staysIn_nil (quote : Char) : StaysIn quote [] := by
  intro body rest
  rw [List.nil_append, List.append_nil]

theorem StaysIn.append {quote : Char} {cs ds : List Char} (hcs : StaysIn quote cs)
    (hds : StaysIn quote ds) : StaysIn quote (cs ++ ds) := by
  intro body rest
  rw [List.append_assoc, hcs, hds, List.append_assoc]

/-- A text of parts that stay in a string stays in the string. -/
theorem StaysIn.flatMap {α : Type} {quote : Char} {f : α → List Char} {parts : List α}
    (h : ∀ part, StaysIn quote (f part)) : StaysIn quote (parts.flatMap f) := by
  induction parts with
  | nil => exact staysIn_nil quote
  | cons part rest ih =>
    rw [List.flatMap_cons]
    exact (h part).append ih

theorem staysIn_singleton {quote c : Char} (hquote : c ≠ quote) (hslash : c ≠ '\\') :
    StaysIn quote [c] := by
  intro body rest
  rw [List.singleton_append, Lexeme.read]
  · rw [if_neg hquote]
  · exact fun _ _ hc _ => hslash hc

theorem staysIn_escape (quote c : Char) : StaysIn quote ['\\', c] := fun _ _ => rfl

/-- A text between quotes is a string, if it stays between them. -/
theorem StaysIn.reads {quote : Char} (hquote : quote = '\'' ∨ quote = '"') {cs : List Char}
    (h : StaysIn quote cs) : Reads (quote :: cs ++ [quote]) [.quoted quote cs] := by
  intro rest
  have hne : quote ≠ '\\' := by rcases hquote with rfl | rfl <;> decide
  have hslash : quote ≠ '/' := by rcases hquote with rfl | rfl <;> decide
  have hclose : Lexeme.read (.inString quote cs) (quote :: rest) =
      (lexemes rest).map (.quoted quote cs :: ·) := by
    rw [Lexeme.read]
    · rw [if_pos rfl]
      rfl
    · exact fun _ _ hc _ => hne hc
  rw [List.append_assoc, List.cons_append, lexemes, Lexeme.read]
  · rw [if_pos hquote, h, List.nil_append, List.singleton_append, hclose]
    rfl
  · exact fun _ hc _ => hslash hc

end TypedRoutes.Text
