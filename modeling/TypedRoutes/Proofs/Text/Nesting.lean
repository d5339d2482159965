import TypedRoutes.Proofs.Text.Compositional
import TypedRoutes.Proofs.Text.Run

/-!
# Blocks of lines

A line that ends in an opening brace begins a block, and a line of padding and a closing brace ends
the innermost block that is open. A text is aligned if every line that ends a block has the column
of the line that began it, and no block stays open (`Aligned`). Its blocks may stand at any columns;
a text that is the same but for more padding before each line is indented (`IndentedBy`).
-/

set_option autoImplicit false

namespace TypedRoutes.Text

/-- The column at which a line begins: the length of its padding. -/
def column (line : List Char) : Nat := (line.takeWhile (· = ' ')).length

/-- The line begins a block. -/
def OpensBlock (line : List Char) : Prop := line.getLast? = some '\x7b'

/-- The line ends a block. -/
def ClosesBlock (line : List Char) : Prop := line.dropWhile (· = ' ') = ['\x7d']

instance (line : List Char) : Decidable (OpensBlock line) := inferInstanceAs (Decidable (_ = _))

instance (line : List Char) : Decidable (ClosesBlock line) := inferInstanceAs (Decidable (_ = _))

/-- Ends the innermost open block, which has to have begun at the column. -/
def endBlock (column : Nat) : List Nat → Option (List Nat)
  | innermost :: outer => if innermost = column then some outer else none
  | [] => none

/-- Reads a line, with the columns of the blocks that are open, the innermost first. -/
def nest (columns : List Nat) (line : List Char) : Option (List Nat) :=
  if ClosesBlock line then endBlock (column line) columns
  else if OpensBlock line then some (column line :: columns)
  else some columns

/-- Every block of the text ends at the column at which it begins. -/
def Aligned (text : String) : Prop := (text.toList.splitOn '\n').foldlM nest [] = some []

instance (text : String) : Decidable (Aligned text) := inferInstanceAs (Decidable (_ = _))

/-- The texts have the same lines, but for so many blanks more before each line of the second. -/
def IndentedBy (blanks : Nat) (text indented : String) : Prop :=
  indented.toList.splitOn '\n' =
    (text.toList.splitOn '\n').map (List.replicate blanks ' ' ++ ·)

/-! ## Lines after their padding -/

/-- The text begins, and neither with a blank nor with a closing brace. -/
def IsEntry (body : String) : Prop := ∃ c rest, body.toList = c :: rest ∧ c ≠ ' ' ∧ c ≠ '\x7d'

theorem IsEntry.append {body : String} (h : IsEntry body) (text : String) :
    IsEntry (body ++ text) := by
  obtain ⟨c, rest, heq, hblank, hbrace⟩ := h
  exact ⟨c, rest ++ text.toList, by simp [heq], hblank, hbrace⟩

theorem IsEntry.stops {body : String} (h : IsEntry body) : Stops (· = ' ') body.toList := by
  obtain ⟨c, rest, heq, hblank, -⟩ := h
  exact heq ▸ stops_cons.2 (decide_eq_false hblank)

theorem opensBlock_append {a b : List Char} :
    OpensBlock (a ++ b) ↔ OpensBlock b ∨ b = [] ∧ OpensBlock a := by
  by_cases hb : b = []
  · simp [hb, OpensBlock]
  · simp [hb, OpensBlock]

/-- A text begins no block if what it ends in does not. -/
theorem not_opensBlock_append {s t : String} (hne : t ≠ "") (ht : ¬ OpensBlock t.toList) :
    ¬ OpensBlock (s ++ t).toList := by
  rw [String.toList_append, opensBlock_append]
  rintro (hopens | ⟨hnil, -⟩)
  · exact ht hopens
  · exact hne (String.toList_eq_nil_iff.1 hnil)

section

variable (pad : Nat) (columns : List Nat)

theorem forall_mem_replicate_blank : ∀ c ∈ List.replicate pad ' ', decide (c = ' ') = true :=
  fun _ hc => decide_eq_true (List.eq_of_mem_replicate hc)

/-- The column of a line is the number of blanks in front of it, when its body begins with no
blank. -/
theorem column_replicate_append {body : List Char} (h : Stops (· = ' ') body) :
    column (List.replicate pad ' ' ++ body) = pad := by
  rw [column, takeWhile_append_stops (forall_mem_replicate_blank pad) h, List.length_replicate]

/-- A line closes a block exactly when its body is the closing brace, whatever its padding. -/
theorem closesBlock_replicate_append {body : List Char} (h : Stops (· = ' ') body) :
    ClosesBlock (List.replicate pad ' ' ++ body) ↔ body = ['\x7d'] := by
  rw [ClosesBlock, dropWhile_append_stops (forall_mem_replicate_blank pad) h]

/-- A line that ends a block closes the innermost one, if that has its column. -/
theorem nest_closing :
    nest (pad :: columns) (List.replicate pad ' ' ++ ['\x7d']) = some columns := by
  have hstops : Stops (· = ' ') ['\x7d'] := stops_cons.2 (by decide)
  rw [nest, if_pos ((closesBlock_replicate_append pad hstops).2 rfl),
    column_replicate_append pad hstops]
  exact if_pos rfl

/-- Another line begins a block at its column, or changes nothing. -/
theorem nest_entry {body : String} (h : IsEntry body) :
    nest columns (List.replicate pad ' ' ++ body.toList) =
      some (if OpensBlock body.toList then pad :: columns else columns) := by
  obtain ⟨c, rest, heq, -, hbrace⟩ := id h
  have hcloses : ¬ ClosesBlock (List.replicate pad ' ' ++ body.toList) := by
    rw [closesBlock_replicate_append pad h.stops, heq]
    exact fun hbody => hbrace (List.cons.inj hbody).1
  have hopens : OpensBlock (List.replicate pad ' ' ++ body.toList) ↔ OpensBlock body.toList := by
    simp [opensBlock_append, heq]
  rw [nest, if_neg hcloses, column_replicate_append pad h.stops]
  simp only [hopens]
  split <;> rfl

end

/-! ## Texts that begin no block -/

/-- What is put together from plain characters and brackets does not end in an opening brace. -/
theorem Compositional.not_opensBlock : Compositional fun text => ¬ OpensBlock text.toList where
  plain := by
    intro text h hopens
    exact absurd (h _ (List.mem_of_getLast? hopens)) (by decide)
  append hs ht := by
    rw [String.toList_append, opensBlock_append]
    rintro (hopens | ⟨-, hopens⟩)
    · exact ht hopens
    · exact hs hopens
  bracketed bracket text h := by
    rw [String.toList_ofList, OpensBlock, List.getLast?_concat]
    cases bracket <;> decide

end TypedRoutes.Text
