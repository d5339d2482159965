import TypedRoutes.PropertyKey
import TypedRoutes.Proofs.Text.Compositional

/-!
# Words for numbers that are not finite

`NaN` and `Infinity` are not literals but names of variables, so a type that holds one of them as a
word of its own is no type. `Text.nonFiniteWords` lists these words of a text, looking at nothing
inside strings.

A text whose strings are all ended adds its words to those of what follows
(`nonFiniteWords_append_dividers_append`), so the words of texts put together with brackets and
separators are those of their parts.
-/

set_option autoImplicit false

namespace TypedRoutes.Text

/-! ## Texts without what strings hold -/

/-- A text without what its strings hold; `inside` says whether it starts in a string. A string ends
at a quote, and a backslash makes the next character stand for itself. -/
def unquoted : (inside : Bool) → List Char → List Char
  | _, [] => []
  | false, c :: rest => c :: unquoted (c == '"') rest
  | true, '\\' :: _ :: rest => unquoted true rest
  | true, c :: rest => if c = '"' then '"' :: unquoted false rest else unquoted true rest

/-- Text without a quote is outside of strings as a whole. -/
theorem unquoted_of_no_quote {cs : List Char} (h : '"' ∉ cs) (rest : List Char) :
    unquoted false (cs ++ rest) = cs ++ unquoted false rest := by
  induction cs with
  | nil => rfl
  | cons c cs ih =>
    rw [List.mem_cons, not_or] at h
    have hc : (c == '"') = false := beq_eq_false_iff_ne.2 (Ne.symm h.1)
    rw [List.cons_append, unquoted, hc, ih h.2, List.cons_append]

theorem unquoted_eq_self {cs : List Char} (h : '"' ∉ cs) : unquoted false cs = cs := by
  have hcs := unquoted_of_no_quote h []
  rwa [unquoted, List.append_nil] at hcs

/-- What follows the text is outside its strings, as the text ends all that it opens. -/
def EndsStrings (cs : List Char) : Prop :=
  ∀ rest, unquoted false (cs ++ rest) = unquoted false cs ++ unquoted false rest

theorem endsStrings_of_no_quote {cs : List Char} (h : '"' ∉ cs) : EndsStrings cs := by
  intro rest
  rw [unquoted_of_no_quote h, unquoted_eq_self h]

theorem EndsStrings.append {cs ds : List Char} (hcs : EndsStrings cs) (hds : EndsStrings ds) :
    EndsStrings (cs ++ ds) := by
  intro rest
  rw [List.append_assoc, hcs, hds, hcs, List.append_assoc]

theorem Compositional.endsStrings : Compositional fun text => EndsStrings text.toList where
  plain h := endsStrings_of_no_quote fun hmem => h _ hmem (by decide)
  append hs ht := by
    rw [String.toList_append]
    exact hs.append ht
  bracketed bracket text h := by
    have hopening : EndsStrings [bracket.opening] :=
      endsStrings_of_no_quote (by cases bracket <;> decide)
    have hclosing : EndsStrings [bracket.closing] :=
      endsStrings_of_no_quote (by cases bracket <;> decide)
    rw [String.toList_ofList]
    exact (hopening.append h).append hclosing

/-! ## Words -/

/-- A character that stands between words. -/
def IsDivider (c : Char) : Prop := PropertyKey.isNameChar c = false ∧ c ≠ '"'

instance (c : Char) : Decidable (IsDivider c) := inferInstanceAs (Decidable (_ ∧ _))

/-- The words of a text outside its strings: what stands between the characters that names do not
have. -/
def words (cs : List Char) : List (List Char) :=
  (unquoted false cs).splitOnP fun c => !PropertyKey.isNameChar c

/-- The words of a text outside its strings that stand for a number that is not finite. -/
def nonFiniteWords (cs : List Char) : List String :=
  ((words cs).map String.ofList).filter fun word => word = "NaN" ∨ word = "Infinity"

example : nonFiniteWords "[NaN, -Infinity, \"NaN\\\" Infinity\", 1e5, Infinity1]".toList =
    ["NaN", "Infinity"] := by
  decide +kernel

section

variable {cs ds dividers : List Char}

/-- The words on both sides of a dividing character are found separately. -/
theorem words_append_cons (h : EndsStrings cs) {c : Char} (hc : IsDivider c) :
    words (cs ++ c :: ds) = words cs ++ words ds := by
  have hquote : (c == '"') = false := beq_eq_false_iff_ne.2 hc.2
  rw [words, h, unquoted, hquote, List.splitOnP_append_cons]
  · rfl
  · rw [hc.1, Bool.not_false]

theorem nonFiniteWords_append_cons (h : EndsStrings cs) {c : Char} (hc : IsDivider c) :
    nonFiniteWords (cs ++ c :: ds) = nonFiniteWords cs ++ nonFiniteWords ds := by
  rw [nonFiniteWords, words_append_cons h hc, List.map_append, List.filter_append]
  rfl

theorem nonFiniteWords_dividers_append (h : ∀ c ∈ dividers, IsDivider c) :
    nonFiniteWords (dividers ++ ds) = nonFiniteWords ds := by
  induction dividers with
  | nil => rfl
  | cons c dividers ih =>
    rw [List.forall_mem_cons] at h
    -- The divider ends a word that is empty.
    have hstart : nonFiniteWords ([] ++ c :: (dividers ++ ds)) =
        nonFiniteWords [] ++ nonFiniteWords (dividers ++ ds) :=
      nonFiniteWords_append_cons (fun _ => rfl) h.1
    rw [List.cons_append, ← List.nil_append (c :: _), hstart, ih h.2]
    rfl

/-- Texts with dividers between them have the words of both. -/
theorem nonFiniteWords_append_dividers_append (hcs : EndsStrings cs) (hne : dividers ≠ [])
    (h : ∀ c ∈ dividers, IsDivider c) :
    nonFiniteWords (cs ++ (dividers ++ ds)) = nonFiniteWords cs ++ nonFiniteWords ds := by
  obtain ⟨c, dividers, rfl⟩ := List.exists_cons_of_ne_nil hne
  rw [List.forall_mem_cons] at h
  rw [List.cons_append, nonFiniteWords_append_cons hcs h.1, nonFiniteWords_dividers_append h.2]

end

/-- A text between dividers has the words that it has without them. -/
theorem nonFiniteWords_enclosed {opening inner closing : String}
    (hopening : ∀ c ∈ opening.toList, IsDivider c) (hne : closing.toList ≠ [])
    (hclosing : ∀ c ∈ closing.toList, IsDivider c) (hinner : EndsStrings inner.toList) :
    nonFiniteWords (opening ++ inner ++ closing).toList = nonFiniteWords inner.toList := by
  rw [String.append_assoc, String.toList_append, String.toList_append,
    nonFiniteWords_dividers_append hopening, ← List.append_nil closing.toList,
    nonFiniteWords_append_dividers_append hinner hne hclosing]
  exact List.append_nil _

/-- Texts with a separator between them have the words of all of them. -/
theorem nonFiniteWords_intercalate {separator : String} {parts : List String}
    (hne : separator.toList ≠ []) (h : ∀ c ∈ separator.toList, IsDivider c)
    (hparts : ∀ part ∈ parts, EndsStrings part.toList) :
    nonFiniteWords (separator.intercalate parts).toList =
      parts.flatMap fun part => nonFiniteWords part.toList := by
  induction parts with
  | nil => rfl
  | cons part rest ih =>
    obtain ⟨hpart, hrest⟩ := List.forall_mem_cons.1 hparts
    cases rest with
    | nil => rw [String.intercalate_singleton, List.flatMap_singleton]
    | cons next rest =>
      rw [String.intercalate_cons_cons, String.append_assoc, String.toList_append,
        String.toList_append, nonFiniteWords_append_dividers_append hpart hne h, ih hrest,
        List.flatMap_cons (x := part)]

/-! ## Texts without such words -/

/-- The parts of a list between certain elements have elements of the list only. -/
theorem mem_of_mem_splitOnP {α : Type} {p : α → Bool} {xs part : List α}
    (h : part ∈ xs.splitOnP p) : ∀ x ∈ part, x ∈ xs := by
  induction xs generalizing part with
  | nil =>
    obtain rfl := List.mem_singleton.1 h
    exact nofun
  | cons y ys ih =>
    rw [List.splitOnP_cons_eq_if_modifyHead] at h
    split at h
    · rcases List.mem_cons.1 h with rfl | h
      · exact nofun
      · exact fun x hx => List.mem_cons_of_mem y (ih h x hx)
    -- The element belongs to the first part of the rest.
    · obtain ⟨first, others, hparts⟩ := List.exists_cons_of_ne_nil (List.splitOnP_ne_nil p ys)
      rw [hparts] at h ih
      rw [List.modifyHead_cons] at h
      rcases List.mem_cons.1 h with rfl | h
      · intro x hx
        rcases List.mem_cons.1 hx with rfl | hx
        · exact List.mem_cons_self
        · exact List.mem_cons_of_mem y (ih List.mem_cons_self x hx)
      · exact fun x hx => List.mem_cons_of_mem y (ih (List.mem_cons_of_mem first h) x hx)

/-- The first letters of the words have to occur. -/
theorem nonFiniteWords_eq_nil {cs : List Char} (hquote : '"' ∉ cs) (hnan : 'N' ∉ cs)
    (hinfinity : 'I' ∉ cs) : nonFiniteWords cs = [] := by
  rw [nonFiniteWords, List.filter_eq_nil_iff]
  intro text htext
  obtain ⟨word, hword, rfl⟩ := List.mem_map.1 htext
  rw [words, unquoted_eq_self hquote] at hword
  have hmem : ∀ c ∈ (String.ofList word).toList, c ∈ cs := by
    rw [String.toList_ofList]
    exact mem_of_mem_splitOnP hword
  rw [decide_eq_true_iff, not_or]
  constructor
  · intro heq
    rw [heq] at hmem
    exact hnan (hmem 'N' (by decide))
  · intro heq
    rw [heq] at hmem
    exact hinfinity (hmem 'I' (by decide))

end TypedRoutes.Text
