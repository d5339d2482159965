import Mathlib.Data.List.Basic
import TypedRoutes.Text.Newline

/-!
# Texts with the same lines

Two texts have the same lines if they differ only in how their lines end (`SameLines`). They begin
alike (`SameLines.heads`): with the same character, or both with the end of a line. So what is read
from one up to some character that ends no line is read from the other, and what is left has the
same lines again.
-/

set_option autoImplicit false

namespace TypedRoutes.Text

/-- The characters that end lines. -/
def isNewline (c : Char) : Bool := c = '\n' || c = '\r'

/-- The texts become one text when all lines are made to end in the same way. -/
def SameLines (a b : List Char) : Prop := unifyNewlines a = unifyNewlines b

theorem SameLines.symm {a b : List Char} (h : SameLines a b) : SameLines b a := Eq.symm h

theorem isNewline_iff {c : Char} : isNewline c = true ↔ c = '\n' ∨ c = '\r' := by
  simp [isNewline]

/-- A character ends no line if it has a property that the two that do have not. -/
theorem isNewline_eq_false {P : Char → Prop} (hlineFeed : ¬ P '\n') (hreturn : ¬ P '\r') {c : Char}
    (h : P c) : isNewline c = false := by
  rw [← Bool.not_eq_true, isNewline_iff]
  rintro (rfl | rfl)
  · exact hlineFeed h
  · exact hreturn h

/-- A character that is no line end is kept. -/
theorem unifyNewlines_cons {c : Char} (h : isNewline c = false) (cs : List Char) :
    unifyNewlines (c :: cs) = c :: unifyNewlines cs := by
  rw [unifyNewlines]
  · rintro rest rfl
    cases h
  · rintro rfl
    cases h

/-- What begins with the end of a line begins with a line feed when line ends are unified. -/
theorem exists_unifyNewlines_cons {c : Char} (h : isNewline c = true) (cs : List Char) :
    ∃ rest, unifyNewlines (c :: cs) = '\n' :: rest := by
  rcases isNewline_iff.1 h with rfl | rfl
  · exact ⟨_, by rw [unifyNewlines] <;> simp⟩
  · cases cs with
    | nil => exact ⟨_, rfl⟩
    | cons d rest =>
      by_cases hd : d = '\n'
      · subst hd
        exact ⟨_, rfl⟩
      · exact ⟨_, by rw [unifyNewlines]; simpa using hd⟩

/-- Unifying line ends once is enough. -/
theorem sameLines_unifyNewlines (cs : List Char) : SameLines (unifyNewlines cs) cs := by
  have hlineFeed (rest : List Char) :
      unifyNewlines ('\n' :: rest) = '\n' :: unifyNewlines rest := by
    rw [unifyNewlines] <;> simp
  unfold SameLines
  fun_induction unifyNewlines cs with
  | case1 rest ih => rw [hlineFeed, ih]
  | case2 rest _ ih => rw [hlineFeed, ih]
  | case3 c rest hpair hreturn ih =>
    by_cases hc : c = '\n'
    · rw [hc, hlineFeed, ih]
    · have hplain : isNewline c = false := by
        have hne : c ≠ '\r' := hreturn
        simp [isNewline, hc, hne]
      rw [unifyNewlines_cons hplain, ih]
  | case4 => rfl

/-- How two texts begin alike. -/
inductive HeadsAlike : List Char → List Char → Prop
  | nil : HeadsAlike [] []
  | cons {c : Char} {a b : List Char} :
      isNewline c = false → SameLines a b → HeadsAlike (c :: a) (c :: b)
  | newline {c d : Char} {a b : List Char} :
      isNewline c = true → isNewline d = true → HeadsAlike (c :: a) (d :: b)

theorem unifyNewlines_ne_nil (c : Char) (cs : List Char) : unifyNewlines (c :: cs) ≠ [] := by
  cases h : isNewline c with
  | false =>
    rw [unifyNewlines_cons h]
    exact List.cons_ne_nil _ _
  | true =>
    obtain ⟨rest, hrest⟩ := exists_unifyNewlines_cons h cs
    rw [hrest]
    exact List.cons_ne_nil _ _

/-- A character that ends no line is not where a line ends. -/
theorem isNewline_of_sameLines {c d : Char} {a b : List Char} (h : SameLines (c :: a) (d :: b))
    (hc : isNewline c = true) : isNewline d = true := by
  cases hd : isNewline d with
  | true => rfl
  | false =>
    obtain ⟨rest, hrest⟩ := exists_unifyNewlines_cons hc a
    rw [SameLines, hrest, unifyNewlines_cons hd] at h
    obtain rfl := (List.cons.inj h).1
    cases hd

/-- Texts with the same lines begin alike: both with a line end, or both with the same character. -/
theorem SameLines.heads {a b : List Char} (h : SameLines a b) : HeadsAlike a b := by
  cases a with
  | nil =>
    cases b with
    | nil => exact .nil
    | cons d b => exact absurd h.symm (unifyNewlines_ne_nil d b)
  | cons c a =>
    cases b with
    | nil => exact absurd h (unifyNewlines_ne_nil c a)
    | cons d b =>
      cases hc : isNewline c with
      | true => exact .newline hc (isNewline_of_sameLines h hc)
      | false =>
        cases hd : isNewline d with
        | true =>
          rw [isNewline_of_sameLines h.symm hd] at hc
          cases hc
        | false =>
          rw [SameLines, unifyNewlines_cons hc, unifyNewlines_cons hd] at h
          obtain ⟨rfl, hrest⟩ := List.cons.inj h
          exact .cons hc hrest

/-! ## Reading both -/

variable {a b : List Char}

/-- What begins with a character that ends no line has the same lines as what begins with it. -/
theorem SameLines.exists_cons {c : Char} (hc : isNewline c = false) (h : SameLines (c :: a) b) :
    ∃ b', b = c :: b' ∧ SameLines a b' := by
  cases h.heads with
  | cons _ hrest => exact ⟨_, rfl, hrest⟩
  | newline hc' _ =>
    rw [hc] at hc'
    cases hc'

/-- If one text begins with a character that ends no line, both do. -/
theorem SameLines.head?_eq_some_iff {c : Char} (hc : isNewline c = false) (h : SameLines a b) :
    a.head? = some c ↔ b.head? = some c := by
  cases h.heads with
  | nil => rfl
  | cons _ _ => rfl
  | newline hd he =>
    constructor
    · intro heq
      rw [Option.some.inj heq, hc] at hd
      cases hd
    · intro heq
      rw [Option.some.inj heq, hc] at he
      cases he

/-- A character that ends no line stands in front of both texts or of neither. -/
theorem SameLines.cons_or_head?_ne (c : Char) (hc : isNewline c = false) (h : SameLines a b) :
    (∃ a' b', a = c :: a' ∧ b = c :: b' ∧ SameLines a' b') ∨
      a.head? ≠ some c ∧ b.head? ≠ some c := by
  by_cases hhead : a.head? = some c
  · obtain ⟨a', rfl⟩ := List.head?_eq_some_iff.1 hhead
    obtain ⟨b', rfl, hrest⟩ := h.exists_cons hc
    exact .inl ⟨a', b', rfl, rfl, hrest⟩
  · exact .inr ⟨hhead, mt (h.head?_eq_some_iff hc).2 hhead⟩

theorem SameLines.eq_nil (h : SameLines [] b) : b = [] := by
  cases h.heads
  rfl

/-- A word without line ends stands in front of every text with the same lines. -/
theorem SameLines.exists_append (word : List Char) (hword : ∀ c ∈ word, isNewline c = false)
    (h : SameLines (word ++ a) b) : ∃ b', b = word ++ b' ∧ SameLines a b' := by
  induction word generalizing b with
  | nil => exact ⟨b, rfl, h⟩
  | cons c word ih =>
    obtain ⟨hc, hword⟩ := List.forall_mem_cons.1 hword
    obtain ⟨b', rfl, h'⟩ := h.exists_cons hc
    obtain ⟨rest, rfl, hrest⟩ := ih hword h'
    exact ⟨rest, rfl, hrest⟩

/-- A run of characters that end no line is the same in both, and so are the lines behind it. -/
theorem SameLines.takeWhile_dropWhile {p : Char → Bool} (hp : ∀ c, isNewline c = true → p c = false)
    (h : SameLines a b) :
    a.takeWhile p = b.takeWhile p ∧ SameLines (a.dropWhile p) (b.dropWhile p) := by
  induction a generalizing b with
  | nil =>
    obtain rfl := h.eq_nil
    exact ⟨rfl, rfl⟩
  | cons c a ih =>
    cases h.heads with
    | @cons _ _ b _ hrest =>
      obtain ⟨htake, hdrop⟩ := ih hrest
      cases hpc : p c with
      | true => simpa [hpc] using ⟨htake, hdrop⟩
      | false => simpa [hpc] using h
    | newline hc hd => simpa [hp _ hc, hp _ hd] using h

/-- Blanks that may end lines are left out of both. -/
theorem SameLines.dropWhile_blanks {p : Char → Bool} (hp : ∀ c, isNewline c = true → p c = true)
    (h : SameLines a b) : SameLines (a.dropWhile p) (b.dropWhile p) := by
  have hdrop (cs : List Char) :
      unifyNewlines (cs.dropWhile p) = (unifyNewlines cs).dropWhile p := by
    fun_induction unifyNewlines cs with
    | case1 rest ih => simpa [hp '\r' rfl, hp '\n' rfl] using ih
    | case2 rest hpair ih => simpa [hp '\r' rfl, hp '\n' rfl] using ih
    | case3 c rest hpair hreturn ih =>
      cases hpc : p c with
      | true => simpa [hpc] using ih
      | false =>
        have hplain : isNewline c = false := by
          rw [← Bool.not_eq_true]
          intro hc
          rw [hp c hc] at hpc
          cases hpc
        simpa [hpc] using unifyNewlines_cons hplain rest
    | case4 => rfl
  rw [SameLines, hdrop, hdrop, h]

/-- What ends the text with unified line ends has the same lines as something that ends the text. -/
theorem exists_sameLines_of_suffix {cs last : List Char} (h : last <:+ unifyNewlines cs) :
    ∃ left, left <:+ cs ∧ SameLines last left := by
  have hwhole (cs : List Char) : ∃ left, left <:+ cs ∧ SameLines (unifyNewlines cs) left :=
    ⟨cs, List.suffix_rfl, sameLines_unifyNewlines cs⟩
  have hbehind (front : List Char) {c : Char} {rest : List Char}
      (hfront : unifyNewlines (front ++ rest) = c :: unifyNewlines rest)
      (ih : last <:+ unifyNewlines rest → ∃ left, left <:+ rest ∧ SameLines last left)
      (h : last <:+ c :: unifyNewlines rest) :
      ∃ left, left <:+ front ++ rest ∧ SameLines last left := by
    rcases List.suffix_cons_iff.1 h with rfl | hlast
    · exact hfront ▸ hwhole (front ++ rest)
    · obtain ⟨left, hleft, hsame⟩ := ih hlast
      exact ⟨left, hleft.trans (List.suffix_append front rest), hsame⟩
  fun_induction unifyNewlines cs with
  | case1 rest ih => exact hbehind ['\r', '\n'] rfl ih h
  | case2 rest hpair ih => exact hbehind ['\r'] (unifyNewlines.eq_2 rest hpair) ih h
  | case3 c rest hpair hreturn ih =>
    exact hbehind [c] (unifyNewlines.eq_3 c rest hpair hreturn) ih h
  | case4 =>
    obtain rfl := List.suffix_nil.1 h
    exact hwhole []

/-- A word that ends no line stands in the text if it does once line ends are unified. -/
theorem infix_of_infix_unifyNewlines {word cs : List Char}
    (hword : ∀ c ∈ word, isNewline c = false) (h : word <:+: unifyNewlines cs) : word <:+: cs := by
  obtain ⟨before, after, hcs⟩ := h
  have hlast : word ++ after <:+ unifyNewlines cs := ⟨before, by rw [← hcs, List.append_assoc]⟩
  obtain ⟨left, hleft, hsame⟩ := exists_sameLines_of_suffix hlast
  obtain ⟨rest, rfl, -⟩ := hsame.exists_append word hword
  exact (List.prefix_append word rest).isInfix.trans hleft.isInfix

/-- There are as many characters of a kind that ends no line once line ends are unified. -/
theorem countP_unifyNewlines {p : Char → Bool} (hlineFeed : p '\n' ≠ true)
    (hreturn : p '\r' ≠ true) (cs : List Char) : (unifyNewlines cs).countP p = cs.countP p := by
  fun_induction unifyNewlines cs with
  | case1 rest ih =>
    rw [List.countP_cons_of_neg hlineFeed, List.countP_cons_of_neg hreturn,
      List.countP_cons_of_neg hlineFeed, ih]
  | case2 rest _ ih => rw [List.countP_cons_of_neg hlineFeed, List.countP_cons_of_neg hreturn, ih]
  | case3 c rest _ _ ih => rw [List.countP_cons, List.countP_cons, ih]
  | case4 => rfl

end TypedRoutes.Text
