import TypedRoutes.Proofs.Text.Line
import TypedRoutes.Proofs.Text.Scanner

/-!
# Properties of texts that are put together

A property of texts is compositional if appending keeps it, brackets around a text keep it, and
every text of plain characters has it (`Compositional`). That a text is one line is such a property,
and that a text passes the scanner is another. What the texts of the client have to say about either
is then said once, for any compositional property.
-/

set_option autoImplicit false

namespace TypedRoutes.Text

/-- A character that ends no line, opens no string or comment, and is no bracket. -/
def IsPlain (c : Char) : Prop := c ∉ '\n' :: Scanner.marks

instance (c : Char) : Decidable (IsPlain c) := inferInstanceAs (Decidable (c ∉ _))

/-- What holds of the characters of a list is decided on the list, not on all characters there
are. -/
instance decidableForallMem {p : Char → Prop} [DecidablePred p] (cs : List Char) :
    Decidable (∀ c ∈ cs, p c) :=
  List.decidableBAll p cs

/-- A property that texts have if their parts have it. -/
structure Compositional (P : String → Prop) : Prop where
  plain : ∀ {text : String}, (∀ c ∈ text.toList, IsPlain c) → P text
  append : ∀ {s t : String}, P s → P t → P (s ++ t)
  bracketed : ∀ (bracket : Bracket) {text : String}, P text →
    P (String.ofList (bracket.opening :: text.toList ++ [bracket.closing]))

namespace Compositional

theorem isLine : Compositional IsLine where
  plain h := fun hmem => h _ hmem List.mem_cons_self
  append hs ht := isLine_append.2 ⟨hs, ht⟩
  bracketed bracket text h := by
    have hopening : '\n' ≠ bracket.opening := by cases bracket <;> decide
    have hclosing : '\n' ≠ bracket.closing := by cases bracket <;> decide
    rw [isLine_ofList, List.cons_append, List.mem_cons, List.mem_append, List.mem_singleton]
    exact not_or.2 ⟨hopening, not_or.2 ⟨h, hclosing⟩⟩

theorem passes : Compositional Passes where
  plain h := passes_of_no_marks fun c hc hmark => h c hc (List.mem_cons_of_mem _ hmark)
  append hs ht := hs.append ht
  bracketed bracket _ h := h.bracketed bracket

variable {P : String → Prop} (hP : Compositional P)

include hP

theorem empty : P "" := hP.plain nofun

/-- A property of the parts and of the text between them is a property of the joined text. -/
theorem intercalate {separator : String} {parts : List String} (h : P separator)
    (hparts : ∀ part ∈ parts, P part) : P (separator.intercalate parts) := by
  induction parts with
  | nil => exact hP.empty
  | cons part rest ih =>
    obtain ⟨hpart, hrest⟩ := List.forall_mem_cons.1 hparts
    cases rest with
    | nil => simpa using hpart
    | cons next rest =>
      rw [String.intercalate_cons_cons]
      exact hP.append (hP.append hpart h) (ih hrest)

/-- A text between brackets that have plain characters inside. -/
theorem enclosed (bracket : Bracket) (before after : List Char) {opening inner closing : String}
    (hopening : opening.toList = bracket.opening :: before)
    (hclosing : closing.toList = after ++ [bracket.closing])
    (hbefore : ∀ c ∈ before, IsPlain c) (hafter : ∀ c ∈ after, IsPlain c) (hinner : P inner) :
    P (opening ++ inner ++ closing) := by
  have hbefore : P (String.ofList before) := hP.plain (by rwa [String.toList_ofList])
  have hafter : P (String.ofList after) := hP.plain (by rwa [String.toList_ofList])
  have hbody := hP.bracketed bracket (hP.append (hP.append hbefore hinner) hafter)
  have heq : opening ++ inner ++ closing = String.ofList (bracket.opening ::
      (String.ofList before ++ inner ++ String.ofList after).toList ++ [bracket.closing]) := by
    apply String.toList_injective
    simp [hopening, hclosing]
  rwa [heq]

end Compositional

end TypedRoutes.Text
