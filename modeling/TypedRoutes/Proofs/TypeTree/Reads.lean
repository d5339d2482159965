import TypedRoutes.Proofs.Json.ReadBack
import TypedRoutes.Proofs.TypeTree.Reader
import TypedRoutes.Schema.TypeText

/-!
# Texts that are read as types

`UnitReads` and `PhraseReads` say that a text is read as an operand or as a phrase wherever it
stands. Texts joined by `|` are read as their phrases one after another (`phraseReads_flatten`),
texts joined by `&` as their phrases glued together (`phraseReads_glueAll`), and the mark of an
array goes to the last operand of a phrase (`PhraseReads.arrayed`). A text that is read as a phrase
is read as its tree (`read_of_phraseReads`).
-/

set_option autoImplicit false

namespace TypedRoutes.TypeTree

open Json.Reader (after? after?_append)
open Reader (suffixes unit phrase entries words word? optionalMark)

/-! ## What follows -/

/-- What may follow a type: nothing, the end of a record, or what follows a field. -/
inductive PhraseEnd : List Char → Prop
  | nil : PhraseEnd []
  | record (rest : List Char) : PhraseEnd ('>' :: rest)
  | field (rest : List Char) : PhraseEnd (';' :: ' ' :: rest)
  | object (rest : List Char) : PhraseEnd (' ' :: '\x7d' :: rest)

variable {rest : List Char}

theorem PhraseEnd.numeralEnd (h : PhraseEnd rest) : NumeralEnd rest := by
  cases h with
  | nil => exact Text.stops_nil
  | _ => exact Json.numeralEnd_cons (by decide)

/-- No brackets of an array follow the end of a phrase. -/
theorem PhraseEnd.suffixes_eq (h : PhraseEnd rest) (t : TypeTree) :
    suffixes t rest = (t, rest) := by
  cases h <;> rfl

theorem PhraseEnd.after?_or (h : PhraseEnd rest) : after? " | " rest = none := by
  cases h <;> rfl

theorem PhraseEnd.after?_and (h : PhraseEnd rest) : after? " & " rest = none := by
  cases h <;> rfl

/-! ## Operands and phrases -/

/-- The text is read as the operand, and what follows as more array marks of it. -/
structure UnitReads (t : TypeTree) (text : List Char) : Prop where
  isUnit : t.IsUnit
  ne_nil : text ≠ []
  reads : ∀ (depth : Nat) (rest : List Char), NumeralEnd rest → 2 * text.length ≤ depth →
    ((unit depth (text ++ rest)).map fun reading => suffixes reading.1 reading.2) =
      some (suffixes t rest)

/-- The text is read as the phrase. -/
inductive PhraseReads : Phrase → List Char → Prop
  | unit {t : TypeTree} {text : List Char} (h : UnitReads t text) : PhraseReads [[t]] text
  | or {t : TypeTree} {p : Phrase} {text others : List Char} (h : UnitReads t text)
      (hothers : PhraseReads p others) :
      PhraseReads ([t] :: p) (text ++ " | ".toList ++ others)
  | and {t : TypeTree} {p : Phrase} {text others : List Char} (h : UnitReads t text)
      (hothers : PhraseReads p others) :
      PhraseReads (Phrase.joinUnit t p) (text ++ " & ".toList ++ others)

variable {p q : Phrase} {text others : List Char}

theorem PhraseReads.proper (h : PhraseReads p text) : p.Proper := by
  induction h with
  | unit h => exact .singleton h.isUnit
  | or h _ ih => exact .append (.singleton h.isUnit) ih
  | and h _ ih => exact .joinUnit h.isUnit ih

/-- One step of the reader: an operand and what follows it. -/
theorem phrase_succ {t : TypeTree} (h : UnitReads t text) {depth : Nat} (hend : NumeralEnd rest)
    (hdepth : 2 * text.length ≤ depth) (hsuffixes : suffixes t rest = (t, rest)) :
    phrase (depth + 1) (text ++ rest) =
      match after? " | " rest with
      | some rest => (phrase depth rest).map fun (others, left) => ([t] :: others, left)
      | none =>
        match after? " & " rest with
        | some rest =>
          (phrase depth rest).map fun (others, left) => (Phrase.joinUnit t others, left)
        | none => some ([[t]], rest) := by
  have hreads := h.reads depth rest hend hdepth
  -- No array mark follows, so the operand is read as it stands.
  obtain ⟨⟨first, left⟩, hunit, hleft⟩ := Option.map_eq_some_iff.1 hreads
  rw [hsuffixes] at hleft
  rw [phrase, hunit]
  simp only [Option.bind_eq_bind, Option.bind_some, hleft]
  cases after? " | " rest with
  | some rest' =>
    dsimp only
    cases phrase depth rest' with
    | none => rfl
    | some reading => rfl
  | none =>
    cases after? " & " rest with
    | none => rfl
    | some rest' =>
      dsimp only
      cases phrase depth rest' with
      | none => rfl
      | some reading => rfl

/-- A text that is read as a phrase is read up to its end. -/
theorem PhraseReads.read (h : PhraseReads p text) : ∀ {depth : Nat} {rest : List Char},
    PhraseEnd rest → 2 * text.length + 1 ≤ depth →
      phrase depth (text ++ rest) = some (p, rest) := by
  induction h with
  | unit h =>
    intro depth rest hend hdepth
    obtain ⟨d, rfl⟩ := Nat.exists_eq_add_of_le' (show 1 ≤ depth by omega)
    rw [phrase_succ h hend.numeralEnd (by omega) (hend.suffixes_eq _), hend.after?_or,
      hend.after?_and]
  | @or t p text others h _ ih =>
    intro depth rest hend hdepth
    simp only [List.length_append] at hdepth
    obtain ⟨d, rfl⟩ := Nat.exists_eq_add_of_le' (show 1 ≤ depth by omega)
    -- The operator ends the operand, and the rest is read one level deeper.
    have hfollow := after?_append " | " (others ++ rest)
    have hnumeral : NumeralEnd (" | ".toList ++ (others ++ rest)) :=
      Json.numeralEnd_cons (c := ' ') (by decide)
    rw [List.append_assoc, List.append_assoc, phrase_succ h hnumeral (by omega) rfl, hfollow]
    dsimp only
    rw [ih hend (by have hlength : " | ".toList.length = 3 := rfl; omega)]
    rfl
  | @and t p text others h _ ih =>
    intro depth rest hend hdepth
    simp only [List.length_append] at hdepth
    obtain ⟨d, rfl⟩ := Nat.exists_eq_add_of_le' (show 1 ≤ depth by omega)
    have hfollow := after?_append " & " (others ++ rest)
    -- The reader looks for an `|` first and does not find it.
    have hor : after? " | " (" & ".toList ++ (others ++ rest)) = none := rfl
    have hnumeral : NumeralEnd (" & ".toList ++ (others ++ rest)) :=
      Json.numeralEnd_cons (c := ' ') (by decide)
    rw [List.append_assoc, List.append_assoc, phrase_succ h hnumeral (by omega) rfl, hor]
    dsimp only
    rw [hfollow]
    dsimp only
    rw [ih hend (by have hlength : " & ".toList.length = 3 := rfl; omega)]
    rfl

/-! ## Phrases put together -/

/-- A phrase in front of a bar and another phrase is read as their alternatives. -/
theorem PhraseReads.append (h : PhraseReads p text) (hq : PhraseReads q others) :
    PhraseReads (p ++ q) (text ++ " | ".toList ++ others) := by
  induction h with
  | unit h => exact .or h hq
  | or h _ ih =>
    rw [List.append_assoc, List.append_assoc, ← List.append_assoc _ " | ".toList]
    exact .or h ih
  | @and t p text rest h hrest ih =>
    -- The operand joins the first group, which is not touched by what is appended.
    have hjoin : Phrase.joinUnit t p ++ q = Phrase.joinUnit t (p ++ q) := by
      cases p with
      | nil => exact absurd rfl hrest.proper.ne_nil
      | cons group p => rfl
    rw [hjoin, List.append_assoc, List.append_assoc, ← List.append_assoc _ " | ".toList]
    exact .and h ih

theorem glue_joinUnit (t : TypeTree) (hp : p ≠ []) (q : Phrase) :
    Phrase.glue (Phrase.joinUnit t p) q = Phrase.joinUnit t (Phrase.glue p q) := by
  match p with
  | [group] => rfl
  | group :: next :: rest => rfl

/-- A phrase in front of an ampersand and another phrase is read as both glued together. -/
theorem PhraseReads.glue (h : PhraseReads p text) (hq : PhraseReads q others) :
    PhraseReads (Phrase.glue p q) (text ++ " & ".toList ++ others) := by
  induction h with
  | unit h => exact .and h hq
  | @or t p text rest h hrest ih =>
    have hglue : Phrase.glue ([t] :: p) q = [t] :: Phrase.glue p q := by
      cases p with
      | nil => exact absurd rfl hrest.proper.ne_nil
      | cons group p => rfl
    rw [hglue, List.append_assoc, List.append_assoc, ← List.append_assoc _ " & ".toList]
    exact .or h ih
  | and h hrest ih =>
    rw [glue_joinUnit _ hrest.proper.ne_nil, List.append_assoc, List.append_assoc,
      ← List.append_assoc _ " & ".toList]
    exact .and h ih

/-- An array mark after an operand makes an array of it. -/
theorem UnitReads.array {t : TypeTree} (h : UnitReads t text) :
    UnitReads (.array t) (text ++ "[]".toList) := by
  refine ⟨Phrase.isUnit_array t, by simp [h.ne_nil], ?_⟩
  intro depth rest _ hdepth
  rw [List.length_append] at hdepth
  have hnumeral : NumeralEnd ("[]".toList ++ rest) := Json.numeralEnd_cons (c := '[') (by decide)
  rw [List.append_assoc, h.reads depth _ hnumeral (by omega)]
  rfl

theorem arrayed_joinUnit (t : TypeTree) (hp : p.Proper) :
    Phrase.arrayed (Phrase.joinUnit t p) = Phrase.joinUnit t (Phrase.arrayed p) := by
  match p, hp with
  | [group], hp =>
    cases group with
    | nil => exact absurd rfl (hp.groups [] (by simp)).1
    | cons u group => rfl
  | group :: next :: rest, _ => rfl

/-- An array mark after a phrase goes to its last operand. -/
theorem PhraseReads.arrayed (h : PhraseReads p text) :
    PhraseReads (Phrase.arrayed p) (text ++ "[]".toList) := by
  induction h with
  | unit h => exact .unit h.array
  | @or t p text rest h hrest ih =>
    -- The mark passes over the first group, because another one follows.
    have harrayed : Phrase.arrayed ([t] :: p) = [t] :: Phrase.arrayed p := by
      cases p with
      | nil => exact absurd rfl hrest.proper.ne_nil
      | cons group p => rfl
    rw [harrayed, List.append_assoc]
    exact .or h ih
  | and h hrest ih =>
    rw [arrayed_joinUnit _ hrest.proper, List.append_assoc]
    exact .and h ih

/-! ## Texts joined by operators -/

/-- The texts are read as the phrases, one by one. -/
abbrev TextsRead (ps : List Phrase) (texts : List String) : Prop :=
  List.Forall₂ (fun p text => PhraseReads p text.toList) ps texts

variable {ps : List Phrase} {texts : List String}

/-- Texts with bars between them are read as the alternatives of their phrases. -/
theorem phraseReads_flatten (h : TextsRead ps texts) :
    ps ≠ [] → PhraseReads ps.flatten (" | ".intercalate texts).toList := by
  induction h with
  | nil =>
    intro hne
    exact absurd rfl hne
  | @cons p text ps texts h hothers ih =>
    intro _
    cases hothers with
    | nil => simpa using h
    | cons h' hothers =>
      rw [String.intercalate_cons_cons, String.toList_append, String.toList_append,
        List.flatten_cons]
      exact h.append (ih (by simp))

/-- Texts with ampersands between them are read as their phrases glued together. -/
theorem phraseReads_glueAll (h : TextsRead ps texts) :
    ps ≠ [] → PhraseReads (Phrase.glueAll ps) (" & ".intercalate texts).toList := by
  induction h with
  | nil =>
    intro hne
    exact absurd rfl hne
  | @cons p text ps texts h hothers ih =>
    intro _
    cases hothers with
    | nil => simpa [Phrase.glueAll] using h
    | cons h' hothers =>
      rw [String.intercalate_cons_cons, String.toList_append, String.toList_append,
        Phrase.glueAll]
      exact h.glue (ih (by simp))

/-- A text that is read as a phrase is, as a whole, the tree of the phrase. -/
theorem read_of_phraseReads {text : String} (h : PhraseReads p text.toList) :
    TypeTree.read text = some p.tree := by
  have hread := h.read PhraseEnd.nil (le_refl (2 * text.toList.length + 1))
  rw [List.append_nil] at hread
  rw [TypeTree.read, hread]

end TypedRoutes.TypeTree
