import TypedRoutes.Proofs.TypeTree.Reads

/-!
# Operands

Each kind of operand is read wherever it stands: the names of types, records, objects with their
fields (`FieldsRead.unitReads`), and literals (`exists_unitReads_write`). Their texts begin
differently, so the reader takes the right one for each.
-/

set_option autoImplicit false

namespace TypedRoutes.TypeTree

open Json.Reader (after? after?_append after?_eq_none)
open Reader (suffixes unit phrase entries words word? optionalMark)

variable {p : Phrase} {rest : List Char}

/-! ## Names and records -/

/-- A word in front of a text is read as its type. -/
theorem word?_append {word : String} {t : TypeTree} (h : (word, t) ∈ words) (rest : List Char) :
    word? (word.toList ++ rest) = some (t, rest) := by
  simp only [words, List.mem_cons, Prod.mk.injEq, List.not_mem_nil, or_false] at h
  rcases h with ⟨rfl, rfl⟩ | ⟨rfl, rfl⟩ | ⟨rfl, rfl⟩ | ⟨rfl, rfl⟩ | ⟨rfl, rfl⟩ | ⟨rfl, rfl⟩
  all_goals rfl

theorem isUnit_of_mem_words {word : String} {t : TypeTree} (h : (word, t) ∈ words) :
    t.IsUnit ∧ word.toList ≠ [] := by
  simp only [words, List.mem_cons, Prod.mk.injEq, List.not_mem_nil, or_false] at h
  rcases h with ⟨rfl, rfl⟩ | ⟨rfl, rfl⟩ | ⟨rfl, rfl⟩ | ⟨rfl, rfl⟩ | ⟨rfl, rfl⟩ | ⟨rfl, rfl⟩
  all_goals exact ⟨⟨id, id⟩, by decide⟩

/-- The name of a type. -/
theorem unitReads_word {word : String} {t : TypeTree} (h : (word, t) ∈ words) :
    UnitReads t word.toList := by
  obtain ⟨hunit, hne⟩ := isUnit_of_mem_words h
  refine ⟨hunit, hne, ?_⟩
  intro depth rest _ hdepth
  have hlength := List.length_pos_of_ne_nil hne
  obtain ⟨d, rfl⟩ := Nat.exists_eq_add_of_le' (show 1 ≤ depth by omega)
  rw [unit, word?_append h]
  rfl

/-- A record of a type. -/
theorem unitReads_record {text : String} (h : PhraseReads p text.toList) :
    UnitReads (.record p.tree) (Schema.recordText text).toList := by
  have htext : (Schema.recordText text).toList =
      "Record<string, ".toList ++ (text.toList ++ ">".toList) := by
    change ("Record<string, " ++ text ++ ">").toList = _
    rw [String.toList_append, String.toList_append, List.append_assoc]
  rw [htext]
  refine ⟨⟨id, id⟩, by simp, ?_⟩
  intro depth rest _ hdepth
  simp only [List.length_append] at hdepth
  have hlength : "Record<string, ".toList.length = 15 := rfl
  obtain ⟨d, rfl⟩ := Nat.exists_eq_add_of_le' (show 1 ≤ depth by omega)
  have hword (tail : List Char) : word? ("Record<string, ".toList ++ tail) = none := rfl
  -- The closing bracket ends the phrase, whatever follows it.
  have hvalue : phrase d (text.toList ++ ('>' :: rest)) = some (p, '>' :: rest) :=
    h.read (.record rest) (by omega)
  have hclose : after? ">" ('>' :: rest) = some rest := after?_append ">" rest
  rw [List.append_assoc, List.append_assoc, unit, hword, after?_append]
  dsimp only
  rw [show ">".toList ++ rest = '>' :: rest from rfl, hvalue]
  simp only [Option.bind_eq_bind, Option.bind_some, hclose]
  rfl

/-! ## Objects -/

/-- The texts are read as the fields. -/
inductive FieldsRead : List (String × Bool × TypeTree) → List String → Prop
  | nil : FieldsRead [] []
  | cons {name type : String} {required : Bool} {p : Phrase}
      {es : List (String × Bool × TypeTree)} {texts : List String} (h : PhraseReads p type.toList)
      (hothers : FieldsRead es texts) :
      FieldsRead ((name, required, p.tree) :: es) (Schema.fieldText name required type :: texts)

theorem toList_fieldText (name : String) (required : Bool) (type : String) :
    (Schema.fieldText name required type).toList = (PropertyKey.text name).toList ++
      ((if required then [] else ['?']) ++ (": ".toList ++ type.toList)) := by
  cases required <;> simp [Schema.fieldText]

/-- The mark of an optional field is found between its name and the colon. -/
theorem optionalMark_append (required : Bool) (tail : List Char) :
    optionalMark ((if required then [] else ['?']) ++ (": ".toList ++ tail)) =
      (required, ": ".toList ++ tail) := by
  cases required <;> rfl

/-- One step of the reader: a field and what follows it. -/
theorem entries_succ {type : String} (h : PhraseReads p type.toList) (name : String)
    (required : Bool) {depth : Nat} (hend : PhraseEnd rest)
    (hdepth : 2 * type.toList.length + 1 ≤ depth) :
    entries (depth + 1) ((Schema.fieldText name required type).toList ++ rest) =
      match after? "; " rest with
      | some rest =>
        (entries depth rest).map fun (others, left) => ((name, required, p.tree) :: others, left)
      | none => (after? " \x7d" rest).map fun left => ([(name, required, p.tree)], left) := by
  -- A colon or the mark follows the name, and neither continues it.
  have hstops : Text.Stops PropertyKey.isNameChar
      ((if required then [] else ['?']) ++ (": ".toList ++ (type.toList ++ rest))) := by
    cases required
    · exact Text.stops_cons.2 (by decide)
    · exact Text.stops_cons.2 (by decide)
  rw [toList_fieldText, List.append_assoc, List.append_assoc, List.append_assoc, entries,
    PropertyKey.scan_text name hstops]
  simp only [Option.bind_eq_bind, Option.bind_some, optionalMark_append, after?_append,
    h.read hend hdepth, String.ofList_toList]
  cases after? "; " rest with
  | some rest' =>
    dsimp only
    cases entries depth rest' with
    | none => rfl
    | some reading => rfl
  | none =>
    dsimp only
    cases after? " \x7d" rest with
    | none => rfl
    | some left => rfl

theorem length_type_le (name : String) (required : Bool) (type : String) :
    type.toList.length + 2 ≤ (Schema.fieldText name required type).toList.length := by
  have hmark : ": ".toList.length = 2 := rfl
  rw [toList_fieldText]
  simp only [List.length_append]
  omega

/-- The fields of an object are read up to the closing brace. -/
theorem FieldsRead.read {es : List (String × Bool × TypeTree)} {texts : List String}
    (h : FieldsRead es texts) : texts ≠ [] → ∀ (depth : Nat) (rest : List Char),
      2 * ("; ".intercalate texts).toList.length ≤ depth →
        entries depth (("; ".intercalate texts).toList ++ (" \x7d".toList ++ rest)) =
          some (es, rest) := by
  induction h with
  | nil =>
    intro hne
    exact absurd rfl hne
  | @cons name type required p es texts h hothers ih =>
    intro _ depth rest hdepth
    have hlength := length_type_le name required type
    cases hothers with
    | nil =>
      rw [String.intercalate_singleton] at hdepth ⊢
      obtain ⟨d, rfl⟩ := Nat.exists_eq_add_of_le' (show 1 ≤ depth by omega)
      have hend : PhraseEnd (" \x7d".toList ++ rest) := .object rest
      rw [entries_succ h name required hend (by omega), after?_append]
      rfl
    -- The separator ends the type of the field, and the other fields follow.
    | @cons name' type' required' p' es texts h' hothers =>
      have ih := ih (by simp)
      rw [String.intercalate_cons_cons] at hdepth ⊢
      simp only [String.toList_append, List.length_append] at hdepth
      obtain ⟨d, rfl⟩ := Nat.exists_eq_add_of_le' (show 1 ≤ depth by omega)
      generalize "; ".intercalate (Schema.fieldText name' required' type' :: texts) = others at *
      have hend : PhraseEnd ("; ".toList ++ (others.toList ++ (" \x7d".toList ++ rest))) :=
        .field _
      rw [String.toList_append, String.toList_append, List.append_assoc, List.append_assoc,
        entries_succ h name required hend (by omega), after?_append]
      dsimp only
      rw [ih d rest (by omega)]
      rfl

/-- A field does not begin with the end of an object type. -/
theorem after?_close_fieldText (name : String) (required : Bool) (type : String)
    (tail : List Char) :
    after? " \x7d" ((Schema.fieldText name required type).toList ++ tail) = none := by
  obtain ⟨c, others, hencode, hc⟩ := PropertyKey.exists_encode_eq_cons name.toList
  have hblank : ' ' ≠ c := by
    rintro rfl
    rcases hc with hc | hc
    · exact absurd hc (by decide)
    · exact absurd hc (by decide)
  rw [toList_fieldText, PropertyKey.toList_text, hencode]
  exact after?_eq_none rfl hblank

theorem FieldsRead.after?_close {es : List (String × Bool × TypeTree)} {texts : List String}
    (h : FieldsRead es texts) (hne : texts ≠ []) (tail : List Char) :
    after? " \x7d" (("; ".intercalate texts).toList ++ tail) = none := by
  cases h with
  | nil => exact absurd rfl hne
  | @cons name type required p es texts _ hothers =>
    cases hothers with
    | nil =>
      rw [String.intercalate_singleton]
      exact after?_close_fieldText name required type tail
    | cons =>
      rw [String.intercalate_cons_cons, String.toList_append, String.toList_append,
        List.append_assoc, List.append_assoc]
      exact after?_close_fieldText name required type _

/-- An object with its fields. -/
theorem FieldsRead.unitReads {es : List (String × Bool × TypeTree)} {texts : List String}
    (h : FieldsRead es texts) : UnitReads (.fields es) (Schema.objectText texts).toList := by
  have htext : (Schema.objectText texts).toList =
      "\x7b ".toList ++ (("; ".intercalate texts).toList ++ " \x7d".toList) := by
    rw [Schema.objectText, String.toList_append, String.toList_append, List.append_assoc]
  have hopen : "\x7b ".toList.length = 2 := rfl
  have hword (tail : List Char) : word? ("\x7b ".toList ++ tail) = none := rfl
  have hrecord (tail : List Char) : after? "Record<string, " ("\x7b ".toList ++ tail) = none := rfl
  rw [htext]
  refine ⟨⟨id, id⟩, by simp, ?_⟩
  intro depth rest _ hdepth
  simp only [List.length_append] at hdepth
  obtain ⟨d, rfl⟩ := Nat.exists_eq_add_of_le' (show 1 ≤ depth by omega)
  rw [List.append_assoc, List.append_assoc, unit, hword, hrecord, after?_append]
  dsimp only
  -- An object without fields is closed at once; no field begins with the closing mark.
  by_cases hne : texts = []
  · subst hne
    cases h
    rw [show ("; ".intercalate []).toList = [] from rfl, List.nil_append, after?_append]
    rfl
  · rw [h.after?_close hne, h.read hne d rest (by omega)]
    rfl

/-! ## Literals -/

theorem word?_eq_none {c : Char} (hc : c ∉ ['s', 'n', 'b', 'u']) (tail : List Char) :
    word? (c :: tail) = none := by
  rw [word?, List.findSome?_eq_none_iff]
  intro entry hentry
  rw [Option.map_eq_none_iff]
  -- The names of types begin with four letters only.
  have hwords : ∀ entry ∈ words, ∃ d others, entry.1.toList = d :: others ∧
      d ∈ ['s', 'n', 'b', 'u'] := by
    simp [words]
  obtain ⟨d, others, hword, hd⟩ := hwords entry hentry
  refine after?_eq_none hword ?_
  rintro rfl
  exact hc hd

/-- The text of a value is no name of a type, unless it is null, and begins no record and no
object type. -/
theorem unit_write {j : Json} (hnull : j ≠ .null) (depth : Nat) (rest : List Char) :
    unit (depth + 1) (j.write.toList ++ rest) = Reader.literal (j.write.toList ++ rest) := by
  obtain ⟨c, tail, htext, hc, hn, -⟩ := Json.exists_write_eq_cons j
  have hne (d : Char) (hd : Json.isFirst d = false) : d ≠ c := by
    rintro rfl
    rw [hc] at hd
    cases hd
  -- Of values only null begins like the name of a type.
  have hword : word? (j.write.toList ++ rest) = none := by
    rw [htext]
    refine word?_eq_none ?_ _
    have hs := hne 's' (by decide)
    have hb := hne 'b' (by decide)
    have hu := hne 'u' (by decide)
    have hn : c ≠ 'n' := hn.resolve_right hnull
    simp [hs.symm, hb.symm, hu.symm, hn]
  have hrecord : after? "Record<string, " (j.write.toList ++ rest) = none := by
    rw [htext]
    exact after?_eq_none (d := 'R') rfl (hne 'R' (by decide))
  rw [unit, hword, hrecord, Json.after?_brace_write]

/-- A literal that is not null is read as such, and as the same value if it is canonical. -/
theorem exists_unitReads_write {j : Json} (hnull : j ≠ .null) (hwithin : j.Within) :
    ∃ k, UnitReads (.literal k.toDatum) j.write.toList ∧ (j.Canonical → k = j) := by
  obtain ⟨k, hk, hvalue⟩ := Json.Reader.value_write j hwithin
  obtain ⟨c, tail, htext, -⟩ := Json.exists_write_eq_cons j
  refine ⟨k, ⟨⟨id, id⟩, by simp [htext], fun depth rest hrest hdepth => ?_⟩, hk⟩
  obtain ⟨d, rfl⟩ := Nat.exists_eq_add_of_le' (Json.Reader.one_le_of_write hdepth)
  have hread : Reader.literal (j.write.toList ++ rest) = some (.literal k.toDatum, rest) := by
    rw [Reader.literal, hvalue hrest (by rw [List.length_append]; omega)]
  rw [unit_write hnull, hread]
  rfl

end TypedRoutes.TypeTree
