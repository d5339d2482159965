import TypedRoutes.Proofs.Json.Datum
import TypedRoutes.Proofs.Json.Parts
import TypedRoutes.Proofs.Text.Words

/-!
# Numbers that are not finite in JSON texts

Writing a value looks at each number on its own, so a number that is not finite is written as its
word wherever it stands, and these words come from nothing else: outside strings the text of a value
has the words of its numbers, in their order (`Json.nonFiniteWords_write`).
-/

set_option autoImplicit false

namespace TypedRoutes

open Text (Compositional EndsStrings IsDivider nonFiniteWords)

/-! ## The numbers of a value -/

/-- The word for a number that is not finite, without its sign. -/
def Binary64.word? : Binary64 → Option String
  | .nan => some "NaN"
  | .infinite _ => some "Infinity"
  | .finite .. => none

/-- A number has a word exactly when it is not finite. -/
theorem Binary64.word?_eq_none_iff {x : Binary64} : x.word? = none ↔ x.isFinite = true := by
  cases x with
  | nan => exact ⟨nofun, nofun⟩
  | infinite negative => exact ⟨nofun, nofun⟩
  | finite negative m e => exact ⟨fun _ => rfl, fun _ => rfl⟩

namespace Json

mutual

/-- The numbers of a value that are not integers, in the order in which they are written. -/
def floats : Json → List Binary64
  | .float x => [x]
  | .array items => floatsOfItems items
  | .object members => floatsOfMembers members
  | .null | .bool _ | .int _ | .str _ => []

/-- The numbers of the items of an array. -/
def floatsOfItems : List Json → List Binary64
  | [] => []
  | item :: rest => item.floats ++ floatsOfItems rest

/-- The numbers of the members of an object. -/
def floatsOfMembers : List (String × Json) → List Binary64
  | [] => []
  | (_, value) :: rest => value.floats ++ floatsOfMembers rest

end

/-! ## Words of JSON texts -/

/-- A written character neither ends a string nor shows. -/
theorem unquoted_quotedChar (c : Char) : ∀ rest : List Char,
    Text.unquoted true (quotedChar c ++ rest) = Text.unquoted true rest := by
  apply quotedChar_of_units (P := fun cs => ∀ rest,
    Text.unquoted true (cs ++ rest) = Text.unquoted true rest)
  · intro cs ds hcs hds rest
    rw [List.append_assoc, hcs, hds]
  · intro c hquote hslash rest
    rw [List.singleton_append, Text.unquoted, if_neg hquote]
    exact fun _ _ heq _ => hslash heq
  · intro c rest
    rfl

/-- Nothing but its quotes is left of a string. -/
theorem unquoted_quoted (s : String) (rest : List Char) :
    Text.unquoted false ((quoted s).toList ++ rest) = '"' :: '"' :: Text.unquoted false rest := by
  have hskips (cs : List Char) : Text.unquoted true (cs.flatMap quotedChar ++ '"' :: rest) =
      '"' :: Text.unquoted false rest := by
    induction cs with
    | nil => rfl
    | cons c cs ih => rw [List.flatMap_cons, List.append_assoc, unquoted_quotedChar, ih]
  rw [quoted, String.toList_ofList, List.append_assoc, List.cons_append, List.singleton_append]
  exact congrArg _ (hskips s.toList)

/-- Of a quoted string only the quotes are left. -/
theorem unquoted_quoted_self (s : String) :
    Text.unquoted false (quoted s).toList = ['"', '"'] := by
  have hnil := unquoted_quoted s []
  rwa [List.append_nil, Text.unquoted] at hnil

/-- A quoted string ends every string that it begins. -/
theorem endsStrings_quoted (s : String) : EndsStrings (quoted s).toList := by
  intro rest
  rw [unquoted_quoted, unquoted_quoted_self]
  rfl

/-- No word is found in a quoted string, whatever it holds. -/
theorem nonFiniteWords_quoted (s : String) : nonFiniteWords (quoted s).toList = [] := by
  rw [nonFiniteWords, Text.words, unquoted_quoted_self]
  decide

/-- No word is found among the characters of numerals. -/
theorem nonFiniteWords_of_isNumeralChar {cs : List Char} (h : ∀ c ∈ cs, IsNumeralChar c) :
    nonFiniteWords cs = [] := by
  have hno : ∀ c ∈ ['"', 'N', 'I'], c ∉ cs := by
    intro c hc hmem
    have hother : ∀ c ∈ ['"', 'N', 'I'], ¬ IsNumeralChar c := by decide
    exact hother c hc (h c hmem)
  exact Text.nonFiniteWords_eq_nil (hno _ (by decide)) (hno _ (by decide)) (hno _ (by decide))

/-- The text of a number holds its word and no other. -/
theorem nonFiniteWords_floatText (x : Binary64) :
    nonFiniteWords (floatText x).toList = [x].filterMap Binary64.word? := by
  match x with
  | .nan => decide
  | .infinite true => decide
  | .infinite false => decide
  | .finite negative m e => exact nonFiniteWords_of_isNumeralChar (isNumeralChar_floatText rfl)

theorem endsStrings_writeItems (items : List Json) :
    ∀ text ∈ writeItems items, EndsStrings text.toList :=
  writeItems_of_quoted Compositional.endsStrings endsStrings_quoted items

theorem endsStrings_writeMembers (members : List (String × Json)) :
    ∀ text ∈ writeMembers members, EndsStrings text.toList :=
  writeMembers_of_quoted Compositional.endsStrings endsStrings_quoted members

/-- Items and members stand between brackets, with a comma after each but the last. -/
theorem nonFiniteWords_enclosed_parts {opening closing : String} {parts : List String}
    (hopening : ∀ c ∈ opening.toList, IsDivider c) (hne : closing.toList ≠ [])
    (hclosing : ∀ c ∈ closing.toList, IsDivider c)
    (hparts : ∀ part ∈ parts, EndsStrings part.toList) :
    nonFiniteWords (opening ++ ", ".intercalate parts ++ closing).toList =
      parts.flatMap fun part => nonFiniteWords part.toList := by
  have hcomma : EndsStrings ", ".toList := Text.endsStrings_of_no_quote (by decide)
  have hends := Compositional.endsStrings.intercalate hcomma hparts
  rw [Text.nonFiniteWords_enclosed hopening hne hclosing hends]
  exact Text.nonFiniteWords_intercalate (by decide) (by decide) hparts

mutual

/-- Outside strings the text of a value has the words of the numbers that are not finite, in their
order, and no other such words. -/
theorem nonFiniteWords_write :
    ∀ j : Json, nonFiniteWords j.write.toList = j.floats.filterMap Binary64.word?
  | .null => by decide
  | .bool true => by decide
  | .bool false => by decide
  | .int n => nonFiniteWords_of_isNumeralChar (isNumeralChar_decimalText n)
  | .float x => nonFiniteWords_floatText x
  | .str s => nonFiniteWords_quoted s
  | .array items => by
    rw [write, nonFiniteWords_enclosed_parts (by decide) (by decide) (by decide)
      (endsStrings_writeItems items), floats]
    exact nonFiniteWords_writeItems items
  | .object members => by
    rw [write, nonFiniteWords_enclosed_parts (by decide) (by decide) (by decide)
      (endsStrings_writeMembers members), floats]
    exact nonFiniteWords_writeMembers members

/-- The words in the items of an array are those of their numbers, in order. -/
theorem nonFiniteWords_writeItems : ∀ items : List Json,
    ((writeItems items).flatMap fun text => nonFiniteWords text.toList) =
      (floatsOfItems items).filterMap Binary64.word?
  | [] => rfl
  | item :: rest => by
    rw [writeItems, List.flatMap_cons, nonFiniteWords_write item, nonFiniteWords_writeItems rest,
      floatsOfItems, List.filterMap_append]

theorem nonFiniteWords_writeMembers : ∀ members : List (String × Json),
    ((writeMembers members).flatMap fun text => nonFiniteWords text.toList) =
      (floatsOfMembers members).filterMap Binary64.word?
  | [] => rfl
  | (name, value) :: rest => by
    -- The name of a member is a string, so it has no words.
    have hmember : nonFiniteWords (quoted name ++ ": " ++ value.write).toList =
        nonFiniteWords value.write.toList := by
      rw [String.append_assoc, String.toList_append, String.toList_append,
        Text.nonFiniteWords_append_dividers_append (endsStrings_quoted name) (by decide)
          (by decide), nonFiniteWords_quoted, List.nil_append]
    rw [writeMembers, List.flatMap_cons, hmember, nonFiniteWords_write value,
      nonFiniteWords_writeMembers rest, floatsOfMembers, List.filterMap_append]

end

end Json

/-! ## The numbers of a datum -/

namespace Datum

mutual

/-- The numbers of a datum that are not integers, in the order in which they are written. A set and
a key become strings. -/
def floats : Datum → List Binary64
  | .scalar (.float x) => [x]
  | .pair a b => a.floats ++ b.floats
  | .list items => floatsOfItems items
  | .map entries => floatsOfEntries entries
  | .scalar _ | .set _ | .cycle _ => []

/-- The numbers of the items of a list. -/
def floatsOfItems : List Datum → List Binary64
  | [] => []
  | item :: rest => item.floats ++ floatsOfItems rest

/-- The numbers of the values of a mapping. -/
def floatsOfEntries : List (Scalar × Datum) → List Binary64
  | [] => []
  | (_, value) :: rest => value.floats ++ floatsOfEntries rest

end

/-- The numbers in what a scalar is written as are those of the scalar. -/
theorem floats_of_hasForm {s : Scalar} {j : Json} (h : s.HasForm j) :
    j.floats = (scalar s).floats := by
  cases h with
  | null | bool | int | float => rfl
  | str hs text =>
    cases s with
    | float x => exact absurd rfl (hs x)
    | _ => rfl

mutual

/-- The JSON form of a datum has the numbers of the datum. -/
theorem floats_of_toJson : ∀ (d : Datum) {j : Json}, d.toJson = .ok j → j.floats = d.floats
  | .scalar _ => fun h => floats_of_hasForm (Scalar.hasForm_of_toJson h)
  | .set _ => by
    intro h
    obtain ⟨text, rfl⟩ := exists_str_of_toJson_set h
    rfl
  | .pair a b => by
    intro h
    obtain ⟨first, second, hfirst, hsecond, rfl⟩ := exists_array_of_toJson_pair h
    change first.floats ++ (second.floats ++ []) = a.floats ++ b.floats
    rw [floats_of_toJson a hfirst, floats_of_toJson b hsecond, List.append_nil]
  | .list items => by
    intro h
    obtain ⟨js, hjs, rfl⟩ := Outcome.map_eq_ok.1 h
    exact floats_of_foldItems items hjs
  | .map entries => by
    intro h
    obtain ⟨ms, hms, rfl⟩ := Outcome.map_eq_ok.1 h
    exact floats_of_foldEntries entries hms
  | .cycle _ => nofun

/-- The numbers in what items are written as are those of the items. -/
theorem floats_of_foldItems : ∀ (items : List Datum) {js : List Json},
    foldItems jsonFold items = .ok js → Json.floatsOfItems js = floatsOfItems items
  | [] => by
    intro h
    obtain rfl := Except.ok.inj h
    rfl
  | item :: rest => by
    intro h
    obtain ⟨first, others, hfirst, hothers, rfl⟩ := exists_cons_of_foldItems h
    rw [Json.floatsOfItems, floats_of_toJson item hfirst, floats_of_foldItems rest hothers,
      floatsOfItems]

/-- The numbers in what entries are written as are those of the entries; their names hold none. -/
theorem floats_of_foldEntries : ∀ (entries : List (Scalar × Datum)) {ms : List (String × Json)},
    foldEntries jsonFold entries = .ok ms → Json.floatsOfMembers ms = floatsOfEntries entries
  | [] => by
    intro h
    obtain rfl := Except.ok.inj h
    rfl
  | (key, value) :: rest => by
    intro h
    obtain ⟨name, first, others, hfirst, hothers, rfl⟩ := exists_cons_of_foldEntries h
    rw [Json.floatsOfMembers, floats_of_toJson value hfirst, floats_of_foldEntries rest hothers,
      floatsOfEntries]

end

end Datum

end TypedRoutes
