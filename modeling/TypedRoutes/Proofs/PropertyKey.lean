import TypedRoutes.Proofs.Text.Run
import TypedRoutes.PropertyKey

/-!
# Scanning property keys

`PropertyKey.scan` reads a key back from the front of a text, knowing nothing of how keys are
written: a run of name characters, or what stands between single quotes. `scan_encode` says that a
written key is read back whole, whatever follows it, unless a plain identifier is continued by
another name character. The two replacements that quote a key escape each of its characters once
(`quote_eq_flatMap`).
-/

set_option autoImplicit false

namespace TypedRoutes.PropertyKey

/-- The characters up to the closing quote, and what follows it. A backslash makes the next
character stand for itself. -/
def unquote : List Char → Option (List Char × List Char)
  | [] => none
  | '\'' :: rest => some ([], rest)
  | ['\\'] => none
  | '\\' :: c :: rest => (unquote rest).map fun (key, left) => (c :: key, left)
  | c :: rest => (unquote rest).map fun (key, left) => (c :: key, left)

/-- A key at the front of a text, and what follows it. -/
def scan : List Char → Option (List Char × List Char)
  | '\'' :: rest => unquote rest
  | cs =>
    match cs.takeWhile isNameChar with
    | [] => none
    | name => some (name, cs.dropWhile isNameChar)

/-- A character between single quotes. -/
def escapedChar (c : Char) : List Char :=
  if c = '\\' ∨ c = '\'' then ['\\', c] else [c]

/-- Replacing the backslashes and then the quotes is the same as escaping each character, for the
second replacement finds no quote among the new characters of the first. -/
theorem replaced_replaced (key : List Char) :
    replaced '\'' ['\\', '\''] (replaced '\\' ['\\', '\\'] key) = key.flatMap escapedChar := by
  rw [replaced, replaced, List.flatMap_assoc]
  refine List.flatMap_congr fun c _ => ?_
  by_cases hslash : c = '\\'
  · subst hslash
    rfl
  · by_cases hquote : c = '\''
    · subst hquote
      rfl
    · simp [escapedChar, hslash, hquote]

/-- The two replacements in sequence are one pass over the characters. -/
theorem quote_eq_flatMap (key : List Char) :
    quote key = '\'' :: key.flatMap escapedChar ++ ['\''] := by
  rw [quote, replaced_replaced]

theorem isNameChar_quote : isNameChar '\'' = false := by decide

/-- Unquoting undoes the escapes of one character. -/
theorem unquote_escapedChar (c : Char) (rest : List Char) :
    unquote (escapedChar c ++ rest) =
      (unquote rest).map fun (key, left) => (c :: key, left) := by
  unfold escapedChar
  split
  · next h =>
    rcases h with rfl | rfl
    · rfl
    · rfl
  · next h =>
    obtain ⟨hslash, hquote⟩ := not_or.1 h
    rw [List.singleton_append, unquote]
    · exact hquote
    · exact fun e => absurd e hslash
    · exact fun _ _ e => absurd e hslash

/-- The escapes of a key are undone up to the closing quote. -/
theorem unquote_flatMap_escapedChar (key rest : List Char) :
    unquote (key.flatMap escapedChar ++ '\'' :: rest) = some (key, rest) := by
  induction key with
  | nil => rfl
  | cons c key ih =>
    rw [List.flatMap_cons, List.append_assoc, unquote_escapedChar, ih]
    rfl

/-- A quoted key is read back in front of any text. -/
theorem scan_quote (key rest : List Char) : scan (quote key ++ rest) = some (key, rest) := by
  rw [quote_eq_flatMap, List.append_assoc, List.cons_append, scan]
  exact unquote_flatMap_escapedChar key rest

/-- The characters of a plain identifier. -/
theorem isNameChar_of_isPlain {key : List Char} (h : isPlain key = true) :
    key ≠ [] ∧ ∀ c ∈ key, isNameChar c = true := by
  cases key with
  | nil => cases h
  | cons c rest =>
    simp only [isPlain, Bool.and_eq_true, List.all_eq_true] at h
    obtain ⟨⟨-, hc⟩, hrest⟩ := h
    exact ⟨List.cons_ne_nil c rest, List.forall_mem_cons.2 ⟨hc, hrest⟩⟩

/-- A plain key is read back in front of a text that goes on with no character of a name. -/
theorem scan_of_isPlain {key rest : List Char} (hkey : isPlain key = true)
    (hrest : Text.Stops isNameChar rest) :
    scan (key ++ rest) = some (key, rest) := by
  obtain ⟨hne, hname⟩ := isNameChar_of_isPlain hkey
  obtain ⟨c, tail, rfl⟩ := List.exists_cons_of_ne_nil hne
  -- A plain identifier does not begin like a quoted key.
  have hquote : c ≠ '\'' := by
    rintro rfl
    simpa [isNameChar_quote] using hname '\'' (by simp)
  rw [scan, Text.takeWhile_append_stops hname hrest, Text.dropWhile_append_stops hname hrest]
  · exact fun tail' e => hquote (List.cons.inj e).1

/-- A written key begins with a quote or a name character. -/
theorem exists_encode_eq_cons (key : List Char) :
    ∃ c rest, encode key = c :: rest ∧ (c = '\'' ∨ isNameChar c = true) := by
  unfold encode
  split
  · next h =>
    obtain ⟨hne, hname⟩ := isNameChar_of_isPlain h
    obtain ⟨c, rest, rfl⟩ := List.exists_cons_of_ne_nil hne
    exact ⟨c, rest, rfl, .inr (hname c (by simp))⟩
  · exact ⟨'\'', _, rfl, .inl rfl⟩

/-- A written key is read back whole. -/
theorem scan_encode (key : List Char) {rest : List Char} (hrest : Text.Stops isNameChar rest) :
    scan (encode key ++ rest) = some (key, rest) := by
  unfold encode
  split
  · next h => exact scan_of_isPlain h hrest
  · exact scan_quote key rest

/-- The text of a key is read back in front of a text that goes on with no character of a name. -/
theorem scan_text (key : String) {rest : List Char} (hrest : Text.Stops isNameChar rest) :
    scan ((text key).toList ++ rest) = some (key.toList, rest) := by
  rw [toList_text]
  exact scan_encode key.toList hrest

/-- Escaping leaves the other characters alone. -/
theorem mem_flatMap_escapedChar_iff {c : Char} (hslash : c ≠ '\\') {key : List Char} :
    c ∈ key.flatMap escapedChar ↔ c ∈ key := by
  have hescaped (d : Char) : c ∈ escapedChar d ↔ c = d := by
    unfold escapedChar
    split <;> simp [hslash]
  simp only [List.mem_flatMap, hescaped, exists_eq_right']

/-- A character that needs no escape is in a written key only if it is in the key. -/
theorem mem_of_mem_encode {c : Char} (hslash : c ≠ '\\') (hquote : c ≠ '\'') {key : List Char}
    (h : c ∈ encode key) : c ∈ key := by
  unfold encode at h
  split at h
  · exact h
  · rw [quote_eq_flatMap, List.cons_append, List.mem_cons, List.mem_append,
      mem_flatMap_escapedChar_iff hslash, List.mem_singleton] at h
    rcases h with h | h | h
    · exact absurd h hquote
    · exact h
    · exact absurd h hquote

end TypedRoutes.PropertyKey
