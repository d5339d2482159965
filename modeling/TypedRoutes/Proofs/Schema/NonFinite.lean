import TypedRoutes.Proofs.Json.NonFinite
import TypedRoutes.Proofs.Schema.Values

/-!
# Literals of numbers that are not finite

`NaN` and the infinities have no literal type. A `const` or a member of an `enum` that is such a
number is shown as the type of numbers, but no number inside a list or a mapping is checked: the
value is written as JSON, in which such a number is its word. So the type has these words exactly if
a value holds such a number without being one (`Schema.no_words_iff_innerFinite`), as the value of
`Schema.nestedNaN` does.
-/

set_option autoImplicit false

namespace TypedRoutes

open Text (Compositional EndsStrings nonFiniteWords)

namespace Datum

/-- The numbers below a datum, which leave out what the datum is itself. -/
def innerFloats : Datum → List Binary64
  | .scalar _ => []
  | d => d.floats

/-- No number below the datum is infinite or NaN. -/
def InnerFinite (d : Datum) : Prop := ∀ x ∈ d.innerFloats, x.isFinite = true

/-- How the text of a literal shows the numbers that are not finite. -/
structure ShowsNumbers (d : Datum) (text : String) : Prop where
  /-- A value that is such a number is shown as the type of numbers … -/
  alone : ∀ x, d = .scalar (.float x) → x.isFinite = false → text = Primitive.number.name
  /-- … and those that a value holds are shown by their words, of which there are no others. -/
  inside : nonFiniteWords text.toList = d.innerFloats.filterMap Binary64.word?

/-- A text that shows the numbers of a value has no word exactly when the inner numbers are
finite. -/
theorem ShowsNumbers.no_words_iff {d : Datum} {text : String} (h : d.ShowsNumbers text) :
    nonFiniteWords text.toList = [] ↔ d.InnerFinite := by
  rw [h.inside, List.filterMap_eq_nil_iff]
  simp only [InnerFinite, Binary64.word?_eq_none_iff]

/-- The JSON text of a value that is no number shows its numbers. -/
theorem showsNumbers_of_toJson {d : Datum} {j : Json} (hfloat : ∀ x, d ≠ .scalar (.float x))
    (h : d.toJson = .ok j) : d.ShowsNumbers j.write := by
  have hinner : d.innerFloats = d.floats := by
    cases d with
    | scalar s =>
      cases s with
      | float x => exact absurd rfl (hfloat x)
      | _ => rfl
    | _ => rfl
  refine ⟨fun x heq => absurd heq (hfloat x), ?_⟩
  rw [Json.nonFiniteWords_write, floats_of_toJson d h, hinner]

/-- The text of a literal shows the numbers of its value. -/
theorem showsNumbers_literalText {d : Datum} {text : String} (h : d.literalText = .ok text) :
    d.ShowsNumbers text := by
  unfold literalText at h
  split at h
  -- Only here is a number checked before it is written.
  · next x =>
    obtain rfl := Except.ok.inj h
    unfold Binary64.literalText
    split
    · next hfinite =>
      refine ⟨?_, Json.nonFiniteWords_of_isNumeralChar (Json.isNumeralChar_floatText hfinite)⟩
      rintro y ⟨⟩ hinfinite
      exact absurd (hfinite.symm.trans hinfinite) nofun
    · have hword : nonFiniteWords Primitive.number.name.toList = [] := by decide
      exact ⟨fun _ _ _ => rfl, hword⟩
  · next hfloat =>
    obtain ⟨j, hj, rfl⟩ := Outcome.map_eq_ok.1 h
    exact showsNumbers_of_toJson hfloat hj

end Datum

theorem Literal.showsNumbers {l : Literal} {text : String} (h : l.text.get = .ok text) :
    l.value.get.ShowsNumbers text :=
  Datum.showsNumbers_literalText (l.text_eq ▸ h)

namespace Schema

open Document (Value)

/-! ## Several literals -/

/-- The literals of an enumeration are shown one by one. -/
theorem showsNumbers_literalTexts {values : List Literal} {texts : List String}
    (h : literalTexts values = .ok texts) :
    List.Forall₂ (fun l text => l.value.get.ShowsNumbers text) values texts :=
  (literalTexts_eq_ok_iff.1 h).imp fun _ _ => Literal.showsNumbers

/-- The separator of an enumeration adds no words to those of its members. -/
theorem nonFiniteWords_joined {values : List Literal} {texts : List String}
    (h : literalTexts values = .ok texts) :
    nonFiniteWords (joined " | " neverText texts).toList =
      values.flatMap fun l => l.value.get.innerFloats.filterMap Binary64.word? := by
  have hends : ∀ text ∈ texts, EndsStrings text.toList :=
    forall_mem_literalTexts
      (Literal.text_of_quoted Compositional.endsStrings Json.endsStrings_quoted) h
  have hjoined : nonFiniteWords (joined " | " neverText texts).toList =
      texts.flatMap fun text => nonFiniteWords text.toList := by
    cases texts with
    -- Without members the type is `never`.
    | nil => decide
    | cons text rest =>
      rw [joined, List.isEmpty_cons, if_neg Bool.false_ne_true]
      exact Text.nonFiniteWords_intercalate (by decide) (by decide) hends
  rw [hjoined]
  have hshown := showsNumbers_literalTexts h
  clear h hends hjoined
  induction hshown with
  | nil => rfl
  | cons hfirst _ ih => rw [List.flatMap_cons, List.flatMap_cons, hfirst.inside, ih]

/-- Literals in a row have no word exactly when the inner numbers of each are finite. -/
theorem nonFiniteWords_joined_eq_nil_iff {values : List Literal} {texts : List String}
    (h : literalTexts values = .ok texts) :
    nonFiniteWords (joined " | " neverText texts).toList = [] ↔
      ∀ l ∈ values, l.value.get.InnerFinite := by
  rw [nonFiniteWords_joined h, List.flatMap_eq_nil_iff]
  simp only [Datum.InnerFinite, List.filterMap_eq_nil_iff, Binary64.word?_eq_none_iff]

variable {doc : Document} {s : Value} {id : Nat} {entries : List (Scalar × Value)}

/-- When a literal type has a word for a number that is not finite. The type of a `const` has one
outside strings if and only if such a number is below its value, and the type of an `enum` if and
only if such a number is below one of its values. A value that is such a number itself is shown as
the type of numbers. -/
theorem no_words_iff_innerFinite (hs : doc.mapping? s = some (id, entries)) :
    (∀ v, field? "const" entries = some v →
      ∃ schema, ofDocument doc s = .ok schema ∧ ∀ text, schema.typeText = .ok text →
        (doc.unfold v).ShowsNumbers text ∧
        (nonFiniteWords text.toList = [] ↔ (doc.unfold v).InnerFinite)) ∧
    (∀ vs, field? "const" entries = none → listAt? doc.shape "enum" entries = some vs →
      ∃ schema, ofDocument doc s = .ok schema ∧ ∀ text, schema.typeText = .ok text →
        (∃ texts, List.Forall₂ (fun v part => (doc.unfold v).ShowsNumbers part) vs texts ∧
          text = joined " | " neverText texts) ∧
        (nonFiniteWords text.toList = [] ↔ ∀ v ∈ vs, (doc.unfold v).InnerFinite)) := by
  constructor
  · intro v hconst
    refine ⟨_, ofDocument_of_const hs hconst, fun text htext => ?_⟩
    have hshown : (doc.unfold v).ShowsNumbers text := Literal.showsNumbers htext
    exact ⟨hshown, hshown.no_words_iff⟩
  · intro vs hconst henum
    refine ⟨_, ofDocument_of_enum hs hconst henum, fun text htext => ?_⟩
    obtain ⟨texts, htexts, rfl⟩ := Outcome.map_eq_ok.1 htext
    have hshown := showsNumbers_literalTexts htexts
    rw [List.forall₂_map_left_iff] at hshown
    refine ⟨⟨texts, hshown, rfl⟩, ?_⟩
    rw [nonFiniteWords_joined_eq_nil_iff htexts, List.forall_mem_map]
    rfl

/-- The document of a schema whose value is a list with a NaN. -/
def nestedNaN : Document := Document.ofJson (.object [("const", .array [.float .nan])])

/-- Such a list is shown with the word for NaN. -/
theorem nestedNaN_shows_word :
    ∃ schema, ofDocument nestedNaN nestedNaN.root = .ok schema ∧
      schema.typeText = .ok "[NaN]" ∧ nonFiniteWords "[NaN]".toList = ["NaN"] := by
  refine ⟨_, rfl, ?_, ?_⟩
  · decide +kernel
  · decide +kernel

/-- The document of a schema whose values are a NaN, and a text and a name that spell such
numbers. -/
def spelledNaN : Document :=
  Document.ofJson (.object [("enum", .array [.float .nan, .str "NaN",
    .object [("Infinity", .array [.int 1])]])])

theorem no_words_iff_innerFinite_spelledNaN :
    (∃ schema, ofDocument nestedNaN nestedNaN.root = .ok schema ∧
      schema.typeText = .ok "[NaN]" ∧ nonFiniteWords "[NaN]".toList ≠ []) ∧
    ∃ schema text, ofDocument spelledNaN spelledNaN.root = .ok schema ∧
      schema.typeText = .ok text ∧ text = "number | \"NaN\" | \x7b\"Infinity\": [1]\x7d" ∧
      nonFiniteWords text.toList = [] := by
  constructor
  · have hs : nestedNaN.mapping? nestedNaN.root = some (1, [(.str "const", .node 0)]) := rfl
    obtain ⟨schema, hschema, hshown⟩ := (no_words_iff_innerFinite hs).1 (.node 0) rfl
    have htext : schema.typeText = .ok "[NaN]" := by
      obtain rfl := Except.ok.inj hschema
      decide +kernel
    refine ⟨schema, hschema, htext, fun hnone => ?_⟩
    have hfinite : Binary64.nan.isFinite = true :=
      ((hshown _ htext).2.1 hnone) .nan List.mem_cons_self
    cases hfinite
  · have hs : spelledNaN.mapping? spelledNaN.root = some (3, [(.str "enum", .node 2)]) := rfl
    obtain ⟨schema, hschema, hshown⟩ := (no_words_iff_innerFinite hs).2
      [.scalar (.float .nan), .scalar (.str "NaN"), .node 1] rfl rfl
    have htext : schema.typeText = .ok "number | \"NaN\" | \x7b\"Infinity\": [1]\x7d" := by
      obtain rfl := Except.ok.inj hschema
      decide +kernel
    refine ⟨schema, _, hschema, htext, rfl, (hshown _ htext).2.2 ?_⟩
    -- The number at the top is printed by its type, and the strings are no numbers.
    simp only [List.forall_mem_cons]
    exact ⟨nofun, nofun, nofun, List.forall_mem_nil _⟩

end Schema

end TypedRoutes
