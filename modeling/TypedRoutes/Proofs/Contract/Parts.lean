import TypedRoutes.Contract.OfDocument
import TypedRoutes.Proofs.Document.Contents
import TypedRoutes.Proofs.Schema.Decoded
import TypedRoutes.Proofs.Schema.Unfolding

/-!
# Parts of contracts

What stands in a document where a contract has a part: a string (`Document.HasString`), a flag
(`Document.HasFlag`), a text that any value has (`Document.HasText`), or the schema of a slot, which
is there if a value supplies it (`Document.SlotMatches`). Looking a string or a flag up finds
exactly those. A text and the slots are always had from a document without oversized integers
(`Contract.exists_textAt`, `RouteSlots.exists_ofDocument`).
-/

set_option autoImplicit false

namespace TypedRoutes

/-! ## What stands where a part is -/

/-- The values that count as false: null, false, a zero, and what is empty. -/
inductive Shape.IsFalsy {α : Type} : Shape α → Prop
  | null : IsFalsy (.scalar .null)
  | false : IsFalsy (.scalar (.bool false))
  | zero : IsFalsy (.scalar (.int 0))
  | zeroFloat {x : Binary64} : x.isZero = true → IsFalsy (.scalar (.float x))
  | emptyString : IsFalsy (.scalar (.str ""))
  | emptyBytes : IsFalsy (.scalar (.bytes []))
  | emptySet : IsFalsy (.set [])
  | emptyList : IsFalsy (.list [])
  | emptyMap : IsFalsy (.map [])

namespace Document

variable (doc : Document)

/-- The value is a mapping, or any other value that does not count as false. -/
def Supplies (v : Value) : Prop :=
  (∃ entries, doc.shape v = .map entries) ∨ ¬ (doc.shape v).IsFalsy

/-- The text stands under a key. -/
def HasString (entries : List (Scalar × Value)) (key text : String) : Prop :=
  ∃ v, field? key entries = some v ∧ doc.shape v = .scalar (.str text)

/-- The plain text of what stands under a key; the empty text if nothing does. -/
def HasText (entries : List (Scalar × Value)) (key text : String) : Prop :=
  field? key entries = none ∧ text = "" ∨
    ∃ v, field? key entries = some v ∧ doc.text v = .ok text

/-- The flag that stands under a key; false if nothing does. -/
def HasFlag (entries : List (Scalar × Value)) (key : String) (flag : Bool) : Prop :=
  field? key entries = none ∧ flag = false ∨
    ∃ v, field? key entries = some v ∧ doc.shape v = .scalar (.bool flag)

/-- Something stands under a key that is no flag. -/
def HasNoFlag (entries : List (Scalar × Value)) (key : String) : Prop :=
  ∃ v, field? key entries = some v ∧ ∀ flag, doc.shape v ≠ .scalar (.bool flag)

/-- The value under a keyword among the schemas of an entry. -/
def rawSlot? (entries : List (Scalar × Value)) (keyword : String) : Option Value :=
  (Schema.mapAt? doc.shape "schema" entries).bind (field? keyword)

/-- A slot is there exactly if its value supplies it, and then it is decoded from this value. -/
structure SlotMatches (raw : Option Value) (slot : Option Schema) : Prop where
  present : slot.isSome = true ↔ ∃ v ∈ raw, doc.Supplies v
  decoded : ∀ schema ∈ slot, ∃ v ∈ raw, Schema.ofDocument doc v = .ok schema

end Document

/-! ## Looking values up -/

section

variable {doc : Document} {entries : List (Scalar × Document.Value)} {key : String}

theorem Schema.string?_eq_some_iff {v : Document.Value} {text : String} :
    Schema.string? doc.shape v = some text ↔ doc.shape v = .scalar (.str text) := by
  unfold Schema.string?
  split
  · next s hshape => simp [hshape]
  · next hother =>
    constructor
    · intro h
      cases h
    · intro h
      exact absurd h (hother text)

/-- Looking up a string under a key finds exactly the string that stands there. -/
theorem Route.stringAt?_eq_some_iff {text : String} :
    stringAt? doc key entries = some text ↔ doc.HasString entries key text := by
  rw [stringAt?, Option.bind_eq_some_iff]
  simp only [Schema.string?_eq_some_iff, Document.HasString]

theorem Route.stringAt?_eq_none_iff :
    stringAt? doc key entries = none ↔ ∀ text, ¬ doc.HasString entries key text := by
  rw [Option.eq_none_iff_forall_ne_some]
  simp only [ne_eq, stringAt?_eq_some_iff]

/-- The streaming flag is what stands under `sse`, and false where nothing does. -/
theorem Route.streaming?_eq_some_iff {flag : Bool} :
    streaming? doc entries = some flag ↔ doc.HasFlag entries "sse" flag := by
  unfold streaming? Document.HasFlag
  cases hfield : field? "sse" entries with
  | none => simp [eq_comm]
  | some v =>
    simp only [Option.map_some]
    split
    · next h => cases h
    · next b h => simp [Option.some.inj h]
    · next w hother hw =>
      have hne : doc.shape v ≠ .scalar (.bool flag) := by
        rw [Option.some.inj hw]
        exact hother flag
      simp [hne]

theorem Document.hasFlag_or_hasNoFlag (doc : Document) (entries : List (Scalar × Value))
    (key : String) : (∃ flag, doc.HasFlag entries key flag) ∨ doc.HasNoFlag entries key := by
  cases hfield : field? key entries with
  | none => exact .inl ⟨false, .inl ⟨hfield, rfl⟩⟩
  | some v =>
    by_cases hflag : ∃ flag, doc.shape v = .scalar (.bool flag)
    · obtain ⟨flag, hshape⟩ := hflag
      exact .inl ⟨flag, .inr ⟨v, hfield, hshape⟩⟩
    · exact .inr ⟨v, hfield, not_exists.1 hflag⟩

theorem Document.HasNoFlag.not_hasFlag (h : doc.HasNoFlag entries key) (flag : Bool) :
    ¬ doc.HasFlag entries key flag := by
  obtain ⟨v, hfield, hshape⟩ := h
  rintro (⟨hnone, -⟩ | ⟨w, hsome, hflag⟩)
  · rw [hfield] at hnone
    cases hnone
  · obtain rfl := Option.some.inj (hfield.symm.trans hsome)
    exact hshape flag hflag

theorem Route.streaming?_eq_none (h : doc.HasNoFlag entries "sse") :
    streaming? doc entries = none := by
  rw [Option.eq_none_iff_forall_ne_some]
  intro flag hflag
  exact h.not_hasFlag flag (streaming?_eq_some_iff.1 hflag)

/-- A blank scalar is a false value of the document. -/
theorem Scalar.isBlank_iff {s : Scalar} :
    s.isBlank = true ↔ (Shape.scalar s : Shape Document.Value).IsFalsy := by
  constructor
  · intro h
    cases s with
    | null => exact .null
    | bool b =>
      obtain rfl : b = false := by simpa [isBlank] using h
      exact .false
    | int n =>
      obtain rfl : n = 0 := by simpa [isBlank] using h
      exact .zero
    | float x => exact .zeroFloat h
    | str s =>
      obtain rfl : s = "" := by simpa [isBlank] using h
      exact .emptyString
    | bytes b =>
      obtain rfl : b = [] := by simpa [isBlank] using h
      exact .emptyBytes
    | date _ => cases h
    | timestamp _ => cases h
  · intro h
    cases h with
    | zeroFloat hzero => exact hzero
    | _ => rfl

theorem Document.isSupplied_iff {v : Value} :
    isSupplied (doc.shape v) = true ↔ doc.Supplies v := by
  unfold Supplies
  cases doc.shape v with
  | scalar s =>
    rw [isSupplied, Bool.not_eq_true', ← Bool.not_eq_true, Scalar.isBlank_iff]
    simp
  | set members =>
    cases members with
    | nil => simp [isSupplied, Shape.IsFalsy.emptySet]
    | cons member rest => simpa [isSupplied] using nofun
  | list items =>
    cases items with
    | nil => simp [isSupplied, Shape.IsFalsy.emptyList]
    | cons item rest => simpa [isSupplied] using nofun
  | map entries => simp [isSupplied]
  | pair a b => simpa [isSupplied] using nofun
  | cycle => simpa [isSupplied] using nofun

end

/-! ## What always succeeds -/

section

variable {doc : Document} (hdoc : doc.isWithinLimit = true)

include hdoc

/-- A mapping of a document within the limit has keys and scalar values within the limit. -/
theorem Document.isWithinLimit_of_mem_map {v : Value} {entries : List (Scalar × Value)}
    (h : doc.shape v = .map entries) : ∀ entry ∈ entries,
      entry.1.isWithinLimit = true ∧ ∀ s, entry.2 = .scalar s → s.isWithinLimit = true := by
  intro entry hentry
  have hmapping : (doc.mapping? v).map Prod.snd = some entries := by
    rw [← Schema.entries?_shape, h]
    rfl
  obtain ⟨⟨id, inner⟩, hid, hinner⟩ := Option.map_eq_some_iff.1 hmapping
  obtain rfl : inner = entries := hinner
  obtain ⟨-, hnode⟩ := exists_node_of_mapping? hid
  have hlimit := isWithinLimit_of_mem_scalars hdoc hnode
  have hkey : entry.1 ∈ (Node.map inner).keys := List.mem_map_of_mem hentry
  refine ⟨hlimit entry.1 (by simp [Node.scalars, hkey]), fun s hs => hlimit s ?_⟩
  apply mem_scalars_of_mem_parts
  rw [← hs]
  exact List.mem_map_of_mem hentry

/-- Decoding a schema never runs into the limit of digits: of the numbers only the keys of
properties are written, and these are within the limit. -/
theorem Schema.decodeWithin_ne_digits (depth : Nat) (active : List Nat) (v : Document.Value)
    (limit : DigitLimit) : decodeWithin doc depth active v ≠ .error (.digits limit) := by
  induction depth generalizing active v with
  | zero =>
    intro h
    cases h
  | succ depth ih =>
    rw [decodeWithin]
    split
    · intro h
      cases h
    · next id entries hv =>
      split
      · intro h
        cases h
      · have hkeys : ∀ key ∈ (Layer.ofEntries doc.shape entries).names,
            key.isWithinLimit = true :=
          Layer.forall_names_ofEntries fun w inner hw entry hentry =>
            (Document.isWithinLimit_of_mem_map hdoc hw entry hentry).1
        refine Layer.decoded_ne_error (fun w => ih (id :: active) w) fun key hkey => ?_
        obtain ⟨name, hname⟩ := Scalar.exists_text (hkeys key hkey)
        rw [propertyName, hname]
        intro h
        cases h

/-- Every value is decoded as a schema. -/
theorem Schema.exists_ofDocument (v : Document.Value) :
    ∃ schema, ofDocument doc v = .ok schema := by
  unfold ofDocument
  cases hdecode : decodeWithin doc (doc.mappingCount + 1) [] v with
  | ok schema => exact ⟨schema, rfl⟩
  | error fault =>
    cases fault with
    | tooDeep => exact ⟨.unknown, rfl⟩
    | digits limit => exact absurd hdecode (decodeWithin_ne_digits hdoc _ _ _ _)

/-- A keyword is always decoded into a slot that matches the field, filled or not. -/
theorem RouteSlots.exists_slot? (keyword : String) (entries : List (Scalar × Document.Value)) :
    ∃ slot, slot? doc keyword entries = .ok slot ∧
      doc.SlotMatches (field? keyword entries) slot := by
  unfold slot?
  cases hfield : field? keyword entries with
  | none => exact ⟨none, rfl, by simp, nofun⟩
  | some v =>
    simp only
    split
    · next hsupplied =>
      obtain ⟨schema, hschema⟩ := Schema.exists_ofDocument hdoc v
      refine ⟨some schema, by rw [hschema]; rfl, ?_, ?_⟩
      · simpa using Document.isSupplied_iff.1 hsupplied
      · intro schema' hmem
        obtain rfl := Option.some.inj hmem
        exact ⟨v, rfl, hschema⟩
    · next hsupplied =>
      refine ⟨none, rfl, ?_, nofun⟩
      simpa using mt Document.isSupplied_iff.2 hsupplied

/-- The schemas of an entry are decoded, whatever stands in their place. -/
theorem RouteSlots.exists_ofDocument (entries : List (Scalar × Document.Value)) :
    ∃ slots, RouteSlots.ofDocument doc (field? "schema" entries) = .ok slots ∧
      doc.SlotMatches (doc.rawSlot? entries "body") slots.body ∧
      doc.SlotMatches (doc.rawSlot? entries "query") slots.query ∧
      doc.SlotMatches (doc.rawSlot? entries "params") slots.params ∧
      doc.SlotMatches (doc.rawSlot? entries "response") slots.response := by
  unfold RouteSlots.ofDocument Document.rawSlot? Schema.mapAt?
  split
  · next inner hinner =>
    obtain ⟨body, hbody, hbodyMatches⟩ := exists_slot? hdoc "body" inner
    obtain ⟨query, hquery, hqueryMatches⟩ := exists_slot? hdoc "query" inner
    obtain ⟨params, hparams, hparamsMatches⟩ := exists_slot? hdoc "params" inner
    obtain ⟨response, hresponse, hresponseMatches⟩ := exists_slot? hdoc "response" inner
    rw [hbody, hquery, hparams, hresponse, hinner]
    exact ⟨_, rfl, hbodyMatches, hqueryMatches, hparamsMatches, hresponseMatches⟩
  · next hother =>
    have hnone : doc.SlotMatches none none := ⟨by simp, nofun⟩
    split
    · next inner hinner => exact absurd hinner (hother inner)
    · exact ⟨.empty, rfl, hnone, hnone, hnone, hnone⟩

/-- A text is there, whatever stands in its place. -/
theorem Contract.exists_textAt {v : Document.Value} {entries : List (Scalar × Document.Value)}
    (hshape : doc.shape v = .map entries) (key : String) :
    ∃ text, textAt doc key entries = .ok text ∧ doc.HasText entries key text := by
  unfold textAt Document.HasText
  cases hfield : field? key entries with
  | none => exact ⟨"", rfl, .inl ⟨rfl, rfl⟩⟩
  | some w =>
    have hscalar : ∀ s, w = .scalar s → s.isWithinLimit = true :=
      Schema.forall_field? (P := fun v => ∀ s, v = .scalar s → s.isWithinLimit = true)
        (fun entry hentry => (Document.isWithinLimit_of_mem_map hdoc hshape entry hentry).2) hfield
    obtain ⟨text, htext⟩ := Document.exists_text hdoc hscalar
    exact ⟨text, htext, .inr ⟨w, rfl, htext⟩⟩

end

end TypedRoutes
