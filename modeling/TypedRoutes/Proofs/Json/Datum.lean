import TypedRoutes.Json.OfDatum
import TypedRoutes.Proofs.Json.ReadBack

/-!
# JSON values as data

The datum of a JSON value has that value as its JSON form (`toJson_toDatum`), and what a datum has
as its JSON form is a value whose integers are within the limit (`within_of_toJson`), so that its
text is read back.
-/

set_option autoImplicit false

namespace TypedRoutes

/-- A number within the limit is read as it is. -/
theorem withinLimit_eq_ok {α : Type} {x : Except DigitLimit α} {a : α} :
    withinLimit x = .ok a ↔ x = .ok a := by
  cases x with
  | error limit =>
    constructor
    · intro h
      cases h
    · intro h
      cases h
  | ok b => exact ⟨fun h => congrArg _ (Except.ok.inj h), fun h => congrArg _ (Except.ok.inj h)⟩

namespace Json

mutual

/-- The datum that a JSON value is. -/
def toDatum : Json → Datum
  | .null => .scalar .null
  | .bool b => .scalar (.bool b)
  | .int n => .scalar (.int n)
  | .float x => .scalar (.float x)
  | .str s => .scalar (.str s)
  | .array items => .list (toData items)
  | .object members => .map (toEntries members)

/-- The data that JSON values are. -/
def toData : List Json → List Datum
  | [] => []
  | item :: rest => item.toDatum :: toData rest

/-- The entries that the members of an object are. -/
def toEntries : List (String × Json) → List (Scalar × Datum)
  | [] => []
  | (name, value) :: rest => (.str name, value.toDatum) :: toEntries rest

end

/-! ## The JSON form of the datum of a value -/

theorem toJson_scalar (s : Scalar) : (Datum.scalar s).toJson = s.toJson := rfl

mutual

/-- The JSON form of the datum of a value is the value. -/
theorem toJson_toDatum : ∀ j : Json, j.Within → j.toDatum.toJson = .ok j
  | .null => fun _ => rfl
  | .bool _ => fun _ => rfl
  | .int n => by
    rintro ⟨⟩
    next h =>
    -- Only here may writing fail: the digits of the integer are counted.
    rw [toDatum, toJson_scalar, Scalar.toJson, integerText_eq_ok_iff.2 ⟨h, rfl⟩]
    rfl
  | .float _ => fun _ => rfl
  | .str _ => fun _ => rfl
  | .array items => by
    rintro ⟨⟩
    next h => exact Outcome.map_eq_ok.2 ⟨items, foldItems_toData items h, rfl⟩
  | .object members => by
    rintro ⟨⟩
    next h => exact Outcome.map_eq_ok.2 ⟨members, foldEntries_toEntries members h, rfl⟩

/-- The items of an array are written back from their data. -/
theorem foldItems_toData : ∀ items : List Json, (∀ item ∈ items, item.Within) →
    Datum.foldItems Datum.jsonFold (toData items) = .ok items
  | [] => fun _ => rfl
  | item :: rest => by
    intro h
    rw [List.forall_mem_cons] at h
    exact Outcome.seq_eq_ok.2
      ⟨item, rest, toJson_toDatum item h.1, foldItems_toData rest h.2, rfl⟩

theorem foldEntries_toEntries : ∀ members : List (String × Json), (∀ m ∈ members, m.2.Within) →
    Datum.foldEntries Datum.jsonFold (toEntries members) = .ok members
  | [] => fun _ => rfl
  | (name, item) :: rest => by
    intro h
    rw [List.forall_mem_cons] at h
    exact Outcome.bind_eq_ok.2 ⟨name, rfl, Outcome.seq_eq_ok.2
      ⟨item, rest, toJson_toDatum item h.1, foldEntries_toEntries rest h.2, rfl⟩⟩

end

end Json

/-! ## JSON forms -/

/-- The JSON values of atomic values: what JSON has no values for becomes a string. -/
inductive Scalar.HasForm : Scalar → Json → Prop
  | null : HasForm .null .null
  | bool (b : Bool) : HasForm (.bool b) (.bool b)
  | int {n : Int} (h : n.natAbs < tenTo digitLimit) : HasForm (.int n) (.int n)
  | float (x : Binary64) : HasForm (.float x) (.float x)
  | str {s : Scalar} (hs : ∀ x, s ≠ .float x) (text : String) : HasForm s (.str text)

/-- A scalar is written in the form of its kind. -/
theorem Scalar.hasForm_of_toJson {s : Scalar} {j : Json} (h : s.toJson = .ok j) :
    s.HasForm j := by
  cases s with
  | null =>
    obtain rfl := Except.ok.inj h
    exact .null
  | bool b =>
    obtain rfl := Except.ok.inj h
    exact .bool b
  | int n =>
    rw [Scalar.toJson, withinLimit_eq_ok] at h
    obtain ⟨text, htext, rfl⟩ := Outcome.map_eq_ok.1 h
    exact .int (integerText_eq_ok_iff.1 htext).1
  | float x =>
    obtain rfl := Except.ok.inj h
    exact .float x
  | str s =>
    obtain rfl := Except.ok.inj h
    refine .str ?_ s
    exact nofun
  | _ =>
    simp only [Scalar.toJson, withinLimit_eq_ok] at h
    obtain ⟨text, -, rfl⟩ := Outcome.map_eq_ok.1 h
    refine .str ?_ text
    exact nofun

namespace Datum

/-- A set is written as a string. -/
theorem exists_str_of_toJson_set {members : List Scalar} {j : Json}
    (h : (set members).toJson = .ok j) : ∃ text, j = .str text := by
  rw [toJson, fold, jsonFold, withinLimit_eq_ok] at h
  obtain ⟨text, -, rfl⟩ := Outcome.map_eq_ok.1 h
  exact ⟨text, rfl⟩

/-- A pair is written as an array of two. -/
theorem exists_array_of_toJson_pair {a b : Datum} {j : Json} (h : (pair a b).toJson = .ok j) :
    ∃ first second, a.toJson = .ok first ∧ b.toJson = .ok second ∧ j = .array [first, second] := by
  obtain ⟨first, second, hfirst, hsecond, rfl⟩ := Outcome.seq_eq_ok.1 h
  exact ⟨first, second, hfirst, hsecond, rfl⟩

/-- Items are written one after the other, and each of them must be. -/
theorem exists_cons_of_foldItems {ε β : Type} {f : Fold ε β} {item : Datum} {rest : List Datum}
    {bs : List β} (h : foldItems f (item :: rest) = .ok bs) :
    ∃ first others, fold f item = .ok first ∧ foldItems f rest = .ok others ∧
      bs = first :: others := by
  obtain ⟨first, others, hfirst, hothers, rfl⟩ := Outcome.seq_eq_ok.1 h
  exact ⟨first, others, hfirst, hothers, rfl⟩

/-- Entries are written one after the other: the name of the key and the value must both be
there. -/
theorem exists_cons_of_foldEntries {ε β : Type} {f : Fold ε β} {key : Scalar} {value : Datum}
    {rest : List (Scalar × Datum)} {bs : List (String × β)}
    (h : foldEntries f ((key, value) :: rest) = .ok bs) :
    ∃ name first others, fold f value = .ok first ∧ foldEntries f rest = .ok others ∧
      bs = (name, first) :: others := by
  obtain ⟨name, -, h⟩ := Outcome.bind_eq_ok.1 h
  obtain ⟨first, others, hfirst, hothers, rfl⟩ := Outcome.seq_eq_ok.1 h
  exact ⟨name, first, others, hfirst, hothers, rfl⟩

mutual

/-- The integers of a JSON form are within the limit. -/
theorem within_of_toJson : ∀ (d : Datum) {j : Json}, d.toJson = .ok j → j.Within
  | .scalar s => by
    intro h
    cases Scalar.hasForm_of_toJson h with
    | null => exact .null
    | bool b => exact .bool b
    | int hlimit => exact .int hlimit
    | float x => exact .float x
    | str _ text => exact .str text
  | .set _ => by
    intro h
    obtain ⟨text, rfl⟩ := exists_str_of_toJson_set h
    exact .str text
  | .pair a b => by
    intro h
    obtain ⟨first, second, hfirst, hsecond, rfl⟩ := exists_array_of_toJson_pair h
    refine .array (List.forall_mem_cons.2 ⟨within_of_toJson a hfirst, ?_⟩)
    exact List.forall_mem_singleton.2 (within_of_toJson b hsecond)
  | .list items => by
    intro h
    obtain ⟨js, hjs, rfl⟩ := Outcome.map_eq_ok.1 h
    exact .array (within_of_foldItems items hjs)
  | .map entries => by
    intro h
    obtain ⟨ms, hms, rfl⟩ := Outcome.map_eq_ok.1 h
    exact .object (within_of_foldEntries entries hms)
  | .cycle _ => nofun

/-- What items are written as is within the range of JSON numbers. -/
theorem within_of_foldItems : ∀ (items : List Datum) {js : List Json},
    foldItems jsonFold items = .ok js → ∀ j ∈ js, j.Within
  | [] => by
    intro h
    obtain rfl := Except.ok.inj h
    simp
  | item :: rest => by
    intro h
    obtain ⟨first, others, hfirst, hothers, rfl⟩ := exists_cons_of_foldItems h
    exact List.forall_mem_cons.2 ⟨within_of_toJson item hfirst, within_of_foldItems rest hothers⟩

theorem within_of_foldEntries : ∀ (entries : List (Scalar × Datum)) {ms : List (String × Json)},
    foldEntries jsonFold entries = .ok ms → ∀ m ∈ ms, m.2.Within
  | [] => by
    intro h
    obtain rfl := Except.ok.inj h
    simp
  | (key, value) :: rest => by
    intro h
    obtain ⟨name, first, others, hfirst, hothers, rfl⟩ := exists_cons_of_foldEntries h
    exact List.forall_mem_cons.2
      ⟨within_of_toJson value hfirst, within_of_foldEntries rest hothers⟩

end

end Datum
end TypedRoutes
