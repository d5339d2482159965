import TypedRoutes.Proofs.Document.Nodes
import TypedRoutes.Proofs.Schema.Named
import TypedRoutes.Proofs.Schema.View
import TypedRoutes.Schema.OfDocument

/-!
# Schemas of cyclic documents

The cut unfolding of a value is the tree of the schema mappings below it, in which a mapping that is
met again on its own way is replaced by a mark (`Schema.cutUnfolding`). Values that are not looked
at as schemas stay as they are. Trees are decoded without regard to what has been met
(`Schema.decodePlain`), and decoding a value of a document is decoding its cut unfolding
(`decodeWithin_eq_decodePlain`). No more nested steps are needed than there are mappings, and one
(`decodeWithin_ne_tooDeep`).
-/

set_option autoImplicit false

namespace TypedRoutes

/-- A shape whose parts are changed. -/
def Shape.mapParts {α β : Type} (f : α → β) : Shape α → Shape β
  | .scalar s => .scalar s
  | .set members => .set members
  | .pair a b => .pair (f a) (f b)
  | .list items => .list (items.map f)
  | .map entries => .map (entries.map fun (key, v) => (key, f v))
  | .cycle => .cycle

section

variable {α β : Type} (f : α → β) (s : Shape α)

theorem Shape.items?_mapParts : (s.mapParts f).items? = s.items?.map (·.map f) := by
  cases s <;> rfl

theorem Shape.entries?_mapParts :
    (s.mapParts f).entries? = s.entries?.map (·.map fun (key, v) => (key, f v)) := by
  cases s <;> rfl

end

namespace Schema

/-! ## Trees of schemas -/

/-- A tree over the values of a document: a value that is kept as it is, or a list or a mapping of
the tree itself. -/
inductive Unfolding where
  | kept (value : Document.Value)
  | list (items : List Unfolding)
  | map (entries : List (Scalar × Unfolding))

namespace Unfolding

variable (doc : Document)

/-- The head of a tree. -/
def shape : Unfolding → Shape Unfolding
  | .kept v => (doc.shape v).mapParts .kept
  | .list items => .list items
  | .map entries => .map entries

mutual

/-- The datum that a tree is. -/
def datum : Unfolding → Datum
  | .kept v => doc.unfold v
  | .list items => .list (data items)
  | .map entries => .map (dataEntries entries)

/-- The data that trees are. -/
def data : List Unfolding → List Datum
  | [] => []
  | item :: rest => item.datum :: data rest

/-- The entries that entries with trees are. -/
def dataEntries : List (Scalar × Unfolding) → List (Scalar × Datum)
  | [] => []
  | (key, value) :: rest => (key, value.datum) :: dataEntries rest

end

/-- The literal that a tree is. -/
def literal (tree : Unfolding) : Literal := .ofDatum (tree.datum doc)

theorem literal_kept (v : Document.Value) : literal doc (.kept v) = Literal.ofDocument doc v :=
  (Literal.ofDocument_eq doc v).symm

theorem string?_kept (v : Document.Value) :
    string? (shape doc) (.kept v) = string? doc.shape v := by
  rw [string?, string?, shape]
  cases doc.shape v with
  | scalar s => cases s <;> rfl
  | _ => rfl

theorem isNull_kept (v : Document.Value) : isNull (shape doc) (.kept v) = isNull doc.shape v := by
  rw [isNull, isNull, shape]
  cases doc.shape v with
  | scalar s => cases s <;> rfl
  | _ => rfl

theorem items?_kept (v : Document.Value) :
    (shape doc (.kept v)).items? = (doc.shape v).items?.map (·.map .kept) :=
  Shape.items?_mapParts _ _

theorem entries?_kept (v : Document.Value) : (shape doc (.kept v)).entries? =
    (doc.shape v).entries?.map (·.map fun (key, value) => (key, .kept value)) :=
  Shape.entries?_mapParts _ _

end Unfolding

/-- Decodes a value in at most `depth` nested steps, whatever mappings have been met before. -/
def decodePlain {α : Type} (shape : α → Shape α) (literal : α → Literal) :
    (depth : Nat) → α → Except DecodeFault Schema
  | 0, _ => .error .tooDeep
  | depth + 1, v =>
    match (shape v).entries? with
    | none => .ok .unknown
    | some entries =>
      (Layer.ofEntries shape entries).decoded literal propertyName
        (decodePlain shape literal depth)

/-- What stands for the value under a key: schemas are unfolded in the places where values are
looked at as schemas. -/
def Role.unfolding (doc : Document) (below : Document.Value → Unfolding) (v : Document.Value) :
    Role → Unfolding
  | .plain => .kept v
  | .schema => below v
  | .schemas =>
    match (doc.shape v).items? with
    | some items => .list (items.map below)
    | none => .kept v
  | .properties =>
    match (doc.shape v).entries? with
    | some entries => .map (entries.map fun (key, value) => (key, below value))
    | none => .kept v
  | .patterns =>
    match (doc.shape v).entries? with
    | some ((key, value) :: rest) =>
      .map ((key, below value) :: rest.map fun (key, value) => (key, .kept value))
    | _ => .kept v

/-- The tree of the schema mappings below a value, for as many nested mappings as `depth` allows. A
mapping among the active ones is replaced by the mark. -/
def unfoldingWithin (doc : Document) (mark : Document.Value) :
    (depth : Nat) → (active : List Nat) → Document.Value → Unfolding
  | 0, _, v => .kept v
  | depth + 1, active, v =>
    match doc.mapping? v with
    | none => .kept v
    | some (id, entries) =>
      if id ∈ active then .kept mark
      else .map (entries.map fun (key, value) =>
        (key, (Role.ofKey key).unfolding doc (unfoldingWithin doc mark depth (id :: active)) value))

/-- The cut unfolding of a value: no way through it goes through more mappings than there are. -/
def cutUnfolding (doc : Document) (mark v : Document.Value) : Unfolding :=
  unfoldingWithin doc mark (doc.mappingCount + 1) [] v

/-! ## Decoding -/

section

variable {doc : Document} {mark v : Document.Value} {depth : Nat} {active : List Nat}

theorem entries?_shape : (doc.shape v).entries? = (doc.mapping? v).map Prod.snd := by
  unfold Document.shape Document.mapping?
  cases v with
  | scalar s => rfl
  | node id =>
    cases hnode : doc.nodes[id]? with
    | none => simp [hnode, Shape.entries?]
    | some node => cases node <;> simp [hnode, Shape.entries?]

/-- Decoded to a positive depth, a value that is no mapping gives the unknown schema. -/
theorem ignoresOthers_decodeWithin (depth : Nat) (active : List Nat) :
    IgnoresOthers doc.shape (decodeWithin doc (depth + 1) active) := by
  intro v hentries
  rw [entries?_shape, Option.map_eq_none_iff] at hentries
  rw [decodeWithin, hentries]

theorem ignoresOthers_decodePlain {α : Type} {shape : α → Shape α} {literal : α → Literal}
    (depth : Nat) : IgnoresOthers shape (decodePlain shape literal (depth + 1)) := by
  intro v hentries
  rw [decodePlain, hentries]

/-- What is unfolded in a role agrees with the value in this role if it does where it is a
schema. -/
theorem agrees_unfolding {decode : Document.Value → Except DecodeFault Schema}
    {decode' : Unfolding → Except DecodeFault Schema} {below : Document.Value → Unfolding}
    (hnull : ∀ v, isNull doc.shape v = isNull (Unfolding.shape doc) (below v))
    (hdecode : ∀ v, decode v = decode' (below v)) (role : Role) (v : Document.Value) :
    role.Agrees doc.shape (Unfolding.shape doc) (Literal.ofDocument doc) (Unfolding.literal doc)
      decode decode' v (role.unfolding doc below v) := by
  -- Under each role the unfolding keeps what is not decoded and unfolds what is.
  cases role with
  | plain =>
    refine ⟨(Unfolding.literal_kept doc v).symm, (Unfolding.string?_kept doc v).symm, ?_, ?_⟩
    · simp [Role.unfolding, Unfolding.items?_kept, Function.comp_def, Unfolding.literal_kept]
    · simp [Role.unfolding, Unfolding.items?_kept, Function.comp_def, Unfolding.string?_kept]
  | schema => exact ⟨hnull v, hdecode v⟩
  | schemas =>
    simp only [Role.Agrees, Role.unfolding]
    cases hitems : (doc.shape v).items? with
    | none => simp [Unfolding.items?_kept, hitems]
    | some items => simp [Unfolding.shape, Shape.items?, hdecode]
  | properties =>
    simp only [Role.Agrees, Role.unfolding]
    cases hentries : (doc.shape v).entries? with
    | none => simp [Unfolding.entries?_kept, hentries]
    | some entries => simp [Unfolding.shape, Shape.entries?, hdecode]
  | patterns =>
    simp only [Role.Agrees, Role.unfolding]
    cases hentries : (doc.shape v).entries? with
    | none => simp [Unfolding.entries?_kept, hentries]
    | some entries =>
      cases entries with
      | nil => simp [Unfolding.entries?_kept, hentries]
      | cons first rest => simp [Unfolding.shape, Shape.entries?, hdecode]

/-- A mapping and its unfolding have the same view. -/
theorem ofEntries_unfolding {decode : Document.Value → Except DecodeFault Schema}
    {decode' : Unfolding → Except DecodeFault Schema} {below : Document.Value → Unfolding}
    (hnull : ∀ v, isNull doc.shape v = isNull (Unfolding.shape doc) (below v))
    (hdecode : ∀ v, decode v = decode' (below v)) (entries : List (Scalar × Document.Value)) :
    View.ofEntries doc.shape (Literal.ofDocument doc) decode entries =
      View.ofEntries (Unfolding.shape doc) (Unfolding.literal doc) decode'
        (entries.map fun (key, value) => (key, (Role.ofKey key).unfolding doc below value)) := by
  apply View.ofEntries_congr
  rw [List.forall₂_map_right_iff, List.forall₂_same]
  exact fun entry _ => ⟨rfl, agrees_unfolding hnull hdecode (Role.ofKey entry.1) entry.2⟩

/-- A tree is null where its value is. -/
theorem isNull_unfoldingWithin (hmark : isNull doc.shape mark = false) (depth : Nat)
    (active : List Nat) (v : Document.Value) :
    isNull doc.shape v =
      isNull (Unfolding.shape doc) (unfoldingWithin doc mark depth active v) := by
  cases depth with
  | zero => exact (Unfolding.isNull_kept doc v).symm
  | succ depth =>
    rw [unfoldingWithin]
    cases hmapping : doc.mapping? v with
    | none => exact (Unfolding.isNull_kept doc v).symm
    | some mapping =>
      obtain ⟨id, entries⟩ := mapping
      have hentries : (doc.shape v).entries? = some entries := by
        rw [entries?_shape, hmapping]
        rfl
      -- A mapping is not null, and neither is a map or the mark that stands for it.
      have hv : isNull doc.shape v = false := by
        rw [isNull]
        split
        · next hnull =>
          rw [hnull] at hentries
          cases hentries
        · rfl
      rw [hv]
      dsimp only
      split
      · rw [Unfolding.isNull_kept, hmark]
      · rfl

/-- Decoding a value is decoding its unfolding, in which nothing has to be remembered. -/
theorem decodeWithin_eq_decodePlain (hmapping : doc.mapping? mark = none)
    (hmark : isNull doc.shape mark = false) (hdepth : doc.idle Document.Node.isMap active < depth) :
    decodeWithin doc depth active v =
      decodePlain (Unfolding.shape doc) (Unfolding.literal doc) depth
        (unfoldingWithin doc mark depth active v) := by
  induction depth generalizing active v with
  | zero => exact absurd hdepth (Nat.not_lt_zero _)
  | succ depth ih =>
    have hkept {w : Document.Value} (hw : doc.mapping? w = none) :
        (Unfolding.shape doc (.kept w)).entries? = none := by
      rw [Unfolding.entries?_kept, entries?_shape, hw]
      rfl
    rw [decodeWithin, unfoldingWithin, decodePlain]
    cases hv : doc.mapping? v with
    | none => simp only [hkept hv]
    | some mapping =>
      obtain ⟨id, entries⟩ := mapping
      dsimp only
      by_cases hactive : id ∈ active
      -- The mark that stands here is no schema, as a mapping that is met again is none.
      · simp only [if_pos hactive, hkept hmapping]
      · obtain ⟨-, hnode⟩ := Document.exists_node_of_mapping? hv
        have hless : doc.idle Document.Node.isMap (id :: active) <
          doc.idle Document.Node.isMap active := Document.idle_cons_lt hnode rfl hactive
        obtain ⟨below, rfl⟩ := Nat.exists_eq_add_of_le' (show 1 ≤ depth by omega)
        have hview := ofEntries_unfolding (isNull_unfoldingWithin hmark (below + 1) (id :: active))
          (fun w => ih (by omega)) entries
        simp only [if_neg hactive]
        rw [Layer.decoded_ofEntries (ignoresOthers_decodeWithin below (id :: active)), hview]
        exact (Layer.decoded_ofEntries (ignoresOthers_decodePlain below)).symm

/-! ## Nested steps -/

theorem propertyName_ne_tooDeep (key : Scalar) : propertyName key ≠ .error .tooDeep := by
  unfold propertyName
  split
  · exact nofun
  · exact nofun

/-- One step for each mapping that is not active, and one more, are enough. -/
theorem decodeWithin_ne_tooDeep (hdepth : doc.idle Document.Node.isMap active < depth) :
    decodeWithin doc depth active v ≠ .error .tooDeep := by
  induction depth generalizing active v with
  | zero => exact absurd hdepth (Nat.not_lt_zero _)
  | succ depth ih =>
    rw [decodeWithin]
    split
    · exact nofun
    · next id entries hv =>
      split
      · exact nofun
      · next hactive =>
        obtain ⟨-, hnode⟩ := Document.exists_node_of_mapping? hv
        have hless : doc.idle Document.Node.isMap (id :: active) <
          doc.idle Document.Node.isMap active := Document.idle_cons_lt hnode rfl hactive
        exact Layer.decoded_ne_error (fun w => ih (by omega)) fun key _ =>
          propertyName_ne_tooDeep key

/-- More steps than enough make no difference. -/
theorem decodeWithin_eq_of_idle_lt {deeper : Nat}
    (hdepth : doc.idle Document.Node.isMap active < depth) (hle : depth ≤ deeper) :
    decodeWithin doc deeper active v = decodeWithin doc depth active v := by
  induction depth generalizing active v deeper with
  | zero => exact absurd hdepth (Nat.not_lt_zero _)
  | succ depth ih =>
    obtain ⟨deeper, rfl⟩ := Nat.exists_eq_add_of_le' (show 1 ≤ deeper by omega)
    rw [decodeWithin, decodeWithin]
    split
    · rfl
    · next id entries hv =>
      split
      · rfl
      · next hactive =>
        obtain ⟨-, hnode⟩ := Document.exists_node_of_mapping? hv
        have hless : doc.idle Document.Node.isMap (id :: active) <
          doc.idle Document.Node.isMap active := Document.idle_cons_lt hnode rfl hactive
        have hbelow : decodeWithin doc deeper (id :: active) =
          decodeWithin doc depth (id :: active) := funext fun w => ih (by omega) (by omega)
        rw [hbelow]

/-- More fuel than there are idle mappings changes nothing in the unfolding. -/
theorem unfoldingWithin_eq_of_idle_lt {deeper : Nat}
    (hdepth : doc.idle Document.Node.isMap active < depth) (hle : depth ≤ deeper) :
    unfoldingWithin doc mark deeper active v = unfoldingWithin doc mark depth active v := by
  induction depth generalizing active v deeper with
  | zero => exact absurd hdepth (Nat.not_lt_zero _)
  | succ depth ih =>
    obtain ⟨deeper, rfl⟩ := Nat.exists_eq_add_of_le' (show 1 ≤ deeper by omega)
    rw [unfoldingWithin, unfoldingWithin]
    split
    · rfl
    · next id entries hv =>
      split
      · rfl
      · next hactive =>
        obtain ⟨-, hnode⟩ := Document.exists_node_of_mapping? hv
        have hless : doc.idle Document.Node.isMap (id :: active) <
          doc.idle Document.Node.isMap active := Document.idle_cons_lt hnode rfl hactive
        have hbelow : unfoldingWithin doc mark deeper (id :: active) =
          unfoldingWithin doc mark depth (id :: active) := funext fun w => ih (by omega) (by omega)
        rw [hbelow]

theorem decodeWithin_eq_of_mappingCount_lt (hdepth : doc.mappingCount < depth) :
    decodeWithin doc depth [] v = decodeWithin doc (doc.mappingCount + 1) [] v :=
  decodeWithin_eq_of_idle_lt doc.idle_isMap_nil_lt hdepth

/-- With more fuel than mappings, the unfolding is the one that is cut at cycles only. -/
theorem unfoldingWithin_eq_cutUnfolding (hdepth : doc.mappingCount < depth) :
    unfoldingWithin doc mark depth [] v = cutUnfolding doc mark v :=
  unfoldingWithin_eq_of_idle_lt doc.idle_isMap_nil_lt hdepth

end

end Schema
end TypedRoutes
