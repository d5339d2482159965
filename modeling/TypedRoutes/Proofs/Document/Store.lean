import TypedRoutes.Document
import TypedRoutes.Proofs.Document.Extension
import TypedRoutes.Proofs.Json.Datum
import TypedRoutes.Proofs.Json.Parsed

/-!
# Documents of JSON values

`Document.store` puts inner containers before outer ones, so a reference in a node is to an earlier
node (`Stands`). Storing a value keeps what is in the table, and every node of the table stands for
a JSON value (`stored_store`). So the tree below a value is the datum of the JSON value that it
stands for (`unfold_of_stands`): nothing is cut.
-/

set_option autoImplicit false

namespace TypedRoutes.Document

mutual

/-- The value stands for the JSON value: it refers to a node below the bound, and what is in that
node stands for the parts and refers to nodes below it. -/
def Stands (nodes : Array Node) : Json → (bound : Nat) → Value → Prop
  | .null, _, v => v = .scalar .null
  | .bool b, _, v => v = .scalar (.bool b)
  | .int n, _, v => v = .scalar (.int n)
  | .float x, _, v => v = .scalar (.float x)
  | .str s, _, v => v = .scalar (.str s)
  | .array items, bound, v => ∃ id values, v = .node id ∧ id < bound ∧
      nodes[id]? = some (.list values) ∧ ItemsStand nodes items id values
  | .object members, bound, v => ∃ id entries, v = .node id ∧ id < bound ∧
      nodes[id]? = some (.map entries) ∧ MembersStand nodes members id entries

/-- The values stand for the items of an array. -/
def ItemsStand (nodes : Array Node) : List Json → (bound : Nat) → List Value → Prop
  | [], _, vs => vs = []
  | item :: rest, bound, vs => ∃ v others, vs = v :: others ∧
      Stands nodes item bound v ∧ ItemsStand nodes rest bound others

/-- The entries stand for the members of an object. -/
def MembersStand (nodes : Array Node) :
    List (String × Json) → (bound : Nat) → List (Scalar × Value) → Prop
  | [], _, es => es = []
  | (name, item) :: rest, bound, es => ∃ v others, es = (.str name, v) :: others ∧
      Stands nodes item bound v ∧ MembersStand nodes rest bound others

end

/-- Every node of the table stands for a well-formed JSON value. -/
def Stored (nodes : Array Node) : Prop :=
  ∀ (id : Nat) (node : Node), nodes[id]? = some node →
    ∃ j : Json, j.WellFormed ∧ Stands nodes j (id + 1) (.node id)

variable {nodes more : Array Node}

/-! ## Larger tables -/

mutual

/-- In a larger table a value stands for the same JSON value. -/
theorem Stands.mono (hmore : Extends nodes more) : ∀ (j : Json) {bound larger : Nat} {v : Value},
    bound ≤ larger → Stands nodes j bound v → Stands more j larger v
  | .null => fun _ h => h
  | .bool _ => fun _ h => h
  | .int _ => fun _ h => h
  | .float _ => fun _ h => h
  | .str _ => fun _ h => h
  -- Below the node the bound is the node itself, in both tables.
  | .array items => by
    rintro hle ⟨id, values, rfl, hlt, hnode, hitems⟩
    exact ⟨id, values, rfl, Nat.lt_of_lt_of_le hlt hle, hmore.2 id _ hnode,
      ItemsStand.mono hmore items (Nat.le_refl id) hitems⟩
  | .object members => by
    rintro hle ⟨id, entries, rfl, hlt, hnode, hmembers⟩
    exact ⟨id, entries, rfl, Nat.lt_of_lt_of_le hlt hle, hmore.2 id _ hnode,
      MembersStand.mono hmore members (Nat.le_refl id) hmembers⟩

/-- Items that stand in the nodes stand in every extension of them, also under a larger bound. -/
theorem ItemsStand.mono (hmore : Extends nodes more) : ∀ (items : List Json) {bound larger : Nat}
    {vs : List Value}, bound ≤ larger → ItemsStand nodes items bound vs →
      ItemsStand more items larger vs
  | [] => fun _ h => h
  | item :: rest => by
    rintro hle ⟨v, others, rfl, hitem, hrest⟩
    exact ⟨v, others, rfl, Stands.mono hmore item hle hitem,
      ItemsStand.mono hmore rest hle hrest⟩

theorem MembersStand.mono (hmore : Extends nodes more) : ∀ (members : List (String × Json))
    {bound larger : Nat} {es : List (Scalar × Value)}, bound ≤ larger →
      MembersStand nodes members bound es → MembersStand more members larger es
  | [] => fun _ h => h
  | (name, item) :: rest => by
    rintro hle ⟨v, others, rfl, hitem, hrest⟩
    exact ⟨v, others, rfl, Stands.mono hmore item hle hitem,
      MembersStand.mono hmore rest hle hrest⟩

end

/-- A node may be stored whose JSON value stands under the bound behind it. -/
theorem Stored.push {node : Node} {j : Json} (h : Stored nodes) (hj : j.WellFormed)
    (hstands : Stands (nodes.push node) j (nodes.size + 1) (.node nodes.size)) :
    Stored (nodes.push node) := by
  intro id found hfound
  rw [Array.getElem?_push] at hfound
  split at hfound
  -- The new node stands for the given value, the others for what they stood for.
  · next heq =>
    subst heq
    exact ⟨j, hj, hstands⟩
  · obtain ⟨k, hk, hold⟩ := h id found hfound
    exact ⟨k, hk, hold.mono (extends_push nodes node) k (Nat.le_refl _)⟩

/-! ## Storing -/

mutual

/-- Storing a JSON value keeps the table, and the result stands for the value. -/
theorem stored_store : ∀ (j : Json) {nodes : Array Node}, j.WellFormed → Stored nodes →
    Extends nodes (store nodes j).1 ∧ Stored (store nodes j).1 ∧
      Stands (store nodes j).1 j (store nodes j).1.size (store nodes j).2
  | .null => fun _ h => ⟨.refl _, h, rfl⟩
  | .bool _ => fun _ h => ⟨.refl _, h, rfl⟩
  | .int _ => fun _ h => ⟨.refl _, h, rfl⟩
  | .float _ => fun _ h => ⟨.refl _, h, rfl⟩
  | .str _ => fun _ h => ⟨.refl _, h, rfl⟩
  | .array items => by
    intro hj h
    obtain ⟨hmore, hstored, hitems⟩ := stored_storeItems items (Json.wellFormed_array.1 hj) h
    -- The items are in the table before the node of the array is pushed.
    rw [store]
    generalize storeItems _ items = result at hmore hstored hitems ⊢
    obtain ⟨after, values⟩ := result
    have hpush := extends_push after (.list values)
    have hstands : Stands (after.push (.list values)) (.array items) (after.size + 1)
        (.node after.size) :=
      ⟨after.size, values, rfl, Nat.lt_succ_self _, by simp,
        ItemsStand.mono hpush items (Nat.le_refl _) hitems⟩
    refine ⟨hmore.trans hpush, hstored.push hj hstands, ?_⟩
    simpa using hstands
  | .object members => by
    intro hj h
    obtain ⟨hmore, hstored, hmembers⟩ :=
      stored_storeMembers members (Json.wellFormed_object.1 hj).2 h
    rw [store]
    generalize storeMembers _ members = result at hmore hstored hmembers ⊢
    obtain ⟨after, entries⟩ := result
    have hpush := extends_push after (.map entries)
    have hstands : Stands (after.push (.map entries)) (.object members) (after.size + 1)
        (.node after.size) :=
      ⟨after.size, entries, rfl, Nat.lt_succ_self _, by simp,
        MembersStand.mono hpush members (Nat.le_refl _) hmembers⟩
    refine ⟨hmore.trans hpush, hstored.push hj hstands, ?_⟩
    simpa using hstands

/-- Storing the items of an array extends the nodes and leaves the items standing in them. -/
theorem stored_storeItems : ∀ (items : List Json) {nodes : Array Node},
    (∀ item ∈ items, item.WellFormed) → Stored nodes →
      Extends nodes (storeItems nodes items).1 ∧ Stored (storeItems nodes items).1 ∧
        ItemsStand (storeItems nodes items).1 items (storeItems nodes items).1.size
          (storeItems nodes items).2
  | [] => fun _ h => ⟨.refl _, h, rfl⟩
  | item :: rest => by
    intro hj h
    rw [List.forall_mem_cons] at hj
    obtain ⟨hfirst, hstored, hitem⟩ := stored_store item hj.1 h
    obtain ⟨hothers, hstored, hrest⟩ := stored_storeItems rest hj.2 hstored
    -- The first item still stands for the same value after the others are stored.
    exact ⟨hfirst.trans hothers, hstored, _, _, rfl,
      Stands.mono hothers item hothers.1 hitem, hrest⟩

theorem stored_storeMembers : ∀ (members : List (String × Json)) {nodes : Array Node},
    (∀ m ∈ members, m.2.WellFormed) → Stored nodes →
      Extends nodes (storeMembers nodes members).1 ∧ Stored (storeMembers nodes members).1 ∧
        MembersStand (storeMembers nodes members).1 members (storeMembers nodes members).1.size
          (storeMembers nodes members).2
  | [] => fun _ h => ⟨.refl _, h, rfl⟩
  | (name, item) :: rest => by
    intro hj h
    rw [List.forall_mem_cons] at hj
    obtain ⟨hfirst, hstored, hitem⟩ := stored_store item hj.1 h
    obtain ⟨hothers, hstored, hrest⟩ := stored_storeMembers rest hj.2 hstored
    exact ⟨hfirst.trans hothers, hstored, _, _, rfl,
      Stands.mono hothers item hothers.1 hitem, hrest⟩

end

/-- Every node of the document of a JSON value stands for one. -/
theorem stored_ofJson {j : Json} (h : j.WellFormed) : Stored (ofJson j).nodes := by
  have hempty : Stored #[] := by simp [Stored]
  exact (stored_store j h hempty).2.1

/-! ## Trees -/

section Trees

variable {doc : Document}

mutual

/-- No node that is being unfolded is met again, because nodes only become smaller. -/
theorem unfoldWithin_of_stands : ∀ (j : Json) (depth : Nat) (active : List Nat) (bound : Nat)
    (v : Value), Stands doc.nodes j bound v → bound ≤ depth → (∀ id ∈ active, bound ≤ id) →
      doc.unfoldWithin depth active v = j.toDatum
  | .null => fun depth active _ _ => by
    rintro h - -
    rw [show _ = _ from h, unfoldWithin, Json.toDatum]
  | .bool b => fun depth active _ _ => by
    rintro h - -
    rw [show _ = _ from h, unfoldWithin, Json.toDatum]
  | .int n => fun depth active _ _ => by
    rintro h - -
    rw [show _ = _ from h, unfoldWithin, Json.toDatum]
  | .float x => fun depth active _ _ => by
    rintro h - -
    rw [show _ = _ from h, unfoldWithin, Json.toDatum]
  | .str s => fun depth active _ _ => by
    rintro h - -
    rw [show _ = _ from h, unfoldWithin, Json.toDatum]
  | .array items => fun depth active _ _ => by
    rintro ⟨id, values, rfl, hlt, hnode, hitems⟩ hdepth hactive
    obtain ⟨d, rfl⟩ := Nat.exists_eq_add_of_le' (show 1 ≤ depth by omega)
    -- The node is below the active ones, and is the bound for what is inside it.
    have hfresh : id ∉ active := fun hmem => Nat.not_lt.2 (hactive id hmem) hlt
    have hbelow : ∀ other ∈ id :: active, id ≤ other := List.forall_mem_cons.2
      ⟨Nat.le_refl id, fun other hmem => Nat.le_trans hlt.le (hactive other hmem)⟩
    rw [unfoldWithin, hnode]
    dsimp only
    rw [if_neg hfresh, map_unfoldWithin items d _ _ _ hitems (by omega) hbelow, Json.toDatum]
  | .object members => fun depth active _ _ => by
    rintro ⟨id, entries, rfl, hlt, hnode, hmembers⟩ hdepth hactive
    obtain ⟨d, rfl⟩ := Nat.exists_eq_add_of_le' (show 1 ≤ depth by omega)
    have hfresh : id ∉ active := fun hmem => Nat.not_lt.2 (hactive id hmem) hlt
    have hbelow : ∀ other ∈ id :: active, id ≤ other := List.forall_mem_cons.2
      ⟨Nat.le_refl id, fun other hmem => Nat.le_trans hlt.le (hactive other hmem)⟩
    rw [unfoldWithin, hnode]
    dsimp only
    rw [if_neg hfresh, map_unfoldWithin_entries members d _ _ _ hmembers (by omega) hbelow,
      Json.toDatum]

/-- Unfolding the items that stand in a document gives the data of the JSON values. -/
theorem map_unfoldWithin : ∀ (items : List Json) (depth : Nat) (active : List Nat)
    (bound : Nat) (vs : List Value), ItemsStand doc.nodes items bound vs → bound ≤ depth →
      (∀ id ∈ active, bound ≤ id) → vs.map (doc.unfoldWithin depth active) = Json.toData items
  | [] => fun depth active _ _ => by
    rintro h - -
    rw [show _ = _ from h, Json.toData, List.map_nil]
  | item :: rest => fun depth active _ _ => by
    rintro ⟨v, others, rfl, hitem, hrest⟩ hdepth hactive
    rw [List.map_cons, unfoldWithin_of_stands item depth active _ _ hitem hdepth hactive,
      map_unfoldWithin rest depth active _ _ hrest hdepth hactive, Json.toData]

theorem map_unfoldWithin_entries : ∀ (members : List (String × Json)) (depth : Nat)
    (active : List Nat) (bound : Nat) (es : List (Scalar × Value)),
      MembersStand doc.nodes members bound es → bound ≤ depth → (∀ id ∈ active, bound ≤ id) →
        (es.map fun (key, v) => (key, doc.unfoldWithin depth active v)) = Json.toEntries members
  | [] => fun depth active _ _ => by
    rintro h - -
    rw [show _ = _ from h, Json.toEntries, List.map_nil]
  | (name, item) :: rest => fun depth active _ _ => by
    rintro ⟨v, others, rfl, hitem, hrest⟩ hdepth hactive
    rw [List.map_cons, map_unfoldWithin_entries rest depth active _ _ hrest hdepth hactive,
      Json.toEntries]
    dsimp only
    rw [unfoldWithin_of_stands item depth active _ _ hitem hdepth hactive]

end

/-- The tree below a value is the datum of the JSON value that it stands for. -/
theorem unfold_of_stands {j : Json} {bound : Nat} {v : Value} (h : Stands doc.nodes j bound v)
    (hbound : bound ≤ doc.nodes.size) : doc.unfold v = j.toDatum :=
  unfoldWithin_of_stands j _ [] _ _ h (by omega) (by simp)

end Trees

/-! ## Parts of a document -/

/-- The value is, as a tree, the datum of a well-formed JSON value. -/
def IsJson (doc : Document) (v : Value) : Prop :=
  ∃ j : Json, j.WellFormed ∧ doc.unfold v = j.toDatum

section Parts

variable {doc : Document} {id : Nat}

/-- Items that stand in a document are JSON values of the document. -/
theorem isJson_of_itemsStand : ∀ {items : List Json} {bound : Nat} {vs : List Value},
    (∀ item ∈ items, item.WellFormed) → bound ≤ doc.nodes.size →
      ItemsStand doc.nodes items bound vs → ∀ v ∈ vs, doc.IsJson v
  | [], _, _, _, _, h => by
    rw [show _ = _ from h]
    simp
  | item :: rest, bound, _, hitems, hbound, ⟨v, others, rfl, hitem, hrest⟩ => by
    rw [List.forall_mem_cons] at hitems
    exact List.forall_mem_cons.2 ⟨⟨item, hitems.1, unfold_of_stands hitem hbound⟩,
      isJson_of_itemsStand hitems.2 hbound hrest⟩

theorem isJson_of_membersStand : ∀ {members : List (String × Json)} {bound : Nat}
    {es : List (Scalar × Value)}, (∀ m ∈ members, m.2.WellFormed) → bound ≤ doc.nodes.size →
      MembersStand doc.nodes members bound es → ∀ e ∈ es, doc.IsJson e.2
  | [], _, _, _, _, h => by
    rw [show _ = _ from h]
    simp
  | (name, item) :: rest, bound, _, hmembers, hbound, ⟨v, others, rfl, hitem, hrest⟩ => by
    rw [List.forall_mem_cons] at hmembers
    exact List.forall_mem_cons.2 ⟨⟨item, hmembers.1, unfold_of_stands hitem hbound⟩,
      isJson_of_membersStand hmembers.2 hbound hrest⟩

/-- The items of a stored list are JSON values of the document. -/
theorem isJson_of_list (h : Stored doc.nodes) {vs : List Value}
    (hnode : doc.nodes[id]? = some (.list vs)) : ∀ v ∈ vs, doc.IsJson v := by
  obtain ⟨j, hj, hstands⟩ := h id _ hnode
  obtain ⟨hlt, -⟩ := Array.getElem?_eq_some_iff.1 hnode
  cases j with
  | array items =>
    obtain ⟨id', values, heq, -, hnode', hitems⟩ := hstands
    obtain rfl := Value.node.inj heq
    obtain rfl := Node.list.inj (Option.some.inj (hnode.symm.trans hnode'))
    exact isJson_of_itemsStand (Json.wellFormed_array.1 hj) hlt.le hitems
  | object members =>
    obtain ⟨id', entries, heq, -, hnode', -⟩ := hstands
    obtain rfl := Value.node.inj heq
    cases hnode.symm.trans hnode'
  | _ => cases hstands

theorem isJson_of_map (h : Stored doc.nodes) {es : List (Scalar × Value)}
    (hnode : doc.nodes[id]? = some (.map es)) : ∀ e ∈ es, doc.IsJson e.2 := by
  obtain ⟨j, hj, hstands⟩ := h id _ hnode
  obtain ⟨hlt, -⟩ := Array.getElem?_eq_some_iff.1 hnode
  cases j with
  | array items =>
    obtain ⟨id', values, heq, -, hnode', -⟩ := hstands
    obtain rfl := Value.node.inj heq
    cases hnode.symm.trans hnode'
  | object members =>
    obtain ⟨id', entries, heq, -, hnode', hmembers⟩ := hstands
    obtain rfl := Value.node.inj heq
    obtain rfl := Node.map.inj (Option.some.inj (hnode.symm.trans hnode'))
    exact isJson_of_membersStand (Json.wellFormed_object.1 hj).2 hlt.le hmembers
  | _ => cases hstands

end Parts

end TypedRoutes.Document
