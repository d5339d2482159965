import TypedRoutes.Proofs.Document.Extension
import TypedRoutes.Proofs.Schema.Unfolding

/-!
# Documents in which no schema is shared

`Schema.unshared` is the document in which the cut unfolding of a value is stored: every place where
a schema mapping is met has a node of its own, and no node of the tree leads back to itself. What is
not looked at as a schema is the value that it was. Both documents decode to the same schema
(`decodeWithin_unshared`), so a schema does not show whether its mappings are shared. What this says
about cyclic documents is put together with the bound on nested steps in
`ofDocument_eq_cutUnfolding`.
-/

set_option autoImplicit false

namespace TypedRoutes.Schema

open Document (Node Value Extends)

namespace Unfolding

/-! ## Storing trees -/

mutual

/-- Stores a tree: its own mappings and lists are appended to the table, inner ones first. -/
def store (nodes : Array Node) : Unfolding → Array Node × Value
  | .kept v => (nodes, v)
  | .list items =>
    let (nodes, values) := storeItems nodes items
    (nodes.push (.list values), .node nodes.size)
  | .map entries =>
    let (nodes, values) := storeEntries nodes entries
    (nodes.push (.map values), .node nodes.size)

/-- Stores the items of a list. -/
def storeItems (nodes : Array Node) : List Unfolding → Array Node × List Value
  | [] => (nodes, [])
  | item :: rest =>
    let (nodes, value) := store nodes item
    let (nodes, values) := storeItems nodes rest
    (nodes, value :: values)

/-- Stores the values of a mapping. -/
def storeEntries (nodes : Array Node) :
    List (Scalar × Unfolding) → Array Node × List (Scalar × Value)
  | [] => (nodes, [])
  | (key, item) :: rest =>
    let (nodes, value) := store nodes item
    let (nodes, values) := storeEntries nodes rest
    (nodes, (key, value) :: values)

end

mutual

/-- The value stands for the tree: it refers to a node below the bound, and what is in that node
stands for the parts and refers to nodes below it. -/
def Stands (nodes : Array Node) : Unfolding → (bound : Nat) → Value → Prop
  | .kept v, _, w => w = v
  | .list items, bound, w => ∃ id values, w = .node id ∧ id < bound ∧
      nodes[id]? = some (.list values) ∧ ItemsStand nodes items id values
  | .map entries, bound, w => ∃ id values, w = .node id ∧ id < bound ∧
      nodes[id]? = some (.map values) ∧ EntriesStand nodes entries id values

/-- The values stand for the items of a list. -/
def ItemsStand (nodes : Array Node) : List Unfolding → (bound : Nat) → List Value → Prop
  | [], _, ws => ws = []
  | item :: rest, bound, ws => ∃ w others, ws = w :: others ∧
      Stands nodes item bound w ∧ ItemsStand nodes rest bound others

/-- The entries stand for the entries of a mapping. -/
def EntriesStand (nodes : Array Node) :
    List (Scalar × Unfolding) → (bound : Nat) → List (Scalar × Value) → Prop
  | [], _, es => es = []
  | (key, item) :: rest, bound, es => ∃ w others, es = (key, w) :: others ∧
      Stands nodes item bound w ∧ EntriesStand nodes rest bound others

end

variable {nodes more : Array Node}

theorem forall₂_of_itemsStand {bound : Nat} : ∀ {items : List Unfolding} {ws : List Value},
    ItemsStand nodes items bound ws →
      List.Forall₂ (fun item w => Stands nodes item bound w) items ws
  | [], _ => by
    intro h
    rw [show _ = _ from h]
    exact .nil
  | item :: rest, _ => by
    rintro ⟨w, others, rfl, hitem, hrest⟩
    exact .cons hitem (forall₂_of_itemsStand hrest)

theorem forall₂_of_entriesStand {bound : Nat} :
    ∀ {entries : List (Scalar × Unfolding)} {es : List (Scalar × Value)},
    EntriesStand nodes entries bound es →
      List.Forall₂ (fun entry e => entry.1 = e.1 ∧ Stands nodes entry.2 bound e.2) entries es
  | [], _ => by
    intro h
    rw [show _ = _ from h]
    exact .nil
  | (key, item) :: rest, _ => by
    rintro ⟨w, others, rfl, hitem, hrest⟩
    exact .cons ⟨rfl, hitem⟩ (forall₂_of_entriesStand hrest)

mutual

/-- In a larger table a value stands for the same tree. -/
theorem Stands.mono (hmore : Extends nodes more) : ∀ (tree : Unfolding) {bound larger : Nat}
    {w : Value}, bound ≤ larger → Stands nodes tree bound w → Stands more tree larger w
  | .kept _ => fun _ h => h
  -- Below the node the bound is the node itself, in both tables.
  | .list items => by
    rintro hle ⟨id, values, rfl, hlt, hnode, hitems⟩
    exact ⟨id, values, rfl, Nat.lt_of_lt_of_le hlt hle, hmore.2 id _ hnode,
      ItemsStand.mono hmore items (Nat.le_refl id) hitems⟩
  | .map entries => by
    rintro hle ⟨id, values, rfl, hlt, hnode, hentries⟩
    exact ⟨id, values, rfl, Nat.lt_of_lt_of_le hlt hle, hmore.2 id _ hnode,
      EntriesStand.mono hmore entries (Nat.le_refl id) hentries⟩

/-- Items that stand in the nodes stand in every extension of them, also under a larger bound. -/
theorem ItemsStand.mono (hmore : Extends nodes more) : ∀ (items : List Unfolding)
    {bound larger : Nat} {ws : List Value}, bound ≤ larger → ItemsStand nodes items bound ws →
      ItemsStand more items larger ws
  | [] => fun _ h => h
  | item :: rest => by
    rintro hle ⟨w, others, rfl, hitem, hrest⟩
    exact ⟨w, others, rfl, Stands.mono hmore item hle hitem,
      ItemsStand.mono hmore rest hle hrest⟩

theorem EntriesStand.mono (hmore : Extends nodes more) : ∀ (entries : List (Scalar × Unfolding))
    {bound larger : Nat} {es : List (Scalar × Value)}, bound ≤ larger →
      EntriesStand nodes entries bound es → EntriesStand more entries larger es
  | [] => fun _ h => h
  | (key, item) :: rest => by
    rintro hle ⟨w, others, rfl, hitem, hrest⟩
    exact ⟨w, others, rfl, Stands.mono hmore item hle hitem,
      EntriesStand.mono hmore rest hle hrest⟩

end

mutual

/-- Storing a tree keeps the table, and the result stands for the tree. -/
theorem stands_store : ∀ (tree : Unfolding) (nodes : Array Node),
    Extends nodes (store nodes tree).1 ∧
      Stands (store nodes tree).1 tree (store nodes tree).1.size (store nodes tree).2
  | .kept _ => fun nodes => ⟨.refl nodes, rfl⟩
  | .list items => by
    intro nodes
    obtain ⟨hmore, hitems⟩ := stands_storeItems items nodes
    -- The items are in the table before the node of the list is pushed.
    rw [store]
    generalize storeItems nodes items = result at hmore hitems ⊢
    obtain ⟨after, values⟩ := result
    have hpush := Document.extends_push after (.list values)
    exact ⟨hmore.trans hpush, after.size, values, rfl, by simp, by simp,
      ItemsStand.mono hpush items (Nat.le_refl _) hitems⟩
  | .map entries => by
    intro nodes
    obtain ⟨hmore, hentries⟩ := stands_storeEntries entries nodes
    rw [store]
    generalize storeEntries nodes entries = result at hmore hentries ⊢
    obtain ⟨after, values⟩ := result
    have hpush := Document.extends_push after (.map values)
    exact ⟨hmore.trans hpush, after.size, values, rfl, by simp, by simp,
      EntriesStand.mono hpush entries (Nat.le_refl _) hentries⟩

/-- Storing the items extends the nodes and leaves the items standing in them. -/
theorem stands_storeItems : ∀ (items : List Unfolding) (nodes : Array Node),
    Extends nodes (storeItems nodes items).1 ∧
      ItemsStand (storeItems nodes items).1 items (storeItems nodes items).1.size
        (storeItems nodes items).2
  | [] => fun nodes => ⟨.refl nodes, rfl⟩
  | item :: rest => by
    intro nodes
    obtain ⟨hfirst, hitem⟩ := stands_store item nodes
    obtain ⟨hothers, hrest⟩ := stands_storeItems rest (store nodes item).1
    -- The first item still stands for the same tree after the others are stored.
    exact ⟨hfirst.trans hothers, _, _, rfl, Stands.mono hothers item hothers.1 hitem, hrest⟩

theorem stands_storeEntries : ∀ (entries : List (Scalar × Unfolding)) (nodes : Array Node),
    Extends nodes (storeEntries nodes entries).1 ∧
      EntriesStand (storeEntries nodes entries).1 entries (storeEntries nodes entries).1.size
        (storeEntries nodes entries).2
  | [] => fun nodes => ⟨.refl nodes, rfl⟩
  | (key, item) :: rest => by
    intro nodes
    obtain ⟨hfirst, hitem⟩ := stands_store item nodes
    obtain ⟨hothers, hrest⟩ := stands_storeEntries rest (store nodes item).1
    exact ⟨hfirst.trans hothers, _, _, rfl, Stands.mono hothers item hothers.1 hitem, hrest⟩

end

section

variable {doc : Document} {bound : Nat} {w : Value}

/-- The shape of a stored list is that of a list with the items standing in its values. -/
theorem shape_of_stands_list {items : List Unfolding}
    (h : (Unfolding.list items).Stands doc.nodes bound w) :
    ∃ values, doc.shape w = .list values ∧
      List.Forall₂ (fun item v => item.Stands doc.nodes bound v) items values := by
  obtain ⟨id, values, rfl, hid, hnode, hvalues⟩ := h
  refine ⟨values, by rw [Document.shape, hnode], forall₂_of_itemsStand ?_⟩
  exact hvalues.mono (.refl _) items (Nat.le_of_lt hid)

theorem shape_of_stands_map {entries : List (Scalar × Unfolding)}
    (h : (Unfolding.map entries).Stands doc.nodes bound w) :
    ∃ values, doc.shape w = .map values ∧
      List.Forall₂ (fun entry e => entry.1 = e.1 ∧ entry.2.Stands doc.nodes bound e.2)
        entries values := by
  obtain ⟨id, values, rfl, hid, hnode, hvalues⟩ := h
  refine ⟨values, by rw [Document.shape, hnode], forall₂_of_entriesStand ?_⟩
  exact hvalues.mono (.refl _) entries (Nat.le_of_lt hid)

end

end Unfolding

/-- The document in which the cut unfolding of a value is stored beside what is not unfolded. -/
def unshared (doc : Document) (mark v : Value) : Document :=
  let (nodes, root) := (cutUnfolding doc mark v).store doc.nodes
  ⟨nodes, root⟩

/-! ## Decoding what is stored -/

section

variable {doc larger : Document} {mark v : Value}

theorem isIn_of_items? (hclosed : doc.isClosed = true) {items : List Value}
    (hitems : (doc.shape v).items? = some items) : ∀ w ∈ items, w.isIn doc.nodes.size = true := by
  cases hshape : doc.shape v with
  | list found =>
    rw [hshape] at hitems
    obtain rfl := Option.some.inj hitems
    obtain ⟨id, -, hnode⟩ := Document.exists_node_of_shape_list hshape
    exact Document.isIn_of_mem_parts hclosed hnode
  | _ =>
    rw [hshape] at hitems
    cases hitems

theorem isIn_of_entries? (hclosed : doc.isClosed = true) {entries : List (Scalar × Value)}
    (hentries : (doc.shape v).entries? = some entries) :
    ∀ entry ∈ entries, entry.2.isIn doc.nodes.size = true := by
  rw [entries?_shape, Option.map_eq_some_iff] at hentries
  obtain ⟨mapping, hmapping, rfl⟩ := hentries
  obtain ⟨-, hnode⟩ := Document.exists_node_of_mapping? hmapping
  exact fun entry hentry =>
    Document.isIn_of_mem_parts hclosed hnode entry.2 (List.mem_map_of_mem hentry)

/-- Related lists have the same image under functions that agree on related elements. -/
theorem map_eq_map_of_forall₂ {α β γ : Type} {R : α → β → Prop} {f : α → γ} {g : β → γ}
    {as : List α} {bs : List β} (h : List.Forall₂ R as bs)
    (hfg : ∀ a ∈ as, ∀ b, R a b → f a = g b) : as.map f = bs.map g := by
  induction h with
  | nil => rfl
  | cons hab _ ih =>
    rw [List.forall_mem_cons] at hfg
    rw [List.map_cons, List.map_cons, hfg.1 _ hab, ih hfg.2]

section Extended

variable (hmore : Extends doc.nodes larger.nodes) (hclosed : doc.isClosed = true)
include hmore

theorem string?_of_extends (hv : v.isIn doc.nodes.size = true) :
    string? larger.shape v = string? doc.shape v := by
  rw [string?, string?, Document.shape_of_extends hmore hv]

theorem isNull_of_extends (hv : v.isIn doc.nodes.size = true) :
    isNull larger.shape v = isNull doc.shape v := by
  rw [isNull, isNull, Document.shape_of_extends hmore hv]

include hclosed

theorem literal_of_extends (hv : v.isIn doc.nodes.size = true) :
    Literal.ofDocument larger v = Literal.ofDocument doc v := by
  rw [Literal.ofDocument_eq, Literal.ofDocument_eq, Document.unfold_of_extends hmore hclosed hv]

/-- What is stored for a value in a role agrees with the value in this role if it does where it is a
schema. -/
theorem agrees_of_stands {decode decode' : Value → Except DecodeFault Schema}
    {below : Value → Unfolding} {bound : Nat}
    (hbelow : ∀ w w', w.isIn doc.nodes.size = true → (below w).Stands larger.nodes bound w' →
      isNull larger.shape w' = isNull doc.shape w ∧ decode' w' = decode w)
    (role : Role) (hv : v.isIn doc.nodes.size = true) {v' : Value}
    (hstands : (role.unfolding doc below v).Stands larger.nodes bound v') :
    role.Agrees larger.shape doc.shape (Literal.ofDocument larger) (Literal.ofDocument doc)
      decode' decode v' v := by
  have hshape := Document.shape_of_extends hmore hv
  -- One case per role: values without schemas stand for themselves, and under the other roles the
  -- parts that are decoded stand one by one.
  cases role with
  | plain =>
    obtain rfl : v' = v := hstands
    refine ⟨literal_of_extends hmore hclosed hv, string?_of_extends hmore hv, ?_, ?_⟩
    · rw [hshape]
      refine Option.map_congr fun items hitems => List.map_congr_left fun w hw => ?_
      exact literal_of_extends hmore hclosed (isIn_of_items? hclosed hitems w hw)
    · rw [hshape]
      refine Option.map_congr fun items hitems => List.map_congr_left fun w hw => ?_
      exact string?_of_extends hmore (isIn_of_items? hclosed hitems w hw)
  | schema => exact hbelow v v' hv hstands
  | schemas =>
    simp only [Role.unfolding] at hstands
    simp only [Role.Agrees]
    cases hitems : (doc.shape v).items? with
    | none =>
      rw [hitems] at hstands
      obtain rfl : v' = v := hstands
      rw [hshape, hitems]
      rfl
    | some items =>
      rw [hitems] at hstands
      obtain ⟨values, hvalues, hparts⟩ := Unfolding.shape_of_stands_list hstands
      rw [hvalues]
      refine congrArg some (map_eq_map_of_forall₂ (List.forall₂_map_left_iff.1 hparts) ?_).symm
      exact fun w hw w' h => (hbelow w w' (isIn_of_items? hclosed hitems w hw) h).2.symm
  | properties =>
    simp only [Role.unfolding] at hstands
    simp only [Role.Agrees]
    cases hentries : (doc.shape v).entries? with
    | none =>
      rw [hentries] at hstands
      obtain rfl : v' = v := hstands
      rw [hshape, hentries]
      rfl
    | some entries =>
      rw [hentries] at hstands
      obtain ⟨values, hvalues, hparts⟩ := Unfolding.shape_of_stands_map hstands
      rw [hvalues]
      refine congrArg some (map_eq_map_of_forall₂ (List.forall₂_map_left_iff.1 hparts) ?_).symm
      intro entry hentry e h
      have hentryIn := isIn_of_entries? hclosed hentries entry hentry
      exact Prod.ext h.1 (hbelow entry.2 e.2 hentryIn h.2).2.symm
  -- Only the first pattern is decoded, so only its value has to stand for something.
  | patterns =>
    simp only [Role.unfolding] at hstands
    simp only [Role.Agrees]
    cases hentries : (doc.shape v).entries? with
    | none =>
      rw [hentries] at hstands
      obtain rfl : v' = v := hstands
      rw [hshape, hentries]
      rfl
    | some entries =>
      rw [hentries] at hstands
      cases entries with
      | nil =>
        obtain rfl : v' = v := hstands
        rw [hshape, hentries]
        rfl
      | cons first rest =>
        obtain ⟨values, hvalues, hparts⟩ := Unfolding.shape_of_stands_map hstands
        rw [hvalues]
        have hfirstIn := isIn_of_entries? hclosed hentries first List.mem_cons_self
        cases hparts with
        | cons hfirst _ =>
          exact congrArg (some ∘ some) (hbelow first.2 _ hfirstIn hfirst.2).2

/-- A mapping and what is stored for it have the same view. -/
theorem ofEntries_of_stands {decode decode' : Value → Except DecodeFault Schema}
    {below : Value → Unfolding} {bound : Nat}
    (hbelow : ∀ w w', w.isIn doc.nodes.size = true → (below w).Stands larger.nodes bound w' →
      isNull larger.shape w' = isNull doc.shape w ∧ decode' w' = decode w)
    {entries values : List (Scalar × Value)}
    (hentries : ∀ entry ∈ entries, entry.2.isIn doc.nodes.size = true)
    (hstands : Unfolding.EntriesStand larger.nodes (entries.map fun (key, value) =>
      (key, (Role.ofKey key).unfolding doc below value)) bound values) :
    View.ofEntries larger.shape (Literal.ofDocument larger) decode' values =
      View.ofEntries doc.shape (Literal.ofDocument doc) decode entries := by
  have hstand := List.forall₂_map_left_iff.1 (Unfolding.forall₂_of_entriesStand hstands)
  have hboth := (List.forall₂_and_left _ _).2 ⟨hentries, hstand⟩
  refine View.ofEntries_congr (hboth.imp ?_).flip
  rintro ⟨key, w⟩ ⟨key', w'⟩ ⟨hw, rfl, hstands⟩
  exact ⟨rfl, agrees_of_stands hmore hclosed hbelow (Role.ofKey key) hw hstands⟩

end Extended

/-! ## The unshared document -/

/-- The tree keeps no value that is not the unfolded one or the mark. -/
theorem isIn_of_unfoldingWithin_eq_kept {size depth : Nat} {active : List Nat} {w : Value}
    (h : unfoldingWithin doc mark depth active v = .kept w) (hmark : mark.isIn size = true)
    (hv : v.isIn size = true) : w.isIn size = true := by
  cases depth with
  | zero => rwa [← Unfolding.kept.inj h]
  | succ depth =>
    rw [unfoldingWithin] at h
    split at h
    · rwa [← Unfolding.kept.inj h]
    · split at h
      · rwa [← Unfolding.kept.inj h]
      · cases h

section Stored

variable (hmore : Extends doc.nodes larger.nodes) (hclosed : doc.isClosed = true)
  (hmapping : doc.mapping? mark = none) (hmark : isNull doc.shape mark = false)
  (hmarkIn : mark.isIn doc.nodes.size = true)
include hmore hmark hmarkIn

/-- What stands for an unfolding is null where the value is. -/
theorem isNull_of_stands {depth bound : Nat} {active : List Nat} {v' : Value}
    (hv : v.isIn doc.nodes.size = true)
    (hstands : (unfoldingWithin doc mark depth active v).Stands larger.nodes bound v') :
    isNull larger.shape v' = isNull doc.shape v := by
  rw [isNull_unfoldingWithin hmark depth active v]
  cases htree : unfoldingWithin doc mark depth active v with
  | kept w =>
    rw [htree] at hstands
    obtain rfl : v' = w := hstands
    rw [Unfolding.isNull_kept]
    exact isNull_of_extends hmore (isIn_of_unfoldingWithin_eq_kept htree hmarkIn hv)
  | list items =>
    rw [htree] at hstands
    obtain ⟨values, hvalues, -⟩ := Unfolding.shape_of_stands_list hstands
    rw [isNull, hvalues]
    rfl
  | map entries =>
    rw [htree] at hstands
    obtain ⟨values, hvalues, -⟩ := Unfolding.shape_of_stands_map hstands
    rw [isNull, hvalues]
    rfl

include hclosed hmapping

/-- What stands for an unfolding is decoded as the value. No mapping is met again in it, because
nodes only become smaller. -/
theorem decodeWithin_of_stands {depth bound : Nat} {active active' : List Nat} {v' : Value}
    (hv : v.isIn doc.nodes.size = true) (hdepth : doc.idle Node.isMap active < depth)
    (hstands : (unfoldingWithin doc mark depth active v).Stands larger.nodes bound v')
    (hactive' : ∀ id ∈ active', bound ≤ id) :
    decodeWithin larger depth active' v' = decodeWithin doc depth active v := by
  -- The induction is on the depth. A copy stands below the bound of the node that holds it, so it
  -- is never one that is being decoded, while the original is cut at a cycle by the mark.
  induction depth generalizing active active' v v' bound with
  | zero => exact absurd hdepth (Nat.not_lt_zero _)
  | succ depth ih =>
    rw [unfoldingWithin] at hstands
    rw [decodeWithin, decodeWithin]
    cases hmap : doc.mapping? v with
    | none =>
      rw [hmap] at hstands
      obtain rfl : v' = v := hstands
      rw [Document.mapping?_of_extends hmore hv, hmap]
    | some mapping =>
      obtain ⟨id, entries⟩ := mapping
      rw [hmap] at hstands
      dsimp only at hstands ⊢
      by_cases hactive : id ∈ active
      -- A cycle: the copy has the mark in its place, and both are decoded to the unknown type.
      · rw [if_pos hactive] at hstands ⊢
        obtain rfl : v' = mark := hstands
        rw [Document.mapping?_of_extends hmore hmarkIn, hmapping]
      · rw [if_neg hactive] at hstands ⊢
        obtain ⟨id', values, rfl, hid, hnode', hvalues⟩ := hstands
        have hmap' : larger.mapping? (.node id') = some (id', values) := by
          simp [Document.mapping?, hnode']
        have hfresh : id' ∉ active' := fun hmem => Nat.not_lt.2 (hactive' id' hmem) hid
        have hfall : ∀ other ∈ id' :: active', id' ≤ other := List.forall_mem_cons.2
          ⟨Nat.le_refl id', fun other hmem => Nat.le_trans (Nat.le_of_lt hid) (hactive' other hmem)⟩
        obtain ⟨-, hnode⟩ := Document.exists_node_of_mapping? hmap
        -- The node that is entered was idle, so the depth that is left is enough for the rest.
        have hless : doc.idle Node.isMap (id :: active) < doc.idle Node.isMap active :=
          Document.idle_cons_lt hnode rfl hactive
        obtain ⟨below, rfl⟩ := Nat.exists_eq_add_of_le' (show 1 ≤ depth by omega)
        have hpart (w w' : Value) (hw : w.isIn doc.nodes.size = true)
            (h : (unfoldingWithin doc mark (below + 1) (id :: active) w).Stands larger.nodes
              id' w') :
            isNull larger.shape w' = isNull doc.shape w ∧
              decodeWithin larger (below + 1) (id' :: active') w' =
                decodeWithin doc (below + 1) (id :: active) w :=
          ⟨isNull_of_stands hmore hmark hmarkIn hw h, ih hw (by omega) h hfall⟩
        have hentries := isIn_of_entries? (v := v) hclosed (by rw [entries?_shape, hmap]; rfl)
        have hview := ofEntries_of_stands hmore hclosed hpart hentries hvalues
        simp only [hmap', if_neg hfresh]
        rw [Layer.decoded_ofEntries (ignoresOthers_decodeWithin below (id' :: active')), hview]
        exact (Layer.decoded_ofEntries (ignoresOthers_decodeWithin below (id :: active))).symm

end Stored

/-- The copy without sharing extends the document, and the unfolding stands in it. -/
theorem stands_unshared {depth : Nat} (mark v : Value) (hdepth : doc.mappingCount < depth) :
    Extends doc.nodes (unshared doc mark v).nodes ∧
      (unfoldingWithin doc mark depth [] v).Stands (unshared doc mark v).nodes
        (unshared doc mark v).nodes.size (unshared doc mark v).root := by
  rw [unfoldingWithin_eq_cutUnfolding hdepth]
  exact Unfolding.stands_store (cutUnfolding doc mark v) doc.nodes

/-- The unshared document decodes to what the document decodes to. -/
theorem decodeWithin_unshared (hclosed : doc.isClosed = true) (hmapping : doc.mapping? mark = none)
    (hmark : isNull doc.shape mark = false) (hmarkIn : mark.isIn doc.nodes.size = true)
    (hv : v.isIn doc.nodes.size = true) :
    decodeWithin (unshared doc mark v) ((unshared doc mark v).mappingCount + 1) []
        (unshared doc mark v).root =
      decodeWithin doc (doc.mappingCount + 1) [] v := by
  obtain ⟨depth, hdoc, hunshared⟩ : ∃ depth, doc.mappingCount < depth ∧
      (unshared doc mark v).mappingCount < depth :=
    ⟨doc.mappingCount + (unshared doc mark v).mappingCount + 1, by omega, by omega⟩
  obtain ⟨hmore, hstands⟩ := stands_unshared mark v hdoc
  have hidle : doc.idle Node.isMap [] < depth :=
    Nat.lt_of_lt_of_le doc.idle_isMap_nil_lt hdoc
  calc decodeWithin (unshared doc mark v) ((unshared doc mark v).mappingCount + 1) []
        (unshared doc mark v).root
      = decodeWithin (unshared doc mark v) depth [] (unshared doc mark v).root :=
        (decodeWithin_eq_of_mappingCount_lt hunshared).symm
    _ = decodeWithin doc depth [] v :=
        decodeWithin_of_stands hmore hclosed hmapping hmark hmarkIn hv hidle hstands
          (List.forall_mem_nil _)
    _ = decodeWithin doc (doc.mappingCount + 1) [] v := decodeWithin_eq_of_mappingCount_lt hdoc

end

/-- Decoding a value of a document ends after no more nested steps than there are mappings, and one.
It is decoding the cut unfolding of the value, whatever stands in it for mappings that are met
again, as long as it is neither a mapping nor null: as a tree that is decoded without regard to what
has been met, and as a document in which every part of the tree has a node of its own. -/
theorem ofDocument_eq_cutUnfolding (doc : Document) (v : Value) :
    (∀ depth, doc.mappingCount < depth →
      decodeWithin doc depth [] v ≠ .error .tooDeep ∧
        decodeWithin doc depth [] v = decodeWithin doc (doc.mappingCount + 1) [] v) ∧
    ∀ mark : Value, doc.mapping? mark = none → isNull doc.shape mark = false →
      (∀ depth, doc.mappingCount < depth →
        unfoldingWithin doc mark depth [] v = cutUnfolding doc mark v ∧
          decodePlain (Unfolding.shape doc) (Unfolding.literal doc) depth
              (cutUnfolding doc mark v) =
            decodeWithin doc (doc.mappingCount + 1) [] v) ∧
      (doc.isClosed = true → v.isIn doc.nodes.size = true → mark.isIn doc.nodes.size = true →
        ofDocument (unshared doc mark v) (unshared doc mark v).root = ofDocument doc v) := by
  refine ⟨fun depth hdepth => ?_, fun mark hmapping hmark =>
    ⟨fun depth hdepth => ?_, fun hclosed hv hmarkIn => ?_⟩⟩
  · rw [decodeWithin_eq_of_mappingCount_lt hdepth]
    exact ⟨decodeWithin_ne_tooDeep doc.idle_isMap_nil_lt, rfl⟩
  · have hidle : doc.idle Node.isMap [] < depth :=
      Nat.lt_of_lt_of_le doc.idle_isMap_nil_lt hdepth
    have htree := decodeWithin_eq_decodePlain (v := v) hmapping hmark hidle
    rw [decodeWithin_eq_of_mappingCount_lt hdepth, unfoldingWithin_eq_cutUnfolding hdepth] at htree
    exact ⟨unfoldingWithin_eq_cutUnfolding hdepth, htree.symm⟩
  · rw [ofDocument, ofDocument, decodeWithin_unshared hclosed hmapping hmark hmarkIn hv]

/-- A schema with two properties of one schema, an array of the schema itself. -/
def sharedAndCyclic : Document where
  nodes := #[
    .map [(.str "type", .scalar (.str "object")), (.str "properties", .node 1)],
    .map [(.str "left", .node 2), (.str "right", .node 2)],
    .map [(.str "type", .scalar (.str "array")), (.str "items", .node 0)]]
  root := .node 0

theorem ofDocument_eq_cutUnfolding_sharedAndCyclic :
    (decodeWithin sharedAndCyclic 7 [] (.node 0) ≠ .error .tooDeep ∧
      decodeWithin sharedAndCyclic 7 [] (.node 0) = decodeWithin sharedAndCyclic 4 [] (.node 0)) ∧
    decodePlain (Unfolding.shape sharedAndCyclic) (Unfolding.literal sharedAndCyclic) 5
        (cutUnfolding sharedAndCyclic (.scalar (.bool true)) (.node 0)) =
      decodeWithin sharedAndCyclic 4 [] (.node 0) ∧
    ofDocument (unshared sharedAndCyclic (.scalar (.bool true)) (.node 0))
        (unshared sharedAndCyclic (.scalar (.bool true)) (.node 0)).root =
      ofDocument sharedAndCyclic (.node 0) := by
  obtain ⟨hsteps, htrees⟩ := ofDocument_eq_cutUnfolding sharedAndCyclic (.node 0)
  obtain ⟨htree, hunshared⟩ := htrees (.scalar (.bool true)) rfl rfl
  exact ⟨hsteps 7 (by decide), (htree 5 (by decide)).2, hunshared (by decide +kernel) rfl rfl⟩

-- Both properties have a copy, in which the mark stands for the schema that is met again.
example : (unshared sharedAndCyclic (.scalar (.bool true)) (.node 0)).nodes.toList.drop 3 = [
    .map [(.str "type", .scalar (.str "array")), (.str "items", .scalar (.bool true))],
    .map [(.str "type", .scalar (.str "array")), (.str "items", .scalar (.bool true))],
    .map [(.str "left", .node 3), (.str "right", .node 4)],
    .map [(.str "type", .scalar (.str "object")), (.str "properties", .node 5)]] := by
  decide +kernel

end TypedRoutes.Schema
