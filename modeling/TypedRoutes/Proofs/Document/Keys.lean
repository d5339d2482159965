import TypedRoutes.Proofs.Document.Contents
import TypedRoutes.Proofs.Document.OfFile
import TypedRoutes.Proofs.Document.Store
import TypedRoutes.Proofs.Entries
import TypedRoutes.Proofs.Json.Nesting
import TypedRoutes.Proofs.Yaml.Scalar

/-!
# Keys of loaded documents

In a document that is read from a text no mapping has two entries under one key
(`Document.IsWrittenIn.hasDistinctKeys`): equal names of a JSON object are one member, and equal
keys of a YAML mapping are one entry. Only NaNs of different nodes may stand side by side. So two
keys have one text only if one of them is a string and the other is none, or if both are NaNs
(`Document.Node.HasDistinctKeys.pairwise_text`).
-/

set_option autoImplicit false

namespace TypedRoutes

/-- A scalar is the same key as itself, a NaN included. -/
theorem Scalar.sameKey_self (a : Scalar) : a.sameKey a = true := by
  cases a with
  | timestamp t => simp [sameKey, Timestamp.sameMoment]
  | _ => simp [sameKey]

namespace Document

/-- No two keys of the node are the same key, NaNs aside, and the floats among them are in their
canonical shape. -/
structure Node.HasDistinctKeys (node : Node) : Prop where
  canonical : ∀ key ∈ node.keys, key.IsCanonical
  distinct : node.keys.Pairwise fun a b => a.sameKey b = true → a = .float .nan

/-- No mapping of the document has two entries under one key. -/
def HasDistinctKeys (doc : Document) : Prop :=
  ∀ (id : Nat) (node : Node), doc.nodes[id]? = some node → node.HasDistinctKeys

theorem Node.hasDistinctKeys_of_keys_eq_nil {node : Node} (h : node.keys = []) :
    node.HasDistinctKeys := by
  refine ⟨fun key hkey => ?_, h ▸ List.Pairwise.nil⟩
  rw [h] at hkey
  cases hkey

/-- Keys that are different strings are distinct keys. -/
theorem Node.hasDistinctKeys_of_nodup_names {entries : List (Scalar × Value)} {names : List String}
    (hkeys : entries.map Prod.fst = names.map Scalar.str) (hnames : names.Nodup) :
    (Node.map entries).HasDistinctKeys := by
  constructor
  · rw [keys, hkeys]
    intro key hkey
    obtain ⟨name, -, rfl⟩ := List.mem_map.1 hkey
    trivial
  · rw [keys, hkeys, List.pairwise_map]
    refine hnames.imp fun hne hsame => ?_
    exact absurd (by simpa [Scalar.sameKey, Scalar.sameNumber] using hsame) hne

/-- Keys that have one text are a string and something else, or NaNs. -/
theorem Node.HasDistinctKeys.pairwise_text {node : Node} (h : node.HasDistinctKeys) :
    node.keys.Pairwise fun a b => ∀ name, a.text = .ok name → b.text = .ok name →
      a.isString ≠ b.isString ∨ a = .float .nan ∧ b = .float .nan := by
  refine h.distinct.imp_of_mem fun {a b} ha hb hdistinct name htext htext' => ?_
  by_cases hkinds : a.isString = b.isString
  · right
    have heq : a = b := by
      cases hstring : a.isString with
      | false =>
        exact Scalar.eq_of_text_eq hstring (hkinds ▸ hstring) (h.canonical a ha)
          (h.canonical b hb) htext htext'
      | true => exact Scalar.eq_of_isString hstring (hkinds ▸ hstring) (htext.trans htext'.symm)
    subst heq
    exact ⟨hdistinct a.sameKey_self, hdistinct a.sameKey_self⟩
  · exact .inl hkinds

/-- The keys of a stored object are its names as strings. -/
theorem keys_of_membersStand {nodes : Array Node} : ∀ {members : List (String × Json)} {bound : Nat}
    {entries : List (Scalar × Value)}, MembersStand nodes members bound entries →
      entries.map Prod.fst = (members.map Prod.fst).map Scalar.str
  | [], _, _ => by
    rintro rfl
    rfl
  | (name, item) :: rest, _, _ => by
    rintro ⟨v, others, rfl, -, hrest⟩
    rw [List.map_cons, List.map_cons, List.map_cons, keys_of_membersStand hrest]

/-- The keys of a mapping in the document of a JSON value are the names of an object. -/
theorem exists_names_ofJson {j : Json} (h : j.WellFormed) {id : Nat}
    {entries : List (Scalar × Value)} (hnode : (ofJson j).nodes[id]? = some (.map entries)) :
    ∃ names : List String, names.Nodup ∧ entries.map Prod.fst = names.map Scalar.str := by
  obtain ⟨k, hk, hstands⟩ := stored_ofJson h id _ hnode
  cases k with
  | array items =>
    obtain ⟨id', values, heq, -, hnode', -⟩ := hstands
    obtain rfl := Value.node.inj heq
    cases hnode.symm.trans hnode'
  | object members =>
    obtain ⟨id', entries', heq, -, hnode', hmembers⟩ := hstands
    obtain rfl := Value.node.inj heq
    obtain rfl := Node.map.inj (Option.some.inj (hnode.symm.trans hnode'))
    exact ⟨members.map Prod.fst, (Json.wellFormed_object.1 hk).1, keys_of_membersStand hmembers⟩
  | _ => cases hstands

/-- A document from JSON has distinct keys, as the reader keeps one entry for each name. -/
theorem hasDistinctKeys_ofJson {j : Json} (h : j.WellFormed) : (ofJson j).HasDistinctKeys := by
  intro id node hnode
  cases node with
  | map entries =>
    obtain ⟨names, hnames, hkeys⟩ := exists_names_ofJson h hnode
    exact Node.hasDistinctKeys_of_nodup_names hkeys hnames
  | _ => exact Node.hasDistinctKeys_of_keys_eq_nil rfl

end Document

/-! ## Filling containers -/

namespace Yaml

open Document (Value)

/-- The key is a scalar that has been read, and only a NaN has a maker. -/
structure Key.Sound (key : Key) : Prop where
  canonical : key.scalar.IsCanonical
  maker : key.maker = none ∨ key.scalar = .float .nan

/-- Only itself is the same key as the value that is no number. -/
theorem eq_nan_of_sameKey_nan {a : Scalar} (h : a.sameKey (.float .nan) = true) :
    a = .float .nan := by
  cases a with
  | float x =>
    have hnumber : x.sameNumber .nan = false := by
      cases x <;> rfl
    simpa [Scalar.sameKey, Scalar.sameNumber, hnumber] using h
  | _ => simp [Scalar.sameKey, Scalar.sameNumber, Binary64.toInt?] at h

/-- A key that counts as different from another, although the scalars compare as one key, is the
value that is no number. -/
theorem Key.eq_nan_of_sameKey {a b : Key} (ha : a.Sound) (hb : b.Sound) (h : a.same b = false)
    (hsame : a.scalar.sameKey b.scalar = true) : a.scalar = .float .nan := by
  rcases ha.maker with ha | ha
  · rcases hb.maker with hb | hb
    · rw [Key.same, hsame, ha, hb] at h
      simp at h
    · rw [hb] at hsame
      exact eq_nan_of_sameKey_nan hsame
  · exact ha

namespace Filling

variable {f : Filling}

theorem sound_key {scalar : Scalar} (h : scalar.IsCanonical) (f : Filling) (id : Nat) :
    (f.key id scalar).Sound := by
  refine ⟨h, ?_⟩
  rw [key]
  by_cases hscalar : scalar = .float .nan
  · exact .inr hscalar
  · exact .inl (by simp [hscalar])

/-- The scalar that a node is has been read. -/
theorem isCanonical_of_value {id : Nat} {s : Scalar} {g : Filling}
    (h : f.value id = .ok (.scalar s, g)) : s.IsCanonical := by
  unfold value at h
  dsimp only at h
  split at h
  · split at h
    · cases h
    · cases h
  · split at h
    · cases h
    -- A node that is no container is a scalar that its tag has read.
    · obtain ⟨text, -, h⟩ := Outcome.bind_eq_ok.1 h
      obtain ⟨_, -, h⟩ := Outcome.bind_eq_ok.1 h
      split at h
      · next read hread =>
        obtain ⟨scalar, hscalar, h⟩ := Outcome.bind_eq_ok.1 h
        subst hscalar
        obtain ⟨hs, -⟩ := Prod.mk.inj (Except.ok.inj h)
        obtain rfl := Document.Value.scalar.inj hs
        exact Tag.isCanonical_of_read? hread
      · cases h

/-- Looking at a node fills no container. -/
theorem nodes_value {id : Nat} {r : Value × Filling} (h : f.value id = .ok r) :
    r.2.nodes = f.nodes := by
  unfold value at h
  dsimp only at h
  split at h
  · split at h
    · obtain rfl := Except.ok.inj h
      rfl
    · obtain rfl := Except.ok.inj h
      rfl
  · split at h
    · cases h
    · obtain ⟨text, -, h⟩ := Outcome.bind_eq_ok.1 h
      obtain ⟨_, -, h⟩ := Outcome.bind_eq_ok.1 h
      split at h
      · obtain ⟨scalar, -, h⟩ := Outcome.bind_eq_ok.1 h
        obtain rfl := Except.ok.inj h
        rfl
      · cases h

theorem nodes_values {ids : List Nat} {r : List Value × Filling} (h : f.values ids = .ok r) :
    r.2.nodes = f.nodes := by
  induction ids generalizing f r with
  | nil =>
    obtain rfl := Except.ok.inj h
    rfl
  | cons id rest ih =>
    obtain ⟨first, hfirst, h⟩ := Outcome.bind_eq_ok.1 h
    obtain ⟨others, hothers, h⟩ := Outcome.bind_eq_ok.1 h
    obtain rfl := Except.ok.inj h
    exact (ih hothers).trans (nodes_value hfirst)

/-- One assignment of a mapping has a sound key and adds no node. -/
theorem sound_assignment {keyId valueId : Nat} {r : (Key × Value) × Filling}
    (h : f.assignment keyId valueId = .ok r) : r.1.1.Sound ∧ r.2.nodes = f.nodes := by
  obtain ⟨⟨key, g⟩, hkey, h⟩ := Outcome.bind_eq_ok.1 h
  cases key with
  | scalar scalar =>
    obtain ⟨⟨v, g'⟩, hv, h⟩ := Outcome.bind_eq_ok.1 h
    obtain rfl := Except.ok.inj h
    have hcanonical := isCanonical_of_value hkey
    exact ⟨sound_key hcanonical g' keyId, (nodes_value hv).trans (nodes_value hkey)⟩
  | node id => cases h

/-- The assignments of a mapping have sound keys and add no node, by induction on the entries. -/
theorem sound_assignments {done : List (Key × Value)} {entries : List (Nat × Nat)}
    {r : List (Key × Value) × Filling} (hdone : ∀ entry ∈ done, entry.1.Sound)
    (h : f.assignments done entries = .ok r) :
    (∀ entry ∈ r.1, entry.1.Sound) ∧ r.2.nodes = f.nodes := by
  induction entries generalizing f done with
  | nil =>
    obtain rfl := Except.ok.inj h
    exact ⟨fun entry hentry => hdone entry (List.mem_reverse.1 hentry), rfl⟩
  | cons entry rest ih =>
    rw [assignments] at h
    split at h
    · next first g hfirst =>
      obtain ⟨hsound, hnodes⟩ := sound_assignment hfirst
      obtain ⟨hall, hothers⟩ := ih (List.forall_mem_cons.2 ⟨hsound, hdone⟩) h
      exact ⟨hall, hothers.trans hnodes⟩
    · cases h

/-- The entries that are collected have distinct keys. -/
theorem hasDistinctKeys_entries {id : Nat} {r : List (Scalar × Value) × Filling}
    (h : f.entries id = .ok r) : (Document.Node.map r.1).HasDistinctKeys ∧ r.2.nodes = f.nodes := by
  unfold entries at h
  split at h
  · cases h
  · obtain ⟨graph, -, h⟩ := Outcome.bind_eq_ok.1 h
    obtain ⟨⟨list, g⟩, hlist, h⟩ := Outcome.bind_eq_ok.1 h
    obtain rfl := Except.ok.inj h
    obtain ⟨hsound, hnodes⟩ := sound_assignments (List.forall_mem_nil _) hlist
    refine ⟨?_, hnodes⟩
    -- The keys that are kept differ as keys. For sound keys that means that they differ as scalars,
    -- unless they are the value that is no number.
    have hpairwise := Entries.pairwise_keys_ofAssignments Key.same list
    have hmem {key : Key} (hkey : key ∈ Entries.keys (Entries.ofAssignments Key.same list)) :
        key.Sound := by
      obtain ⟨entry, hentry, rfl⟩ := List.mem_map.1 (Entries.mem_keys_of_mem_ofAssignments _ hkey)
      exact hsound entry hentry
    have hkeys : (Entries.ofAssignments Key.same list).map (fun entry => entry.1.scalar) =
        (Entries.keys (Entries.ofAssignments Key.same list)).map Key.scalar := by
      rw [Entries.keys, List.map_map]
      rfl
    constructor
    · rw [Document.Node.keys, List.map_map]
      refine hkeys ▸ List.forall_mem_map.2 fun key hkey => ?_
      exact (hmem hkey).canonical
    · rw [Document.Node.keys, List.map_map]
      refine hkeys ▸ List.pairwise_map.2 (hpairwise.imp_of_mem fun ha hb hne => ?_)
      exact Key.eq_nan_of_sameKey (hmem ha) (hmem hb) hne

/-- Every container that is filled has distinct keys. -/
def HasDistinctKeys (f : Filling) : Prop := ∀ node ∈ f.nodes, node.HasDistinctKeys

theorem HasDistinctKeys.add {node : Document.Node} (h : f.HasDistinctKeys)
    (hnode : node.HasDistinctKeys) : (f.add node).2.HasDistinctKeys := by
  intro other hother
  rcases Array.mem_push.1 hother with hother | rfl
  · exact h other hother
  · exact hnode

/-- The mappings that the pairs are turned into have distinct keys. -/
theorem hasDistinctKeys_pairs {ids : List Nat} {r : List Value × Filling} (hf : f.HasDistinctKeys)
    (h : f.pairs ids = .ok r) : r.2.HasDistinctKeys := by
  induction ids generalizing f r with
  | nil =>
    obtain rfl := Except.ok.inj h
    exact hf
  | cons id rest ih =>
    rw [pairs] at h
    split at h
    · obtain ⟨⟨key, g⟩, hkey, h⟩ := Outcome.bind_eq_ok.1 h
      obtain ⟨⟨v, g'⟩, hv, h⟩ := Outcome.bind_eq_ok.1 h
      obtain ⟨others, hothers, h⟩ := Outcome.bind_eq_ok.1 h
      obtain rfl := Except.ok.inj h
      have hpair : (Document.Node.pair key v).HasDistinctKeys :=
        Document.Node.hasDistinctKeys_of_keys_eq_nil rfl
      -- Looking up the key and the value fills nothing, and the pair that is added has no keys.
      have hg' : g'.HasDistinctKeys := by
        intro node hnode
        rw [nodes_value hv, nodes_value hkey] at hnode
        exact hf node hnode
      exact @ih _ others (hg'.add hpair) hothers
    · cases h

/-- A container is filled to a node with distinct keys, and so are the nodes made on the way. -/
theorem hasDistinctKeys_container {id : Nat} {r : Document.Node × Filling} (hf : f.HasDistinctKeys)
    (h : f.container id = .ok r) : r.1.HasDistinctKeys ∧ r.2.HasDistinctKeys := by
  have hsame {g : Filling} (hnodes : g.nodes = f.nodes) : g.HasDistinctKeys := by
    intro node hnode
    rw [hnodes] at hnode
    exact hf node hnode
  unfold container at h
  split at h
  · obtain ⟨list, hlist, h⟩ := Outcome.bind_eq_ok.1 h
    obtain rfl := Except.ok.inj h
    obtain ⟨hkeys, hnodes⟩ := hasDistinctKeys_entries hlist
    exact ⟨hkeys, hsame hnodes⟩
  · obtain ⟨list, hlist, h⟩ := Outcome.bind_eq_ok.1 h
    obtain rfl := Except.ok.inj h
    exact ⟨Document.Node.hasDistinctKeys_of_keys_eq_nil rfl,
      hsame (hasDistinctKeys_entries hlist).2⟩
  · obtain ⟨items, -, h⟩ := Outcome.bind_eq_ok.1 h
    obtain ⟨list, hlist, h⟩ := Outcome.bind_eq_ok.1 h
    obtain rfl := Except.ok.inj h
    exact ⟨Document.Node.hasDistinctKeys_of_keys_eq_nil rfl, hsame (nodes_values hlist)⟩
  · obtain ⟨items, -, h⟩ := Outcome.bind_eq_ok.1 h
    obtain ⟨list, hlist, h⟩ := Outcome.bind_eq_ok.1 h
    obtain rfl := Except.ok.inj h
    exact ⟨Document.Node.hasDistinctKeys_of_keys_eq_nil rfl, hasDistinctKeys_pairs hf hlist⟩

/-- Filling the containers one after the other keeps the keys distinct, by induction on the fuel. -/
theorem hasDistinctKeys_fill {fuel index : Nat} {g : Filling} (hf : f.HasDistinctKeys)
    (h : fill fuel index f = .ok g) : g.HasDistinctKeys := by
  induction fuel generalizing f index with
  | zero =>
    obtain rfl := Except.ok.inj h
    exact hf
  | succ fuel ih =>
    rw [fill] at h
    split at h
    · obtain rfl := Except.ok.inj h
      exact hf
    · obtain ⟨⟨node, g'⟩, hcontainer, h⟩ := Outcome.bind_eq_ok.1 h
      obtain ⟨hnode, hg'⟩ := hasDistinctKeys_container hf hcontainer
      refine ih ?_ h
      intro other hother
      rcases Array.mem_or_eq_of_mem_setIfInBounds hother with hother | rfl
      · exact hg' other hother
      · exact hnode

end Filling

theorem hasDistinctKeys_documentOf {limits : Limits} {root : Nat} {graph : Graph} {doc : Document}
    (h : documentOf limits root graph = .ok doc) : doc.HasDistinctKeys := by
  obtain ⟨⟨value, f⟩, hvalue, h⟩ := Outcome.bind_eq_ok.1 h
  obtain ⟨g, hfill, h⟩ := Outcome.bind_eq_ok.1 h
  obtain rfl := Except.ok.inj h
  have hf : f.HasDistinctKeys := by
    intro node hnode
    rw [Filling.nodes_value hvalue] at hnode
    obtain rfl := Array.eq_of_mem_replicate hnode
    exact Document.Node.hasDistinctKeys_of_keys_eq_nil rfl
  intro id node hnode
  exact Filling.hasDistinctKeys_fill hf hfill node (Array.mem_of_getElem? hnode)

end Yaml

namespace Document

/-- A document read from YAML has distinct keys. -/
theorem hasDistinctKeys_ofYaml {limits : Limits} {text : String} {doc : Document}
    (h : ofYaml limits text = .ok doc) : doc.HasDistinctKeys := by
  obtain ⟨root?, -, h⟩ := Outcome.bind_eq_ok.1 h
  cases root? with
  | none =>
    obtain rfl := Except.ok.inj h
    exact fun id node hnode => nomatch hnode
  | some root =>
    obtain ⟨⟨id, graph⟩, -, h⟩ := Outcome.bind_eq_ok.1 h
    exact Yaml.hasDistinctKeys_documentOf h

/-- A document that is read from a text has distinct keys, whatever the format of the text. -/
theorem IsWrittenIn.hasDistinctKeys {limits : Limits} {path : FilePath} {text : String}
    {doc : Document} (h : IsWrittenIn limits path text doc) : doc.HasDistinctKeys := by
  cases h with
  | yaml _ hdoc => exact hasDistinctKeys_ofYaml hdoc
  | json _ hj =>
    exact hasDistinctKeys_ofJson (Json.wellFormed_of_parse (Json.parse_of_parseWithin hj))

end Document

end TypedRoutes
