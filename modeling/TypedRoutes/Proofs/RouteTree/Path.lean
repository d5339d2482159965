import TypedRoutes.Proofs.Entries
import TypedRoutes.RouteTree

/-!
# Paths into a forest of routes

`RouteForest.At` says which tree stands at a path of keys, looking at every entry of every level.
`RouteTree.at?` finds one by looking the keys up. The two agree (`RouteForest.at_iff`) in forests
whose entries all have distinct keys, and inserting a route keeps keys distinct.

An insertion is seen through two views of a tree: `flag?`, the dynamic flag at a path, and `route?`,
the route at a path and a method key. `flag?_insert` and `route?_insert` say all it does to them.
-/

set_option autoImplicit false

namespace TypedRoutes

open Entries

/-! ## Trees at a path -/

/-- `At forest path tree`: following the keys of `path` through the entries of `forest` leads to
`tree`. -/
inductive RouteForest.At : RouteForest → List String → RouteTree → Prop
  | here {forest : RouteForest} {key : String} {tree : RouteTree} :
      (key, tree) ∈ forest → At forest [key] tree
  | inside {forest : RouteForest} {key : String} {tree sub : RouteTree} {rest : List String} :
      (key, tree) ∈ forest → At tree.children rest sub → At forest (key :: rest) sub

namespace RouteTree

/-- The tree at a path of keys below a tree. -/
def at? : List String → RouteTree → Option RouteTree
  | [], tree => some tree
  | key :: rest, tree => (tree.children.lookup key).bind (at? rest)

/-- The dynamic flag of the tree at a path. -/
def flag? (path : List String) (tree : RouteTree) : Option Bool := (tree.at? path).map isDynamic

/-- The route at a path under a method key. -/
def route? (path : List String) (key : String) (tree : RouteTree) : Option Route :=
  (tree.at? path).bind fun below => below.methods.lookup key

@[simp] theorem at?_nil (tree : RouteTree) : tree.at? [] = some tree := rfl

/-- A path leads through the child under its first key. -/
theorem at?_cons (key : String) (rest : List String) (tree : RouteTree) :
    tree.at? (key :: rest) = (tree.children.lookup key).bind (at? rest) := rfl

@[simp] theorem flag?_nil (tree : RouteTree) : tree.flag? [] = some tree.isDynamic := rfl

@[simp] theorem route?_nil (key : String) (tree : RouteTree) :
    tree.route? [] key = tree.methods.lookup key := rfl

theorem flag?_cons (key : String) (rest : List String) (tree : RouteTree) :
    tree.flag? (key :: rest) = (tree.children.lookup key).bind (flag? rest) := by
  rw [flag?, at?_cons]
  cases tree.children.lookup key <;> rfl

theorem route?_cons (key : String) (rest : List String) (method : String) (tree : RouteTree) :
    tree.route? (key :: rest) method = (tree.children.lookup key).bind (route? rest method) := by
  rw [route?, at?_cons]
  cases tree.children.lookup key <;> rfl

@[simp] theorem flag?_bare_cons (key : String) (rest : List String) (dynamic : Bool) :
    (bare dynamic).flag? (key :: rest) = none := rfl

@[simp] theorem route?_bare (path : List String) (key : String) (dynamic : Bool) :
    (bare dynamic).route? path key = none := by
  cases path <;> rfl

/-! ## Insertion through the views -/

/-- An address is canonical if its flags say which keys are the dynamic one. -/
def IsCanonical (address : List (String × Bool)) : Prop :=
  ∀ segment ∈ address, segment.2 = decide (segment.1 = RoutePath.dynamicKey)

/-- An insertion creates the trees on the way to its address and changes no flag of a tree that is
there. -/
theorem flag?_insert (route : Route) {address : List (String × Bool)}
    (canonical : IsCanonical address)
    (path : List String) (tree : RouteTree) :
    (tree.insert route address).flag? path =
      (tree.flag? path).or
        (if path <+: keys address then some (decide (path.getLast? = some RoutePath.dynamicKey))
          else none) := by
  induction address generalizing path tree with
  | nil =>
    obtain ⟨isDynamic, methods, children⟩ := tree
    cases path with
    | nil => rfl
    | cons key rest => simp [insert, flag?_cons, RouteTree.children]
  | cons segment address ih =>
    obtain ⟨isDynamic, methods, children⟩ := tree
    obtain ⟨key, dynamic⟩ := segment
    obtain ⟨hdynamic, hrest⟩ := List.forall_mem_cons.1 canonical
    cases path with
    | nil => rfl
    | cons key' rest =>
      simp only [insert, flag?_cons, RouteTree.children, keys_cons, List.cons_prefix_cons]
      by_cases h : key' = key
      · subst h
        rw [lookup_alter_self, Option.bind_some, ih hrest]
        cases found : children.lookup key' with
        | some below =>
          cases rest with
          | nil => rfl
          | cons next rest => simp
        -- The tree is new: its flag is the one of the address.
        | none =>
          cases rest with
          | nil => simpa [bare, RouteTree.isDynamic] using hdynamic
          | cons next rest => simp
      -- The path leaves the address here, so nothing changes.
      · rw [lookup_alter_of_ne h]
        simp [h]

/-- An insertion sets the route at its address under the key of the route and nothing else. -/
theorem route?_insert (route : Route) (address : List (String × Bool)) (path : List String)
    (method : String) (tree : RouteTree) :
    (tree.insert route address).route? path method =
      if path = keys address ∧ method = route.key then some route
      else tree.route? path method := by
  -- The induction is on the address: the route is found where the path goes the same way to its
  -- end, and everything else is found where it was.
  induction address generalizing path tree with
  | nil =>
    obtain ⟨isDynamic, methods, children⟩ := tree
    cases path with
    | nil =>
      simp only [insert, route?_nil, RouteTree.methods, keys_nil, true_and, put]
      by_cases h : method = route.key
      · subst h
        rw [lookup_alter_self, if_pos rfl]
      · rw [lookup_alter_of_ne h, if_neg h]
    | cons key rest => simp [insert, route?_cons, RouteTree.children]
  | cons segment address ih =>
    obtain ⟨isDynamic, methods, children⟩ := tree
    obtain ⟨key, dynamic⟩ := segment
    cases path with
    | nil => simp [insert, RouteTree.methods]
    | cons key' rest =>
      simp only [insert, route?_cons, RouteTree.children, keys_cons, List.cons.injEq]
      by_cases h : key' = key
      · subst h
        rw [lookup_alter_self, Option.bind_some, ih]
        cases children.lookup key' with
        | some below => simp
        | none => simp
      · rw [lookup_alter_of_ne h]
        simp [h]

/-! ## Distinct keys -/

/-- No key stands twice at any place of a tree. -/
inductive Distinct : RouteTree → Prop
  | node {isDynamic : Bool} {methods : List (String × Route)}
      {children : List (String × RouteTree)} :
      (keys methods).Nodup → (keys children).Nodup → (∀ entry ∈ children, Distinct entry.2) →
        Distinct (.node isDynamic methods children)

theorem distinct_bare (dynamic : Bool) : (bare dynamic).Distinct :=
  .node List.nodup_nil List.nodup_nil (by simp)

/-- Inserting a route keeps the keys of every node different. -/
theorem Distinct.insert (route : Route) (address : List (String × Bool)) {tree : RouteTree}
    (h : tree.Distinct) : (tree.insert route address).Distinct := by
  induction address generalizing tree with
  | nil =>
    obtain ⟨hmethods, hchildren, hbelow⟩ := h
    exact .node (nodup_keys_alter hmethods) hchildren hbelow
  | cons segment address ih =>
    obtain ⟨hmethods, hchildren, hbelow⟩ := h
    -- The child that is inserted into is one of the children or a new one.
    refine .node hmethods (nodup_keys_alter hchildren) (forall_mem_alter hbelow (ih ?_))
    cases found : List.lookup segment.1 _ with
    | none => exact distinct_bare segment.2
    | some below => exact hbelow _ (mem_of_lookup_eq_some found)

theorem Distinct.methods {tree : RouteTree} (h : tree.Distinct) : (keys tree.methods).Nodup := by
  obtain ⟨hmethods, -, -⟩ := h
  exact hmethods

/-- Every node of a distinct tree is distinct. -/
theorem Distinct.of_at? {path : List String} {tree below : RouteTree} (h : tree.Distinct)
    (hat : tree.at? path = some below) : below.Distinct := by
  induction path generalizing tree with
  | nil => exact Option.some.inj hat ▸ h
  | cons key rest ih =>
    obtain ⟨-, -, hbelow⟩ := h
    obtain ⟨child, found, hat⟩ := Option.bind_eq_some_iff.1 hat
    exact ih (hbelow _ (mem_of_lookup_eq_some found)) hat

end RouteTree

namespace RouteForest

/-- A forest as the children of one tree. -/
def root (forest : RouteForest) : RouteTree := .node false [] forest

/-- A route is inserted in a forest as it is below its root. -/
theorem root_insert (route : Route) {address : List (String × Bool)} (h : address ≠ [])
    (forest : RouteForest) :
    root (insert route address forest) = (root forest).insert route address := by
  cases address with
  | nil => exact absurd rfl h
  | cons segment rest => rfl

theorem distinct_root_children {tree : RouteTree} (h : tree.Distinct) :
    (root tree.children).Distinct := by
  obtain ⟨-, hchildren, hbelow⟩ := h
  exact .node List.nodup_nil hchildren hbelow

/-- What a path leads to below the root stands in the forest. -/
theorem at_of_at? {forest : RouteForest} {key : String} {rest : List String} {tree : RouteTree}
    (h : forest.root.at? (key :: rest) = some tree) : forest.At (key :: rest) tree := by
  induction rest generalizing forest key with
  | nil =>
    obtain ⟨below, found, h⟩ := Option.bind_eq_some_iff.1 h
    obtain rfl : below = tree := Option.some.inj h
    exact .here (mem_of_lookup_eq_some found)
  | cons next rest ih =>
    obtain ⟨below, found, h⟩ := Option.bind_eq_some_iff.1 h
    exact .inside (mem_of_lookup_eq_some found) (ih h)

/-- Among distinct keys, following the entries is looking the keys up. -/
theorem at_iff {forest : RouteForest} (distinct : forest.root.Distinct) {path : List String}
    {tree : RouteTree} :
    forest.At path tree ↔ path ≠ [] ∧ forest.root.at? path = some tree := by
  constructor
  · intro h
    induction h with
    | here hmem =>
      obtain ⟨-, hchildren, -⟩ := distinct
      exact ⟨by simp, by simp [RouteTree.at?_cons, root, RouteTree.children,
        (lookup_eq_some_iff_mem hchildren).2 hmem]⟩
    | @inside forest key below sub rest hmem _ ih =>
      obtain ⟨-, hchildren, hbelow⟩ := distinct
      -- The rest of the path starts below the entry, whose children are distinct as well.
      obtain ⟨hne, hat⟩ := ih (distinct_root_children (hbelow _ hmem))
      obtain ⟨next, rest, rfl⟩ := List.exists_cons_of_ne_nil hne
      refine ⟨by simp, ?_⟩
      rw [RouteTree.at?_cons, root, RouteTree.children,
        (lookup_eq_some_iff_mem hchildren).2 hmem]
      exact hat
  · rintro ⟨hne, hat⟩
    obtain ⟨key, rest, rfl⟩ := List.exists_cons_of_ne_nil hne
    exact at_of_at? hat

end RouteForest
end TypedRoutes
