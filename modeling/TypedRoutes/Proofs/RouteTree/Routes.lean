import TypedRoutes.Proofs.RouteTree.Index

/-!
# The routes in a forest

The routes in a forest (`RouteForest.routes`) are those that stand at some path under some key
(`RouteForest.mem_routes_iff`). In the forest of a list of routes these are the routes that have a
path below the mount point and whose place no later route takes (`Route.Survives`).
-/

set_option autoImplicit false

namespace TypedRoutes

mutual

/-- The routes in a tree. -/
def RouteTree.routes : RouteTree → List Route
  | .node _ methods children => methods.map Prod.snd ++ forestRoutes children

/-- The routes in a forest, tree by tree. -/
def forestRoutes : List (String × RouteTree) → List Route
  | [] => []
  | (_, tree) :: rest => tree.routes ++ forestRoutes rest

end

/-- The routes in a forest. -/
def RouteForest.routes (forest : RouteForest) : List Route := forestRoutes forest

/-- The route has a path below the mount point, and it is the last of the routes with the same place
and the same key. -/
def Route.Survives (mount : Option String) (routes : List Route) (r : Route) : Prop :=
  r.pathKeys mount ≠ [] ∧
    (routes.filter fun other => other.pathKeys mount = r.pathKeys mount ∧
      other.key = r.key).getLast? = some r

theorem Route.Survives.mem {mount : Option String} {routes : List Route} {r : Route}
    (h : r.Survives mount routes) : r ∈ routes :=
  (List.mem_filter.1 (List.mem_of_getLast? h.2)).1

namespace RouteTree

/-- The routes of a tree are those of its methods and those of its children. -/
theorem mem_routes_iff {tree : RouteTree} {r : Route} :
    r ∈ tree.routes ↔ (∃ key, (key, r) ∈ tree.methods) ∨ r ∈ tree.children.routes := by
  obtain ⟨isDynamic, methods, children⟩ := tree
  simp [routes, RouteTree.methods, RouteTree.children, RouteForest.routes]

end RouteTree

namespace RouteForest

theorem mem_routes_of_mem {forest : RouteForest} {key : String} {tree : RouteTree} {r : Route}
    (htree : (key, tree) ∈ forest) (hr : r ∈ tree.routes) : r ∈ forest.routes := by
  induction forest with
  | nil => cases htree
  | cons entry rest ih =>
    rw [routes, forestRoutes, List.mem_append]
    rcases List.mem_cons.1 htree with rfl | htree
    · exact .inl hr
    · exact .inr (ih htree)

/-- A route below a node of the forest is a route of the forest. -/
theorem mem_routes_of_at {forest : RouteForest} {path : List String} {tree : RouteTree} {r : Route}
    (h : forest.At path tree) (hr : r ∈ tree.routes) : r ∈ forest.routes := by
  induction h with
  | here hmem => exact mem_routes_of_mem hmem hr
  | inside hmem _ ih => exact mem_routes_of_mem hmem (RouteTree.mem_routes_iff.2 (.inr (ih hr)))

theorem At.cons {entry : String × RouteTree} {forest : RouteForest} {path : List String}
    {tree : RouteTree} (h : forest.At path tree) : At (entry :: forest) path tree := by
  cases h with
  | here hmem => exact .here (List.mem_cons_of_mem entry hmem)
  | inside hmem hbelow => exact .inside (List.mem_cons_of_mem entry hmem) hbelow

end RouteForest

mutual

/-- Every route of a tree is a method of some node, by induction on the tree. -/
theorem RouteTree.exists_at_of_mem_routes : ∀ (tree : RouteTree) {r : Route}, r ∈ tree.routes →
    (∃ key, (key, r) ∈ tree.methods) ∨
      ∃ path below key, tree.children.At path below ∧ (key, r) ∈ below.methods
  | .node _ methods children, r, h => by
    rcases RouteTree.mem_routes_iff.1 h with h | h
    · exact .inl h
    · exact .inr (exists_at_of_mem_forestRoutes children h)

/-- Every route of a forest is a method of some node. -/
theorem exists_at_of_mem_forestRoutes : ∀ (forest : List (String × RouteTree)) {r : Route},
    r ∈ forestRoutes forest →
      ∃ path tree key, RouteForest.At forest path tree ∧ (key, r) ∈ tree.methods
  | [], r, h => nomatch h
  | (key, tree) :: rest, r, h => by
    rw [forestRoutes, List.mem_append] at h
    rcases h with h | h
    -- A route of the first tree stands at its key or below it.
    · rcases tree.exists_at_of_mem_routes h with
        ⟨method, hmethod⟩ | ⟨path, below, method, hat, hmethod⟩
      · exact ⟨[key], tree, method, .here List.mem_cons_self, hmethod⟩
      · exact ⟨key :: path, below, method, .inside List.mem_cons_self hat, hmethod⟩
    · obtain ⟨path, below, method, hat, hmethod⟩ := exists_at_of_mem_forestRoutes rest h
      exact ⟨path, below, method, hat.cons, hmethod⟩

end

namespace RouteForest

/-- The routes in a forest are those that stand at some path under some key. -/
theorem mem_routes_iff {forest : RouteForest} {r : Route} :
    r ∈ forest.routes ↔ ∃ path tree key, forest.At path tree ∧ (key, r) ∈ tree.methods := by
  constructor
  · exact exists_at_of_mem_forestRoutes forest
  · rintro ⟨path, tree, key, hat, hmethod⟩
    exact mem_routes_of_at hat (RouteTree.mem_routes_iff.2 (.inl ⟨key, hmethod⟩))

/-- A route of a list stands in its forest under a method key if and only if it survives and the key
is its own. -/
theorem exists_at_mem_methods_iff {mount : Option String} {routes : List Route} {method : String}
    {r : Route} :
    (∃ path tree, (ofRoutes mount routes).At path tree ∧ (method, r) ∈ tree.methods) ↔
      r.Survives mount routes ∧ method = r.key := by
  constructor
  · rintro ⟨path, tree, hat, hmethod⟩
    have hlast := (mem_methods_iff_of_at mount hat method r).1 hmethod
    have hplace := List.mem_filter.1 (List.mem_of_getLast? hlast)
    simp only [decide_eq_true_eq] at hplace
    obtain ⟨-, rfl, rfl⟩ := hplace
    exact ⟨⟨((exists_at_ofRoutes_iff mount).1 ⟨tree, hat⟩).1, hlast⟩, rfl⟩
  · rintro ⟨h, rfl⟩
    obtain ⟨tree, hat⟩ := (exists_at_ofRoutes_iff mount).2 ⟨h.1, r, h.mem, List.prefix_rfl⟩
    exact ⟨_, tree, hat, (mem_methods_iff_of_at mount hat r.key r).2 h.2⟩

/-- The routes in the forest of a list are those that survive. -/
theorem mem_routes_ofRoutes_iff {mount : Option String} {routes : List Route} {r : Route} :
    r ∈ (ofRoutes mount routes).routes ↔ r.Survives mount routes := by
  rw [mem_routes_iff]
  constructor
  · rintro ⟨path, tree, key, hat, hmethod⟩
    exact (exists_at_mem_methods_iff.1 ⟨path, tree, hat, hmethod⟩).1
  · intro h
    obtain ⟨path, tree, hat, hmethod⟩ := exists_at_mem_methods_iff.2 ⟨h, rfl⟩
    exact ⟨path, tree, r.key, hat, hmethod⟩

end RouteForest
end TypedRoutes
