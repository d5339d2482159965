import Mathlib.Data.List.Induction
import TypedRoutes.Proofs.RouteTree.Path

/-!
# The forest of routes as an index

The forest of a list of routes has a tree exactly at the paths that some route passes through, a
tree is dynamic exactly if its last key is the dynamic one, and under each method key it holds the
last route of the list that ends there (`ofRoutes_indexes_last`).

The list is read from its end: `ofRoutes_concat` says that one more route is one more insertion, so
what `flag?_insert` and `route?_insert` say of one step gives `flag?_ofRoutes` and
`route?_ofRoutes` by induction.
-/

set_option autoImplicit false

namespace TypedRoutes

open Entries

/-! ## Addresses -/

/-- A segment is dynamic exactly if its key is the dynamic one. -/
theorem RoutePath.canonical_snd (segment : String) :
    (canonical segment).2 = decide ((canonical segment).1 = dynamicKey) := by
  unfold canonical
  split
  · simp
  · next h =>
    -- The dynamic key itself is led by a colon.
    have hne : segment ≠ dynamicKey := by
      rintro rfl
      exact h (by decide)
    simpa using hne

/-- Every address is canonical: the key of a segment decides whether it is dynamic. -/
theorem RoutePath.isCanonical_address (mount path : String) :
    RouteTree.IsCanonical (address mount path) := by
  intro segment hsegment
  obtain ⟨text, -, rfl⟩ := List.mem_map.1 hsegment
  exact canonical_snd text

/-- A route with nothing but its method and its path. -/
def Route.plain (method path : String) : Route := ⟨method, path, none, none, false, .empty⟩

/-- The keys of the path of a route below a mount point. -/
def Route.pathKeys (mount : Option String) (r : Route) : List String :=
  keys (RoutePath.address (RoutePath.normalizeMount mount) r.path)

/-- A route has no path exactly when its address is empty. -/
theorem Route.pathKeys_eq_nil_iff {mount : Option String} {r : Route} :
    r.pathKeys mount = [] ↔ RoutePath.address (RoutePath.normalizeMount mount) r.path = [] := by
  simp [pathKeys, keys]

namespace RouteForest

variable (mount : Option String)

/-! ## One route more -/

@[simp] theorem ofRoutes_nil : ofRoutes mount [] = [] := rfl

/-- The forest of one route more is the forest with the route inserted at its address. -/
theorem ofRoutes_concat (routes : List Route) (r : Route) :
    ofRoutes mount (routes ++ [r]) =
      insert r (RoutePath.address (RoutePath.normalizeMount mount) r.path)
        (ofRoutes mount routes) := by
  simp [ofRoutes]

/-- A route without a path leaves the forest as it is. -/
theorem ofRoutes_concat_of_pathKeys_eq_nil {r : Route} (h : r.pathKeys mount = [])
    (routes : List Route) : ofRoutes mount (routes ++ [r]) = ofRoutes mount routes := by
  rw [ofRoutes_concat, Route.pathKeys_eq_nil_iff.1 h, insert]

/-- A route with a path is inserted below the root of the forest. -/
theorem root_ofRoutes_concat {r : Route} (h : r.pathKeys mount ≠ []) (routes : List Route) :
    (ofRoutes mount (routes ++ [r])).root =
      (ofRoutes mount routes).root.insert r
        (RoutePath.address (RoutePath.normalizeMount mount) r.path) := by
  rw [ofRoutes_concat, root_insert r (mt Route.pathKeys_eq_nil_iff.2 h)]

/-! ## All routes -/

/-- No key stands twice in any node of the forest. -/
theorem distinct_ofRoutes (routes : List Route) : (ofRoutes mount routes).root.Distinct := by
  induction routes using List.reverseRecOn with
  | nil => exact RouteTree.distinct_bare false
  | append_singleton routes r ih =>
    by_cases h : r.pathKeys mount = []
    · rw [ofRoutes_concat_of_pathKeys_eq_nil mount h]
      exact ih
    · rw [root_ofRoutes_concat mount h]
      exact ih.insert r _

/-- A flag stands exactly where some route passes. -/
theorem flag?_ofRoutes (routes : List Route) {path : List String} (hpath : path ≠ []) :
    (ofRoutes mount routes).root.flag? path =
      if ∃ r ∈ routes, path <+: r.pathKeys mount then
        some (decide (path.getLast? = some RoutePath.dynamicKey))
      else none := by
  induction routes using List.reverseRecOn with
  | nil =>
    obtain ⟨key, rest, rfl⟩ := List.exists_cons_of_ne_nil hpath
    simp [root, RouteTree.flag?_cons, RouteTree.children]
  | append_singleton routes r ih =>
    have hsplit : (∃ r' ∈ routes ++ [r], path <+: r'.pathKeys mount) ↔
        (∃ r' ∈ routes, path <+: r'.pathKeys mount) ∨ path <+: r.pathKeys mount := by
      simp [or_and_right, exists_or]
    simp only [hsplit]
    by_cases h : r.pathKeys mount = []
    · rw [ofRoutes_concat_of_pathKeys_eq_nil mount h, ih, h]
      simp [hpath]
    · rw [root_ofRoutes_concat mount h,
        RouteTree.flag?_insert r (RoutePath.isCanonical_address _ _), ih, ← Route.pathKeys]
      -- A route that passed before has set the same flag.
      by_cases hbefore : ∃ r' ∈ routes, path <+: r'.pathKeys mount
      · simp [hbefore]
      · simp [hbefore]

/-- The route at a path and a method key is the last one of the list that belongs there. -/
theorem route?_ofRoutes (routes : List Route) {path : List String} (hpath : path ≠ [])
    (method : String) :
    (ofRoutes mount routes).root.route? path method =
      (routes.filter fun r => r.pathKeys mount = path ∧ r.key = method).getLast? := by
  induction routes using List.reverseRecOn with
  | nil =>
    obtain ⟨key, rest, rfl⟩ := List.exists_cons_of_ne_nil hpath
    simp [root, RouteTree.route?_cons, RouteTree.children]
  | append_singleton routes r ih =>
    rw [List.filter_append]
    by_cases h : r.pathKeys mount = []
    · have hne : r.pathKeys mount ≠ path := fun e => hpath (e.symm.trans h)
      rw [ofRoutes_concat_of_pathKeys_eq_nil mount h, ih]
      simp [hne]
    · rw [root_ofRoutes_concat mount h, RouteTree.route?_insert, ih, ← Route.pathKeys]
      -- A route that belongs here is the last one so far; any other leaves the place as it was.
      by_cases here : r.pathKeys mount = path ∧ r.key = method
      · obtain ⟨rfl, rfl⟩ := here
        simp
      · rw [if_neg fun e => here ⟨e.1.symm, e.2.symm⟩]
        simp [here]

/-- Routes without a path below the mount point have no effect. -/
theorem ofRoutes_filter_pathKeys (routes : List Route) :
    ofRoutes mount (routes.filter fun r => r.pathKeys mount ≠ []) = ofRoutes mount routes := by
  induction routes using List.reverseRecOn with
  | nil => rfl
  | append_singleton routes r ih =>
    rw [List.filter_append]
    by_cases h : r.pathKeys mount = []
    · rw [ofRoutes_concat_of_pathKeys_eq_nil mount h]
      simpa [h] using ih
    · rw [ofRoutes_concat, ← ih, ← ofRoutes_concat]
      simp [h]

/-! ## The index -/

/-- A node of the forest is a node below its root. -/
theorem at_ofRoutes_iff {routes : List Route} {path : List String} {tree : RouteTree} :
    (ofRoutes mount routes).At path tree ↔
      path ≠ [] ∧ (ofRoutes mount routes).root.at? path = some tree :=
  at_iff (distinct_ofRoutes mount routes)

/-- The paths that lead to a node are those that begin the path of some route, but for the empty
one. -/
theorem exists_at_ofRoutes_iff {routes : List Route} {path : List String} :
    (∃ tree, (ofRoutes mount routes).At path tree) ↔
      path ≠ [] ∧ ∃ r ∈ routes, path <+: r.pathKeys mount := by
  simp only [at_ofRoutes_iff, exists_and_left]
  apply and_congr_right
  intro hpath
  have hflag := flag?_ofRoutes mount routes hpath
  rw [← Option.isSome_iff_exists, ← Option.isSome_map (f := RouteTree.isDynamic)]
  rw [RouteTree.flag?] at hflag
  rw [hflag]
  by_cases h : ∃ r ∈ routes, path <+: r.pathKeys mount
  · simp [h]
  · simp [h]

/-- A node is dynamic exactly when its key is the one of dynamic segments. -/
theorem isDynamic_iff_of_at {routes : List Route} {path : List String} {tree : RouteTree}
    (h : (ofRoutes mount routes).At path tree) :
    tree.isDynamic = true ↔ path.getLast? = some RoutePath.dynamicKey := by
  obtain ⟨hpath, hat⟩ := (at_ofRoutes_iff mount).1 h
  have hused := ((exists_at_ofRoutes_iff mount).1 ⟨tree, h⟩).2
  have hflag := flag?_ofRoutes mount routes hpath
  rw [RouteTree.flag?, hat, if_pos hused] at hflag
  rw [Option.some.inj hflag]
  exact decide_eq_true_iff

/-- The route at a method key is the last one with this path and this key. -/
theorem mem_methods_iff_of_at {routes : List Route} {path : List String} {tree : RouteTree}
    (h : (ofRoutes mount routes).At path tree) (method : String) (r : Route) :
    (method, r) ∈ tree.methods ↔
      (routes.filter fun r => r.pathKeys mount = path ∧ r.key = method).getLast? = some r := by
  obtain ⟨hpath, hat⟩ := (at_ofRoutes_iff mount).1 h
  have hdistinct : (keys tree.methods).Nodup :=
    (RouteTree.Distinct.of_at? (distinct_ofRoutes mount routes) hat).methods
  rw [← route?_ofRoutes mount routes hpath, RouteTree.route?, hat, Option.bind_some,
    lookup_eq_some_iff_mem hdistinct]

/-- Below every tree a route ends. -/
theorem exists_methods_below {routes : List Route} {path : List String} {tree : RouteTree}
    (h : (ofRoutes mount routes).At path tree) :
    ∃ rest below, (ofRoutes mount routes).At (path ++ rest) below ∧ below.methods ≠ [] := by
  -- Follow a route that passes to its end.
  obtain ⟨hpath, r, hr, rest, hrest⟩ := (exists_at_ofRoutes_iff mount).1 ⟨tree, h⟩
  have hne : path ++ rest ≠ [] := by simp [hpath]
  obtain ⟨below, hbelow⟩ := (exists_at_ofRoutes_iff mount).2 ⟨hne, r, hr, hrest ▸ List.prefix_rfl⟩
  refine ⟨rest, below, hbelow, ?_⟩
  intro hnone
  have hfilter : r ∈ routes.filter fun r' => r'.pathKeys mount = path ++ rest ∧ r'.key = r.key := by
    simp [hr, hrest]
  have hmem := (mem_methods_iff_of_at mount hbelow r.key _).2
    (List.getLast?_eq_some_getLast (List.ne_nil_of_mem hfilter))
  rw [hnone] at hmem
  exact List.not_mem_nil hmem

/-- The forest of a list of routes is the index of its last routes. A tree stands at a path exactly
if some route passes through it, and below every tree some route ends; the tree at a path is the
only one there, is dynamic exactly if the last key is the dynamic one, and has under each method key
the last route of the list that ends there with this key. Routes without a path below the mount
point have no effect. -/
theorem ofRoutes_indexes_last (routes : List Route) :
    (∀ path, (∃ tree, (ofRoutes mount routes).At path tree) ↔
      path ≠ [] ∧ ∃ r ∈ routes, path <+: r.pathKeys mount) ∧
    (∀ path tree, (ofRoutes mount routes).At path tree →
      (∀ other, (ofRoutes mount routes).At path other → other = tree) ∧
      (∃ rest below, (ofRoutes mount routes).At (path ++ rest) below ∧ below.methods ≠ []) ∧
      (tree.isDynamic = true ↔ path.getLast? = some RoutePath.dynamicKey) ∧
      ∀ method r, (method, r) ∈ tree.methods ↔
        (routes.filter fun r => r.pathKeys mount = path ∧ r.key = method).getLast? = some r) ∧
    ofRoutes mount (routes.filter fun r => r.pathKeys mount ≠ []) = ofRoutes mount routes := by
  refine ⟨fun path => exists_at_ofRoutes_iff mount, fun path tree h => ?_,
    ofRoutes_filter_pathKeys mount routes⟩
  refine ⟨fun other hother => ?_, exists_methods_below mount h, isDynamic_iff_of_at mount h,
    mem_methods_iff_of_at mount h⟩
  have hat := ((at_ofRoutes_iff mount).1 h).2
  have hother := ((at_ofRoutes_iff mount).1 hother).2
  exact Option.some.inj (hother.symm.trans hat)

/-- Two routes of one method below a dynamic segment of two names, the second of which stays. -/
theorem ofRoutes_indexes_last_collision :
    ∃ tree,
      (ofRoutes (some "api/")
        [.plain "GET" "/api/users/:id", .plain "get" "/api//users/:userId/"]).At
          ["users", ":id"] tree ∧
      tree.isDynamic = true ∧ ("get", .plain "get" "/api//users/:userId/") ∈ tree.methods := by
  have hfirst : (Route.plain "GET" "/api/users/:id").pathKeys (some "api/") =
      ["users", ":id"] := by decide
  have hsecond : (Route.plain "get" "/api//users/:userId/").pathKeys (some "api/") =
      ["users", ":id"] := by decide
  have hkey : (Route.plain "get" "/api//users/:userId/").key = "get" := by decide +kernel
  obtain ⟨htrees, hentries, -⟩ := ofRoutes_indexes_last (some "api/")
    [.plain "GET" "/api/users/:id", .plain "get" "/api//users/:userId/"]
  obtain ⟨tree, h⟩ := (htrees ["users", ":id"]).2
    ⟨by simp, .plain "GET" "/api/users/:id", by simp, by simp [hfirst]⟩
  obtain ⟨-, -, hdynamic, hmethods⟩ := hentries _ tree h
  refine ⟨tree, h, hdynamic.2 (by decide), (hmethods "get" _).2 ?_⟩
  -- Both routes pass the filter, and the second is the last.
  rw [← List.singleton_append (x := Route.plain "GET" "/api/users/:id"), List.filter_append]
  simp [hsecond, hkey]

end RouteForest
end TypedRoutes
