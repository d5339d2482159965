import Mathlib.Data.List.DropRight
import TypedRoutes.Proofs.RouteTree.Index

/-!
# Mounting and unmounting

`Route.mounted` puts a mount point in front of the path of a route, and the forest of a list of
routes takes it away again. The two are inverse (`RouteForest.ofRoutes_mounted`): the mounted routes
stand in the forest below the mount point where the routes stand in the forest without one. What
counts of a mount point is its normal form, in which the separators at its ends are gone
(`normalizeMount_padded`).

Where a change of routes leaves their keys and their addresses as they are, every insertion can be
made before or after it (`RouteTree.mapRoutes_insert`), and so can all of them
(`RouteForest.ofRoutes_map`).
-/

set_option autoImplicit false

namespace TypedRoutes

/-! ## Mount points -/

namespace RoutePath

/-- A number of separators. -/
def separators (n : Nat) : List Char := List.replicate n '/'

/-- A mount point with separators added at its ends. -/
def padded (before : Nat) (mount : String) (after : Nat) : String :=
  String.ofList (separators before ++ mount.toList ++ separators after)

theorem eq_of_mem_separators {n : Nat} {c : Char} (h : c ∈ separators n) : c = '/' :=
  List.eq_of_mem_replicate h

theorem dropWhile_separators_append (n : Nat) (cs : List Char) :
    (separators n ++ cs).dropWhile (· = '/') = cs.dropWhile (· = '/') :=
  List.dropWhile_append_of_pos fun _ hc => decide_eq_true (eq_of_mem_separators hc)

/-- Trimming drops the separators at the front and then those at the end. -/
theorem trim_eq_rdropWhile (cs : List Char) :
    trim cs = (cs.dropWhile (· = '/')).rdropWhile (· = '/') := rfl

theorem rdropWhile_append_separators (cs : List Char) (n : Nat) :
    (cs ++ separators n).rdropWhile (· = '/') = cs.rdropWhile (· = '/') := by
  rw [List.rdropWhile, List.reverse_append, separators, List.reverse_replicate, ← separators,
    dropWhile_separators_append, ← List.rdropWhile]

/-- A text is what is left without its leading separators, behind some of them. -/
theorem exists_separators_append_dropWhile (cs : List Char) :
    ∃ n, cs = separators n ++ cs.dropWhile (· = '/') := by
  refine ⟨(cs.takeWhile (· = '/')).length, ?_⟩
  have hall : cs.takeWhile (· = '/') = separators (cs.takeWhile (· = '/')).length :=
    List.eq_replicate_iff.2 ⟨rfl, fun c hc => by simpa using List.mem_takeWhile_imp hc⟩
  rw [← hall, List.takeWhile_append_dropWhile]

/-- A text is what is left without its final separators, in front of some of them. -/
theorem exists_rdropWhile_append_separators (cs : List Char) :
    ∃ n, cs = cs.rdropWhile (· = '/') ++ separators n := by
  obtain ⟨n, hn⟩ := exists_separators_append_dropWhile cs.reverse
  refine ⟨n, ?_⟩
  have hreverse := congrArg List.reverse hn
  rwa [List.reverse_reverse, List.reverse_append, separators, List.reverse_replicate] at hreverse

/-- Separators at the ends of a text are trimmed away. -/
theorem trim_padded (before after : Nat) (cs : List Char) :
    trim (separators before ++ cs ++ separators after) = trim cs := by
  rw [trim_eq_rdropWhile, trim_eq_rdropWhile, List.append_assoc, dropWhile_separators_append,
    List.dropWhile_append]
  split
  -- The text is made of separators, so nothing is left of it on either side.
  · next hempty =>
    rw [List.isEmpty_iff.1 hempty, ← List.append_nil (separators after),
      dropWhile_separators_append]
    rfl
  · rw [rdropWhile_append_separators]

/-- Trimming does not see one separator more at the front. -/
theorem trim_cons_separator (cs : List Char) : trim ('/' :: cs) = trim cs := by
  simpa [separators] using trim_padded 1 0 cs

/-- A text is its trimmed text between separators. -/
theorem exists_eq_trim_padded (cs : List Char) :
    ∃ before after, cs = separators before ++ trim cs ++ separators after := by
  obtain ⟨before, hbefore⟩ := exists_separators_append_dropWhile cs
  obtain ⟨after, hafter⟩ := exists_rdropWhile_append_separators (cs.dropWhile (· = '/'))
  refine ⟨before, after, ?_⟩
  rw [List.append_assoc, trim_eq_rdropWhile, ← hafter, ← hbefore]

theorem trim_trim (cs : List Char) : trim (trim cs) = trim cs := by
  obtain ⟨before, after, hcs⟩ := exists_eq_trim_padded cs
  calc trim (trim cs)
      = trim (separators before ++ trim cs ++ separators after) := (trim_padded _ _ _).symm
    _ = trim cs := by rw [← hcs]

/-- A mount may be padded with separators, as normalizing trims them. -/
theorem normalizeMount_padded (before : Nat) (mount : String) (after : Nat) :
    normalizeMount (some (padded before mount after)) = normalizeMount (some mount) := by
  simp only [normalizeMount, padded, Option.getD_some, String.toList_ofList, trim_padded]

/-- Normalizing a mount changes separators at its ends only. -/
theorem trim_normalizeMount (mount : Option String) :
    trim (normalizeMount mount).toList = trim (mount.getD "").toList := by
  unfold normalizeMount
  split
  · next hnil =>
    rw [hnil]
    rfl
  · rw [String.toList_ofList, trim_cons_separator, trim_trim]

/-- Normalizing a mount again changes nothing. -/
theorem normalizeMount_normalizeMount (mount : Option String) :
    normalizeMount (some (normalizeMount mount)) = normalizeMount mount := by
  rw [normalizeMount, Option.getD_some, trim_normalizeMount, ← normalizeMount]

/-! ## Paths below a mount point -/

@[simp] theorem unmount_empty (path : String) : unmount "" path = path := by
  simp [unmount]

theorem unmount_of_not_prefix {mount path : String} (h : ¬ mount.toList <+: path.toList) :
    unmount mount path = path := by
  rw [unmount, if_neg]
  simpa using fun _ => h

/-- What is left of a path after its mount point has the segments of the path. -/
theorem segments_unmount_append (mount path : String) :
    segments (unmount mount (mount ++ path)) = segments path := by
  by_cases hmount : mount = ""
  · subst hmount
    rw [unmount_empty, String.empty_append]
  · have hprefix : (!mount.isEmpty && mount.toList.isPrefixOf (mount ++ path).toList) = true := by
      simp [hmount]
    rw [unmount, if_pos hprefix, String.toList_append, ← String.length_toList, List.drop_left]
    split
    -- The path is empty: the root stands for it, and neither has segments.
    · next hnil =>
      rw [String.toList_eq_nil_iff.1 hnil]
      decide
    · rw [String.ofList_toList]

end RoutePath

/-- The route with a mount point in front of its path. -/
def Route.mounted (mount : String) (r : Route) : Route := { r with path := mount ++ r.path }

/-- Mounting a route changes its path and not its key. -/
@[simp] theorem Route.key_mounted (mount : String) (r : Route) :
    (r.mounted mount).key = r.key := rfl

/-- A mounted route has under the mount the address that the route has without one. -/
theorem Route.address_mounted (mount : String) (r : Route) :
    RoutePath.address mount (r.mounted mount).path = RoutePath.address "" r.path := by
  rw [RoutePath.address, RoutePath.address, mounted, RoutePath.segments_unmount_append,
    RoutePath.unmount_empty]

/-! ## A change of all routes -/

mutual

/-- The tree with every route in it changed. -/
def RouteTree.mapRoutes (f : Route → Route) : RouteTree → RouteTree
  | .node isDynamic methods children =>
    .node isDynamic (methods.map (Prod.map id f)) (mapForestRoutes f children)

/-- The forest with every route in it changed. -/
def mapForestRoutes (f : Route → Route) : List (String × RouteTree) → List (String × RouteTree)
  | [] => []
  | (key, tree) :: rest => (key, tree.mapRoutes f) :: mapForestRoutes f rest

end

/-- The forest with every route in it changed. The keys, their order and the dynamic flags stay. -/
def RouteForest.mapRoutes (f : Route → Route) (forest : RouteForest) : RouteForest :=
  mapForestRoutes f forest

variable {f : Route → Route}

/-- The routes of a forest are mapped tree by tree. -/
theorem mapForestRoutes_eq_map (forest : List (String × RouteTree)) :
    mapForestRoutes f forest = forest.map (Prod.map id (RouteTree.mapRoutes f)) := by
  induction forest with
  | nil => rfl
  | cons entry rest ih =>
    rw [mapForestRoutes, ih, List.map_cons]
    rfl

namespace RouteTree

@[simp] theorem mapRoutes_bare (dynamic : Bool) : (bare dynamic).mapRoutes f = bare dynamic := rfl

@[simp] theorem getD_map_mapRoutes (below : Option RouteTree) (dynamic : Bool) :
    (below.map (mapRoutes f)).getD (bare dynamic) =
      (below.getD (bare dynamic)).mapRoutes f := by
  cases below <;> simp

/-- A route can be set before or after a change of all routes that keeps its key. -/
theorem mapRoutes_insert {r : Route} (hkey : (f r).key = r.key) (address : List (String × Bool))
    (tree : RouteTree) :
    (tree.insert r address).mapRoutes f = (tree.mapRoutes f).insert (f r) address := by
  induction address generalizing tree with
  | nil =>
    obtain ⟨isDynamic, methods, children⟩ := tree
    rw [insert, mapRoutes, mapRoutes, insert, hkey, Entries.map_put]
  | cons segment rest ih =>
    obtain ⟨isDynamic, methods, children⟩ := tree
    rw [insert, mapRoutes, mapRoutes, insert, mapForestRoutes_eq_map, mapForestRoutes_eq_map,
      Entries.map_alter]
    intro below
    rw [ih, getD_map_mapRoutes]

end RouteTree

namespace RouteForest

/-- Inserting commutes with a map of the routes that keeps the key of the one inserted. -/
theorem mapRoutes_insert {r : Route} (hkey : (f r).key = r.key) (address : List (String × Bool))
    (forest : RouteForest) :
    (insert r address forest).mapRoutes f = insert (f r) address (forest.mapRoutes f) := by
  cases address with
  | nil => rfl
  | cons segment rest =>
    rw [insert, insert, mapRoutes, mapRoutes, mapForestRoutes_eq_map, mapForestRoutes_eq_map,
      Entries.map_alter]
    intro below
    rw [RouteTree.mapRoutes_insert hkey, RouteTree.getD_map_mapRoutes]

/-- A change of routes that keeps their keys and their addresses can be made before the forest is
built or after it. -/
theorem ofRoutes_map {mount mount' : Option String} (hkey : ∀ r, (f r).key = r.key)
    (haddress : ∀ r, RoutePath.address (RoutePath.normalizeMount mount') (f r).path =
      RoutePath.address (RoutePath.normalizeMount mount) r.path) (routes : List Route) :
    ofRoutes mount' (routes.map f) = (ofRoutes mount routes).mapRoutes f := by
  induction routes using List.reverseRecOn with
  | nil => rfl
  | append_singleton routes r ih =>
    rw [List.map_append, List.map_singleton, ofRoutes_concat, ofRoutes_concat, ih, haddress,
      mapRoutes_insert (hkey r)]

/-- A mount point that no path starts with takes nothing away. -/
theorem ofRoutes_of_not_prefix {mount : Option String} {routes : List Route}
    (h : ∀ r ∈ routes, ¬ (RoutePath.normalizeMount mount).toList <+: r.path.toList) :
    ofRoutes mount routes = ofRoutes none routes := by
  refine List.foldl_ext _ _ _ fun forest r hr => ?_
  have hnone : RoutePath.normalizeMount none = "" := rfl
  rw [RoutePath.address, RoutePath.address, RoutePath.unmount_of_not_prefix (h r hr), hnone,
    RoutePath.unmount_empty]

/-- Below a mount point with any number of separators added at its ends, routes whose paths start
with its normal form give the forest that they give without a mount point and without that start,
with the routes in it mounted. Routes none of which starts with the normal form give the forest that
they give without a mount point. The normal form is its own. -/
theorem ofRoutes_mounted (mount : Option String) (before after : Nat) (routes : List Route) :
    let normal := RoutePath.normalizeMount mount
    let padded := RoutePath.padded before (mount.getD "") after
    ofRoutes (some padded) (routes.map (Route.mounted normal)) =
        (ofRoutes none routes).mapRoutes (Route.mounted normal) ∧
      ((∀ r ∈ routes, ¬ normal.toList <+: r.path.toList) →
        ofRoutes (some padded) routes = ofRoutes none routes) ∧
      RoutePath.normalizeMount (some normal) = normal := by
  intro normal padded
  have hnormal : RoutePath.normalizeMount (some padded) = normal :=
    RoutePath.normalizeMount_padded before (mount.getD "") after
  refine ⟨?_, ?_, RoutePath.normalizeMount_normalizeMount mount⟩
  · refine ofRoutes_map (Route.key_mounted normal) (fun r => ?_) routes
    rw [hnormal]
    exact r.address_mounted normal
  · intro hplain
    exact ofRoutes_of_not_prefix (hnormal ▸ hplain)

/-- Routes with a path that repeats the mount point, a path without a leading separator and the
empty path. -/
def repeatingRoutes : List Route :=
  [.plain "GET" "/v1//x/", .plain "GET" "users/:id", .plain "GET" ""]

/-- The mounted routes give the forest of the routes themselves, and the routes without the one that
starts with the mount point are left as they are. -/
theorem ofRoutes_mounted_repeatingRoutes :
    ofRoutes (some "//v1//x/") (repeatingRoutes.map (Route.mounted "/v1//x")) =
        (ofRoutes none repeatingRoutes).mapRoutes (Route.mounted "/v1//x") ∧
      ofRoutes (some "//v1//x/") (repeatingRoutes.drop 1) =
        ofRoutes none (repeatingRoutes.drop 1) := by
  have hnormal : RoutePath.normalizeMount (some "/v1//x") = "/v1//x" := by decide
  have hpadded : RoutePath.padded 1 "/v1//x" 1 = "//v1//x/" := by decide
  obtain ⟨hmounted, -, -⟩ := ofRoutes_mounted (some "/v1//x") 1 1 repeatingRoutes
  obtain ⟨-, hplain, -⟩ := ofRoutes_mounted (some "/v1//x") 1 1 (repeatingRoutes.drop 1)
  rw [hnormal, Option.getD_some, hpadded] at hmounted hplain
  exact ⟨hmounted, hplain (by decide)⟩

end RouteForest
end TypedRoutes
