import TypedRoutes.Proofs.Client.Declaration
import TypedRoutes.Proofs.RouteTree.Index

/-!
# The properties of a block

The block of a tree declares one property for each method key and one for each key of a segment that
follows (`RouteTree.exists_properties`). Method keys and keys of segments are kept apart: each are
distinct, but a route that ends at the tree may have the key of a segment that another route passes
through, and then the block declares that key twice. `RouteForest.propertyKeys_ofRoutes` says that
this is the only way.
-/

set_option autoImplicit false

namespace TypedRoutes

open Entries

/-! ## What a block declares -/

/-- The keys of the properties of a block, in the order in which they are written. -/
def RouteTree.propertyKeys (tree : RouteTree) : List String :=
  keys tree.methods ++ keys tree.children

/-- The lines that declare one property in a block at a level: a route below its comment, or a block
of its own. -/
inductive Property (write : RouteWriter) (level : Int) : String → List String → Prop
  | method {key text : String} {route : Route} :
      write route (level + 1) = .ok text →
        Property write level key (route.commentLines (padding level ++ "  ") ++
          [padding level ++ "  " ++ PropertyKey.text key ++ ": " ++ text])
  | block {key : String} {tree : RouteTree} {inner : List String} :
      tree.innerLines write (level + 1) = .ok inner →
        Property write level key ([padding (level + 1) ++ PropertyKey.text key ++ ": \x7b"] ++
          inner ++ [padding (level + 1) ++ "\x7d"])

section

variable {write : RouteWriter} {level : Int}

/-- The lines of the methods fall into one property for each key. -/
theorem exists_properties_methodLines {methods : List (String × Route)} {written : List String}
    (h : methodLines write level methods = .ok written) :
    ∃ groups : List (List String), written = groups.flatten ∧
      List.Forall₂ (Property write level) (keys methods) groups := by
  induction methods generalizing written with
  | nil =>
    obtain rfl := Except.ok.inj h
    exact ⟨[], rfl, .nil⟩
  | cons entry rest ih =>
    obtain ⟨key, route⟩ := entry
    obtain ⟨text, others, htext, hothers, rfl⟩ := methodLines_cons_eq_ok_iff.1 h
    obtain ⟨groups, rfl, hgroups⟩ := ih hothers
    exact ⟨_ :: groups, rfl, .cons (.method htext) hgroups⟩

/-- The lines of a forest fall into one property for each key. -/
theorem exists_properties_forestLines {forest : List (String × RouteTree)} {written : List String}
    (h : forestLines write (level + 1) forest = .ok written) :
    ∃ groups : List (List String), written = groups.flatten ∧
      List.Forall₂ (Property write level) (keys forest) groups := by
  induction forest generalizing written with
  | nil =>
    obtain rfl := Except.ok.inj h
    exact ⟨[], rfl, .nil⟩
  | cons entry rest ih =>
    obtain ⟨key, tree⟩ := entry
    obtain ⟨inner, others, hinner, hothers, rfl⟩ := forestLines_cons_eq_ok_iff.1 h
    obtain ⟨groups, rfl, hgroups⟩ := ih hothers
    exact ⟨_ :: groups, rfl, .cons (.block hinner) hgroups⟩

/-- The lines of a block declare its property keys one after another. -/
theorem RouteTree.exists_properties {tree : RouteTree} {written : List String}
    (h : tree.innerLines write level = .ok written) :
    ∃ groups : List (List String), written = groups.flatten ∧
      List.Forall₂ (Property write level) tree.propertyKeys groups := by
  obtain ⟨isDynamic, methods, children⟩ := tree
  obtain ⟨own, below, hown, hbelow, rfl⟩ := RouteTree.innerLines_eq_ok_iff.1 h
  obtain ⟨ownGroups, rfl, hownGroups⟩ := exists_properties_methodLines hown
  obtain ⟨belowGroups, rfl, hbelowGroups⟩ := exists_properties_forestLines hbelow
  exact ⟨ownGroups ++ belowGroups, List.flatten_append.symm,
    List.rel_append hownGroups hbelowGroups⟩

end

/-! ## The keys of a tree of a list of routes -/

namespace RouteTree

theorem Distinct.children {tree : RouteTree} (h : tree.Distinct) : (keys tree.children).Nodup := by
  obtain ⟨-, hchildren, -⟩ := h
  exact hchildren

/-- A path leads to where its parts lead one after the other. -/
theorem at?_append (path rest : List String) (tree : RouteTree) :
    tree.at? (path ++ rest) = (tree.at? path).bind (at? rest) := by
  induction path generalizing tree with
  | nil => rfl
  | cons key path ih =>
    rw [List.cons_append, at?_cons, at?_cons, Option.bind_assoc]
    exact congrArg _ (funext ih)

end RouteTree

namespace RouteForest

variable (mount : Option String) {routes : List Route} {path : List String} {tree : RouteTree}

theorem distinct_of_at (h : (ofRoutes mount routes).At path tree) : tree.Distinct :=
  .of_at? (distinct_ofRoutes mount routes) ((at_ofRoutes_iff mount).1 h).2

/-- The method keys at a path are the keys of the routes that end there. -/
theorem mem_keys_methods_iff (h : (ofRoutes mount routes).At path tree) (key : String) :
    key ∈ keys tree.methods ↔ ∃ r ∈ routes, r.pathKeys mount = path ∧ r.key = key := by
  have hmem := mem_methods_iff_of_at mount h key
  constructor
  · intro hkey
    obtain ⟨⟨_, r⟩, hentry, rfl⟩ := List.mem_map.1 hkey
    have hlast := List.mem_of_getLast? ((hmem r).1 hentry)
    exact ⟨r, by simpa using hlast⟩
  · rintro ⟨r, hr, hpath, hkey⟩
    have hfilter : r ∈ routes.filter fun r => r.pathKeys mount = path ∧ r.key = key := by
      simp [hr, hpath, hkey]
    have hlast := List.getLast?_eq_some_getLast (List.ne_nil_of_mem hfilter)
    exact List.mem_map_of_mem ((hmem _).2 hlast)

/-- The child keys at a path are the keys that some route goes on with. -/
theorem mem_keys_children_iff (h : (ofRoutes mount routes).At path tree) (key : String) :
    key ∈ keys tree.children ↔ ∃ r ∈ routes, path ++ [key] <+: r.pathKeys mount := by
  have hpath : path ++ [key] ≠ [] := by simp
  have hchild : (ofRoutes mount routes).root.at? (path ++ [key]) = tree.children.lookup key := by
    rw [RouteTree.at?_append, ((at_ofRoutes_iff mount).1 h).2, Option.bind_some,
      RouteTree.at?_cons]
    exact Option.bind_fun_some _
  -- The trees below are those that stand one key further.
  have hbelow : (∃ sub, (ofRoutes mount routes).At (path ++ [key]) sub) ↔ _ :=
    exists_at_ofRoutes_iff mount
  simp only [at_ofRoutes_iff, hchild, ne_eq, hpath, not_false_eq_true, true_and] at hbelow
  rw [← hbelow]
  constructor
  · intro hkey
    obtain ⟨⟨_, sub⟩, hentry, rfl⟩ := List.mem_map.1 hkey
    exact ⟨sub, (lookup_eq_some_iff_mem (distinct_of_at mount h).children).2 hentry⟩
  · rintro ⟨sub, hsub⟩
    exact List.mem_map_of_mem (mem_of_lookup_eq_some hsub)

/-- The keys of a forest of routes are distinct, and so are the method keys and the keys of segments
at every tree of it. A block declares a key once for the routes that end at the tree under this key
and once for the routes that pass through the segment with this key next. So its keys are distinct
if and only if no route ends at the tree under the key of such a segment. -/
theorem propertyKeys_ofRoutes (routes : List Route) :
    (keys (ofRoutes mount routes)).Nodup ∧
    ∀ path tree, (ofRoutes mount routes).At path tree →
      (keys tree.methods).Nodup ∧ (keys tree.children).Nodup ∧
      (∀ key, tree.propertyKeys.count key =
        (if ∃ r ∈ routes, r.pathKeys mount = path ∧ r.key = key then 1 else 0) +
          (if ∃ r ∈ routes, path ++ [key] <+: r.pathKeys mount then 1 else 0)) ∧
      (tree.propertyKeys.Nodup ↔ ∀ r ∈ routes, r.pathKeys mount = path →
        ∀ r' ∈ routes, ¬ path ++ [r.key] <+: r'.pathKeys mount) ∧
      ∀ write level written, tree.innerLines write level = .ok written →
        ∃ groups : List (List String), written = groups.flatten ∧
          List.Forall₂ (Property write level) tree.propertyKeys groups := by
  refine ⟨(distinct_ofRoutes mount routes).children, fun path tree h => ?_⟩
  have hmethods := (distinct_of_at mount h).methods
  have hchildren := (distinct_of_at mount h).children
  refine ⟨hmethods, hchildren, fun key => ?_, ?_, fun _ _ _ => RouteTree.exists_properties⟩
  · simp only [RouteTree.propertyKeys, List.count_append, hmethods.count, hchildren.count,
      mem_keys_methods_iff mount h, mem_keys_children_iff mount h]
  -- Neither kind of keys repeats, so a key stands twice only as a method and as a child.
  · rw [RouteTree.propertyKeys, List.nodup_append']
    constructor
    · rintro ⟨-, -, hdisjoint⟩ r hr hpath r' hr' hprefix
      exact hdisjoint ((mem_keys_methods_iff mount h r.key).2 ⟨r, hr, hpath, rfl⟩)
        ((mem_keys_children_iff mount h r.key).2 ⟨r', hr', hprefix⟩)
    · intro hnone
      refine ⟨hmethods, hchildren, fun key hkey hkey' => ?_⟩
      obtain ⟨r, hr, hpath, rfl⟩ := (mem_keys_methods_iff mount h key).1 hkey
      obtain ⟨r', hr', hprefix⟩ := (mem_keys_children_iff mount h r.key).1 hkey'
      exact hnone r hr hpath r' hr' hprefix

/-- Two routes of one tree whose keys differ. -/
theorem propertyKeys_ofRoutes_list :
    ∃ tree, (ofRoutes none [.plain "GET" "/users", .plain "GET" "/users/list"]).At ["users"] tree ∧
      tree.propertyKeys.Nodup := by
  have hexists : ∃ tree,
      (ofRoutes none [.plain "GET" "/users", .plain "GET" "/users/list"]).At ["users"] tree :=
    (exists_at_ofRoutes_iff none).2 ⟨by simp, .plain "GET" "/users", by simp, by decide⟩
  obtain ⟨tree, h⟩ := hexists
  obtain ⟨-, hblocks⟩ := propertyKeys_ofRoutes none
    [.plain "GET" "/users", .plain "GET" "/users/list"]
  obtain ⟨-, -, -, hnodup, -⟩ := hblocks ["users"] tree h
  exact ⟨tree, h, hnodup.2 (by decide +kernel)⟩

/-- A segment that is named like the method of a route that ends before it: the block of the tree
declares the key of both. -/
theorem propertyKeys_verbSegment :
    (∃ tree, (ofRoutes none [.plain "GET" "/users", .plain "GET" "/users/get"]).At ["users"] tree ∧
      ¬ tree.propertyKeys.Nodup) ∧
    (ofRoutes none [.plain "GET" "/users", .plain "GET" "/users/get"]).contractType 1 =
      .ok (lines ["  users: \x7b", "    get: \x7b return: any \x7d", "    get: \x7b",
        "      get: \x7b return: any \x7d", "    \x7d", "  \x7d"]) := by
  have hexists : ∃ tree,
      (ofRoutes none [.plain "GET" "/users", .plain "GET" "/users/get"]).At ["users"] tree :=
    (exists_at_ofRoutes_iff none).2 ⟨by simp, .plain "GET" "/users", by simp, by decide⟩
  obtain ⟨tree, h⟩ := hexists
  refine ⟨⟨tree, h, fun hnodup => ?_⟩, by decide +kernel⟩
  have hmethod : "get" ∈ keys tree.methods :=
    (mem_keys_methods_iff none h "get").2
      ⟨.plain "GET" "/users", by simp, by decide, by decide +kernel⟩
  have hchild : "get" ∈ keys tree.children :=
    (mem_keys_children_iff none h "get").2
      ⟨.plain "GET" "/users/get", by simp, by decide⟩
  exact List.disjoint_of_nodup_append hnodup hmethod hchild

end RouteForest
end TypedRoutes
