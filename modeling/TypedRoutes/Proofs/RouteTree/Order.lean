import TypedRoutes.Proofs.RouteTree.Index

/-!
# The order of the keys of a forest

Keys stand where a route first set them. `InFirstOrder` says that a list of keys is ordered by the
first items that have them; the keys of segments and of methods at every place of a forest of routes
are ordered in this way (`RouteForest.keys_inFirstOrder`), whatever later routes replace.

One more item leaves such a list in order if it has no key or one that is there, and appends a new
key otherwise (`InFirstOrder.concat`, `InFirstOrder.concat_key`). One more route does exactly this
to the keys at every path (`RouteTree.childKeys_insert`, `RouteTree.methodKeys_insert`).
-/

set_option autoImplicit false

namespace TypedRoutes

open Entries

/-! ## Keys in the order of their first items -/

section FirstOrder

variable {α κ : Type} {has : α → κ → Prop} [∀ a key, Decidable (has a key)]

/-- The keys are those that the items of a list have, in the order of the first item that has each
of them. -/
structure InFirstOrder (has : α → κ → Prop) [∀ a key, Decidable (has a key)] (items : List α)
    (keys : List κ) : Prop where
  mem_iff : ∀ key, key ∈ keys ↔ ∃ a ∈ items, has a key
  increasing : keys.Pairwise fun key key' =>
    items.findIdx (fun a => has a key) < items.findIdx (fun a => has a key')

/-- A list of keys with one more at its end, unless it is there. -/
def withKey [BEq κ] [LawfulBEq κ] (key : κ) (keys : List κ) : List κ :=
  if key ∈ keys then keys else keys ++ [key]

/-- A list with a key more has the keys that it had and that one. -/
theorem mem_withKey [BEq κ] [LawfulBEq κ] {key key' : κ} {keys : List κ} :
    key' ∈ withKey key keys ↔ key' ∈ keys ∨ key' = key := by
  unfold withKey
  split
  · next hthere =>
    constructor
    · intro h
      exact .inl h
    · rintro (h | rfl)
      · exact h
      · exact hthere
  · rw [List.mem_append, List.mem_singleton]

/-- An item at the end does not change where a key is found first, once it is there. -/
theorem findIdx_concat_of_mem {key : κ} {items : List α} (h : ∃ a ∈ items, has a key) (a : α) :
    (items ++ [a]).findIdx (fun a => has a key) = items.findIdx (fun a => has a key) := by
  rw [List.findIdx_append, if_pos]
  rw [List.findIdx_lt_length]
  simpa using h

/-- A key that some item has is found before the end. -/
theorem findIdx_lt_of_mem {key : κ} {items : List α} (h : ∃ a ∈ items, has a key) :
    items.findIdx (fun a => has a key) < items.length := by
  rw [List.findIdx_lt_length]
  simpa using h

namespace InFirstOrder

variable {items : List α} {keys : List κ}

theorem nil : InFirstOrder has [] [] where
  mem_iff := by simp
  increasing := .nil

/-- No key stands twice. -/
theorem nodup (h : InFirstOrder has items keys) : keys.Nodup := by
  refine h.increasing.imp ?_
  intro key key' hlt
  rintro rfl
  exact Nat.lt_irrefl _ hlt

/-- What was in order stays so when the list of items grows. -/
theorem increasing_concat (h : InFirstOrder has items keys) (a : α) :
    keys.Pairwise fun key key' =>
      (items ++ [a]).findIdx (fun a => has a key) <
        (items ++ [a]).findIdx (fun a => has a key') := by
  refine h.increasing.imp_of_mem ?_
  intro key key' hkey hkey' hlt
  rwa [findIdx_concat_of_mem ((h.mem_iff key).1 hkey),
    findIdx_concat_of_mem ((h.mem_iff key').1 hkey')]

/-- An item without a key changes nothing. -/
theorem concat (h : InFirstOrder has items keys) {a : α} (hnone : ∀ key, ¬ has a key) :
    InFirstOrder has (items ++ [a]) keys where
  mem_iff key := by
    rw [h.mem_iff key]
    simp [hnone key]
  increasing := h.increasing_concat a

/-- An item with one key appends it if it is new. -/
theorem concat_key [BEq κ] [LawfulBEq κ] (h : InFirstOrder has items keys) {a : α} {key : κ}
    (hkey : ∀ key', has a key' ↔ key' = key) :
    InFirstOrder has (items ++ [a]) (withKey key keys) := by
  constructor
  · intro key'
    rw [mem_withKey, h.mem_iff]
    simp [hkey, or_and_right, exists_or]
  · unfold withKey
    split
    · exact h.increasing_concat a
    · next hnew =>
      rw [List.pairwise_append]
      refine ⟨h.increasing_concat a, List.pairwise_singleton _ _, ?_⟩
      intro key' hkey' new hnew'
      obtain rfl := List.mem_singleton.1 hnew'
      -- The new key has the last item as its first one, every other key an earlier one.
      have hbefore := (h.mem_iff key').1 hkey'
      have habsent : ¬ ∃ a ∈ items, has a new := mt (h.mem_iff new).2 hnew
      rw [findIdx_concat_of_mem hbefore, List.findIdx_append, if_neg]
      · have hlt := findIdx_lt_of_mem hbefore
        omega
      · rw [List.findIdx_lt_length]
        simpa using habsent

end InFirstOrder

end FirstOrder

/-! ## Keys at a path -/

namespace RouteTree

/-- The keys of the segments that follow a path. -/
def childKeys (path : List String) (tree : RouteTree) : List String :=
  (tree.at? path).elim [] fun below => keys below.children

/-- The method keys at a path. -/
def methodKeys (path : List String) (tree : RouteTree) : List String :=
  (tree.at? path).elim [] fun below => keys below.methods

@[simp] theorem childKeys_nil (tree : RouteTree) : tree.childKeys [] = keys tree.children := rfl

@[simp] theorem methodKeys_nil (tree : RouteTree) : tree.methodKeys [] = keys tree.methods := rfl

/-- The child keys at a path are those below its first key. -/
theorem childKeys_cons (key : String) (rest : List String) (tree : RouteTree) :
    tree.childKeys (key :: rest) = (tree.children.lookup key).elim [] (childKeys rest) := by
  rw [childKeys, at?_cons]
  cases tree.children.lookup key <;> rfl

theorem methodKeys_cons (key : String) (rest : List String) (tree : RouteTree) :
    tree.methodKeys (key :: rest) = (tree.children.lookup key).elim [] (methodKeys rest) := by
  rw [methodKeys, at?_cons]
  cases tree.children.lookup key <;> rfl

@[simp] theorem childKeys_bare (path : List String) (dynamic : Bool) :
    (bare dynamic).childKeys path = [] := by
  cases path <;> rfl

@[simp] theorem methodKeys_bare (path : List String) (dynamic : Bool) :
    (bare dynamic).methodKeys path = [] := by
  cases path <;> rfl

/-- The key that follows a path on a longer one. -/
def next? : List String → List String → Option String
  | [], whole => whole.head?
  | _ :: _, [] => none
  | key :: path, key' :: whole => if key = key' then next? path whole else none

/-- The key after a path is the one that continues it towards the whole. -/
theorem next?_eq_some_iff {path whole : List String} {key : String} :
    next? path whole = some key ↔ path ++ [key] <+: whole := by
  induction path generalizing whole with
  | nil => cases whole <;> simp [next?, eq_comm]
  | cons first path ih =>
    cases whole with
    | nil => simp [next?]
    | cons first' whole =>
      rw [List.cons_append, List.cons_prefix_cons, ← ih, next?]
      split
      · next h => simp [h]
      · next h => simp [h]

/-- An insertion sets the keys on the way to its address, each at the path before it, and no other
key of a segment. -/
theorem childKeys_insert (route : Route) (address : List (String × Bool)) (path : List String)
    (tree : RouteTree) :
    (tree.insert route address).childKeys path =
      (next? path (keys address)).elim (tree.childKeys path) fun key =>
        withKey key (tree.childKeys path) := by
  induction address generalizing path tree with
  | nil =>
    obtain ⟨isDynamic, methods, children⟩ := tree
    cases path with
    | nil => rfl
    | cons key rest => simp [insert, childKeys_cons, RouteTree.children, next?]
  | cons segment address ih =>
    obtain ⟨isDynamic, methods, children⟩ := tree
    obtain ⟨key, dynamic⟩ := segment
    cases path with
    | nil => exact keys_alter key _ children
    | cons key' rest =>
      simp only [insert, childKeys_cons, RouteTree.children, keys_cons, next?]
      by_cases h : key' = key
      · subst h
        rw [lookup_alter_self, Option.elim_some, ih, if_pos rfl]
        -- Below a tree that is new there is no key yet, as below one that is not there.
        cases children.lookup key' with
        | some below => simp
        | none => simp
      · rw [lookup_alter_of_ne h, if_neg h]
        rfl

/-- An insertion sets the key of its route at its address and no other method key. -/
theorem methodKeys_insert (route : Route) (address : List (String × Bool)) (path : List String)
    (tree : RouteTree) :
    (tree.insert route address).methodKeys path =
      if path = keys address then withKey route.key (tree.methodKeys path)
      else tree.methodKeys path := by
  -- The induction is on the address. Only the path that is the address itself gets a key more; on
  -- every other path the insertion goes another way at some segment, or further.
  induction address generalizing path tree with
  | nil =>
    obtain ⟨isDynamic, methods, children⟩ := tree
    cases path with
    | nil => exact keys_alter route.key _ methods
    | cons key rest => simp [insert, methodKeys_cons, RouteTree.children]
  | cons segment address ih =>
    obtain ⟨isDynamic, methods, children⟩ := tree
    obtain ⟨key, dynamic⟩ := segment
    cases path with
    | nil => simp [insert, RouteTree.methods]
    | cons key' rest =>
      simp only [insert, methodKeys_cons, RouteTree.children, keys_cons, List.cons.injEq]
      by_cases h : key' = key
      · subst h
        rw [lookup_alter_self, Option.elim_some, ih]
        cases children.lookup key' with
        | some below => simp
        | none => simp
      · rw [lookup_alter_of_ne h]
        simp [h]

end RouteTree

/-! ## The keys of a forest of routes -/

namespace RouteForest

variable (mount : Option String)

/-- A route passes from a path through the segment with a key. -/
abbrev PassesOn (path : List String) (r : Route) (key : String) : Prop :=
  path ++ [key] <+: r.pathKeys mount

/-- A route ends at a path under a method key. -/
abbrev EndsAt (path : List String) (r : Route) (key : String) : Prop :=
  r.pathKeys mount = path ∧ r.key = key

/-- The child keys at every path stand in the order of the first routes that pass on to them, by
induction on the routes. -/
theorem childKeys_ofRoutes (routes : List Route) (path : List String) :
    InFirstOrder (PassesOn mount path) routes ((ofRoutes mount routes).root.childKeys path) := by
  induction routes using List.reverseRecOn with
  | nil =>
    have hnone : (ofRoutes mount []).root.childKeys path = [] := by cases path <;> rfl
    rw [hnone]
    exact .nil
  | append_singleton routes r ih =>
    by_cases h : r.pathKeys mount = []
    -- A route without a path is skipped, and it passes through no segment.
    · rw [ofRoutes_concat_of_pathKeys_eq_nil mount h]
      exact ih.concat fun key => by simp [PassesOn, h]
    · rw [root_ofRoutes_concat mount h, RouteTree.childKeys_insert, ← Route.pathKeys]
      cases hnext : RouteTree.next? path (r.pathKeys mount) with
      | none =>
        refine ih.concat fun key hkey => ?_
        rw [RouteTree.next?_eq_some_iff.2 hkey] at hnext
        cases hnext
      | some key =>
        refine ih.concat_key fun key' => ?_
        rw [PassesOn, ← RouteTree.next?_eq_some_iff, hnext, Option.some_inj, eq_comm]

/-- The method keys at every path stand in the order of the first routes that end there with them,
by induction on the routes. -/
theorem methodKeys_ofRoutes (routes : List Route) {path : List String} (hpath : path ≠ []) :
    InFirstOrder (EndsAt mount path) routes ((ofRoutes mount routes).root.methodKeys path) := by
  induction routes using List.reverseRecOn with
  | nil =>
    have hnone : (ofRoutes mount []).root.methodKeys path = [] := by cases path <;> rfl
    rw [hnone]
    exact .nil
  | append_singleton routes r ih =>
    by_cases h : r.pathKeys mount = []
    · have hne : r.pathKeys mount ≠ path := fun e => hpath (e.symm.trans h)
      rw [ofRoutes_concat_of_pathKeys_eq_nil mount h]
      exact ih.concat fun key hends => hne hends.1
    · rw [root_ofRoutes_concat mount h, RouteTree.methodKeys_insert, ← Route.pathKeys]
      split
      · next here =>
        refine ih.concat_key fun key => ?_
        simp [EndsAt, here, eq_comm]
      · next elsewhere =>
        exact ih.concat fun key hends => elsewhere hends.1.symm

/-- Every list of keys in a forest of routes is in the order in which the routes first come to
these keys: the keys of the first segments, and at every tree the keys of the segments that follow,
by the first route that passes through the segment, and the method keys, by the first route that
ends there under the key. No key is listed twice. -/
theorem keys_inFirstOrder (routes : List Route) :
    (InFirstOrder (PassesOn mount []) routes (keys (ofRoutes mount routes)) ∧
      (keys (ofRoutes mount routes)).Nodup) ∧
    ∀ path tree, (ofRoutes mount routes).At path tree →
      (InFirstOrder (PassesOn mount path) routes (keys tree.children) ∧
        (keys tree.children).Nodup) ∧
      InFirstOrder (EndsAt mount path) routes (keys tree.methods) ∧ (keys tree.methods).Nodup := by
  have hroot := childKeys_ofRoutes mount routes []
  refine ⟨⟨hroot, hroot.nodup⟩, ?_⟩
  intro path tree h
  obtain ⟨hpath, hat⟩ := (at_ofRoutes_iff mount).1 h
  have hchildren := childKeys_ofRoutes mount routes path
  have hmethods := methodKeys_ofRoutes mount routes hpath
  rw [RouteTree.childKeys, hat, Option.elim_some] at hchildren
  rw [RouteTree.methodKeys, hat, Option.elim_some] at hmethods
  exact ⟨⟨hchildren, hchildren.nodup⟩, hmethods, hmethods.nodup⟩

/-- Routes of which the first only passes through a segment, and the last replaces another one. -/
def revisitingRoutes : List Route :=
  [.plain "GET" "/users/:id", .plain "POST" "/orders", .plain "DELETE" "/users",
    .plain "GET" "/users", .plain "DELETE" "//users/"]

/-- The segment that was passed through stays first, and so does the key that was set first. -/
theorem keys_inFirstOrder_revisitingRoutes :
    keys (ofRoutes none revisitingRoutes) = ["users", "orders"] ∧
    ∃ tree, (ofRoutes none revisitingRoutes).At ["users"] tree ∧
      InFirstOrder (EndsAt none ["users"]) revisitingRoutes (keys tree.methods) ∧
      keys tree.methods = ["delete", "get"] := by
  obtain ⟨⟨hroot, -⟩, htrees⟩ := keys_inFirstOrder none revisitingRoutes
  have hat : ∃ tree, (ofRoutes none revisitingRoutes).At ["users"] tree :=
    (exists_at_ofRoutes_iff none).2 ⟨by simp, .plain "GET" "/users", by simp [revisitingRoutes],
      by decide⟩
  obtain ⟨tree, h⟩ := hat
  obtain ⟨-, hmethods, -⟩ := htrees ["users"] tree h
  refine ⟨by decide, tree, h, hmethods, ?_⟩
  have hlookup := ((at_ofRoutes_iff none).1 h).2
  have hkeys : (ofRoutes none revisitingRoutes).root.methodKeys ["users"] = ["delete", "get"] := by
    decide +kernel
  rwa [RouteTree.methodKeys, hlookup] at hkeys

end RouteForest
end TypedRoutes
