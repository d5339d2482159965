import Mathlib.Data.List.Forall2
import TypedRoutes.Proofs.RouteTree.Index

/-!
# Forests that are alike

Two routes are alike if they have the same key and agree in what is written for them
(`Route.Alike`), and two forests if alike routes stand under the same keys in the same order
(`ForestAlike`).

What is compared are two runs: two lists of routes, each below a mount point of its own. Routes that
have one canonical path (`Route.SameEntry`) are inserted at one address, and an insertion of alike
routes keeps forests alike (`RouteForest.alike_insert`), so the two lists give forests that are
alike (`RouteForest.alike_ofRoutes`).
-/

set_option autoImplicit false

namespace TypedRoutes

/-! ## Relations -/

/-- Routes with the same key that are written in the same way. Without a description a route is
written as with an empty one. -/
structure Route.Alike (r s : Route) : Prop where
  key : r.key = s.key
  streaming : r.streaming = s.streaming
  description : r.description.getD "" = s.description.getD ""
  slots : r.slots = s.slots

/-- Routes below one mount point each that have the same canonical path, the same way of answering,
the same method key unless they stream, the same description and the same schemas. -/
structure Route.SameEntry (mount mount' : Option String) (r s : Route) : Prop where
  path : r.pathKeys mount = s.pathKeys mount'
  streaming : r.streaming = s.streaming
  method : r.streaming = false → r.methodKey = s.methodKey
  description : r.description.getD "" = s.description.getD ""
  slots : r.slots = s.slots

mutual

/-- Alike routes end at the roots of both trees, and alike trees follow. -/
inductive RouteTree.Alike : RouteTree → RouteTree → Prop
  | node {dynamic : Bool} {methods methods' : List (String × Route)}
      {children children' : List (String × RouteTree)} :
      List.Forall₂ (fun e e' => e.1 = e'.1 ∧ e.2.Alike e'.2) methods methods' →
        ForestAlike children children' →
          RouteTree.Alike (.node dynamic methods children) (.node dynamic methods' children')

/-- Alike trees stand under the same keys in the same order. -/
inductive ForestAlike : List (String × RouteTree) → List (String × RouteTree) → Prop
  | nil : ForestAlike [] []
  | cons {key : String} {tree tree' : RouteTree} {rest rest' : List (String × RouteTree)} :
      RouteTree.Alike tree tree' → ForestAlike rest rest' →
        ForestAlike ((key, tree) :: rest) ((key, tree') :: rest')

end

/-- Forests are alike when they have the same keys in the same order with trees that are alike. -/
theorem forestAlike_iff {forest forest' : List (String × RouteTree)} :
    ForestAlike forest forest' ↔
      List.Forall₂ (fun e e' => e.1 = e'.1 ∧ e.2.Alike e'.2) forest forest' := by
  constructor
  · intro h
    induction forest generalizing forest' with
    | nil =>
      cases h
      exact .nil
    | cons entry rest ih =>
      obtain - | ⟨htree, hrest⟩ := h
      exact .cons ⟨rfl, htree⟩ (ih hrest)
  · intro h
    induction h with
    | nil => exact .nil
    | @cons entry entry' rest rest' hentry _ ih =>
      obtain ⟨key, tree⟩ := entry
      obtain ⟨key', tree'⟩ := entry'
      obtain ⟨rfl, htree⟩ := hentry
      exact .cons htree ih

/-! ## Addresses -/

/-- A canonical address is determined by its keys. -/
theorem RouteTree.IsCanonical.eq_of_keys_eq {address address' : List (String × Bool)}
    (h : IsCanonical address) (h' : IsCanonical address')
    (hkeys : Entries.keys address = Entries.keys address') : address = address' := by
  have hflags {address : List (String × Bool)} (h : IsCanonical address) :
      address =
        (Entries.keys address).map fun key => (key, decide (key = RoutePath.dynamicKey)) := by
    calc address
        = address.map id := (List.map_id address).symm
      _ = address.map fun segment => (segment.1, decide (segment.1 = RoutePath.dynamicKey)) :=
          List.map_congr_left fun segment hsegment => Prod.ext rfl (h segment hsegment)
      _ = _ := by rw [Entries.keys, List.map_map]; rfl
  rw [hflags h, hflags h', hkeys]

/-- Entries that are the same have one address under their mounts. -/
theorem Route.SameEntry.address_eq {mount mount' : Option String} {r s : Route}
    (h : r.SameEntry mount mount' s) :
    RoutePath.address (RoutePath.normalizeMount mount) r.path =
      RoutePath.address (RoutePath.normalizeMount mount') s.path :=
  (RoutePath.isCanonical_address _ _).eq_of_keys_eq (RoutePath.isCanonical_address _ _) h.path

/-- Entries that are the same are alike as routes. -/
theorem Route.SameEntry.alike {mount mount' : Option String} {r s : Route}
    (h : r.SameEntry mount mount' s) : r.Alike s where
  key := by
    unfold Route.key
    rw [← h.streaming]
    split
    · rfl
    · next hstreaming => exact h.method (by simpa using hstreaming)
  streaming := h.streaming
  description := h.description
  slots := h.slots

/-! ## Insertion -/

variable {r s : Route}

theorem RouteTree.alike_bare (dynamic : Bool) : (bare dynamic).Alike (bare dynamic) :=
  .node .nil .nil

/-- Alike routes that are set at one address leave alike trees alike. -/
theorem RouteTree.Alike.insert (hroute : r.Alike s) (address : List (String × Bool))
    {tree tree' : RouteTree} (h : tree.Alike tree') :
    (tree.insert r address).Alike (tree'.insert s address) := by
  induction address generalizing tree tree' with
  | nil =>
    obtain ⟨hmethods, hchildren⟩ := h
    rw [RouteTree.insert, RouteTree.insert, ← hroute.key]
    exact .node (Entries.forall₂_alter hmethods fun _ _ _ => hroute) hchildren
  | cons segment rest ih =>
    obtain ⟨hmethods, hchildren⟩ := h
    refine .node hmethods (forestAlike_iff.2 ?_)
    refine Entries.forall₂_alter (forestAlike_iff.1 hchildren) ?_
    intro below below' hbelow
    cases hbelow with
    | none => exact ih (alike_bare segment.2)
    | some htree => exact ih htree

/-- Routes that are alike may be inserted in forests that are alike. -/
theorem RouteForest.alike_insert (hroute : r.Alike s) (address : List (String × Bool))
    {forest forest' : RouteForest} (h : ForestAlike forest forest') :
    ForestAlike (insert r address forest) (insert s address forest') := by
  cases address with
  | nil => exact h
  | cons segment rest =>
    refine forestAlike_iff.2 (Entries.forall₂_alter (forestAlike_iff.1 h) ?_)
    intro below below' hbelow
    cases hbelow with
    | none => exact (RouteTree.alike_bare segment.2).insert hroute rest
    | some htree => exact htree.insert hroute rest

/-- Routes that are the same entries one by one give forests that are alike. -/
theorem RouteForest.alike_ofRoutes {mount mount' : Option String} {routes routes' : List Route}
    (h : List.Forall₂ (Route.SameEntry mount mount') routes routes') :
    ForestAlike (ofRoutes mount routes) (ofRoutes mount' routes') := by
  refine List.rel_foldl (P := ForestAlike) (R := Route.SameEntry mount mount') ?_ .nil h
  intro forest forest' hforest r s hentry
  dsimp only
  rw [hentry.address_eq]
  exact alike_insert hentry.alike _ hforest

end TypedRoutes
