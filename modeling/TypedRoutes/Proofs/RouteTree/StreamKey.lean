import TypedRoutes.Proofs.RouteTree.Index
import TypedRoutes.Proofs.Text.LowerCase

/-!
# The key of streaming routes

A route stays in the forest until a later route takes its place under its key. Streaming routes have
a key of their own, but it is not out of reach of the others: a route with the method `SSE`, in any
letter case, is kept under it as well (`Route.methodKey_eq_streamKey_iff`). So it is these routes,
and no others, that displace streaming routes and are displaced by them
(`RouteForest.keeps_iff_no_streamVerb`).
-/

set_option autoImplicit false

namespace TypedRoutes

/-! ## Keys -/

theorem Route.key_of_streaming {r : Route} (h : r.streaming = true) : r.key = streamKey := by
  rw [key, if_pos h]

theorem Route.key_of_not_streaming {r : Route} (h : r.streaming = false) :
    r.key = r.methodKey := by
  rw [key, h]
  rfl

/-- The methods that become the key of streaming routes are its spellings in ASCII letters. -/
theorem Route.methodKey_eq_streamKey_iff {r : Route} :
    r.methodKey = streamKey ↔ r.method.toLower = streamKey :=
  Text.lowerCase_eq_iff (by simp [streamKey, Text.IsUnshared])

/-! ## Routes that stay -/

namespace RouteForest

variable (mount : Option String)

/-- A route stands at the end of a path under a key. -/
def Keeps (forest : RouteForest) (path : List String) (key : String) (r : Route) : Prop :=
  ∃ tree, forest.At path tree ∧ (key, r) ∈ tree.methods

/-- A key keeps a route exactly when that is the last of its path with the key. -/
theorem keeps_ofRoutes_iff {routes : List Route} {path : List String} {key : String} {r : Route}
    (hpath : path ≠ []) :
    (ofRoutes mount routes).Keeps path key r ↔
      (routes.filter fun s => s.pathKeys mount = path ∧ s.key = key).getLast? = some r := by
  constructor
  · rintro ⟨tree, hat, hmem⟩
    exact (mem_methods_iff_of_at mount hat key r).1 hmem
  · intro hlast
    have hr := List.mem_filter.1 (List.mem_of_getLast? hlast)
    simp only [decide_eq_true_eq] at hr
    obtain ⟨hmem, rfl, rfl⟩ := hr
    obtain ⟨tree, hat⟩ := (exists_at_ofRoutes_iff mount).2 ⟨hpath, r, hmem, List.prefix_rfl⟩
    exact ⟨tree, hat, (mem_methods_iff_of_at mount hat r.key r).2 hlast⟩

/-- A route that the later ones of its own kind spare stays if and only if those of the other kind
do so too. -/
theorem keeps_iff_of_spared (before : List Route) {after : List Route} {r : Route}
    (hpath : r.pathKeys mount ≠ [])
    (hspared : ∀ s ∈ after, s.streaming = r.streaming → s.pathKeys mount = r.pathKeys mount →
      s.key ≠ r.key) :
    (ofRoutes mount (before ++ r :: after)).Keeps (r.pathKeys mount) r.key r ↔
      ∀ s ∈ after, s.streaming ≠ r.streaming → s.pathKeys mount = r.pathKeys mount →
        s.key ≠ r.key := by
  rw [keeps_ofRoutes_iff mount hpath, List.filter_append, List.filter_cons_of_pos (by simp),
    List.getLast?_append, List.getLast?_cons, Option.some_or, Option.some_inj]
  constructor
  · intro hlast s hs _ hplace hkey
    have hrival : s ∈ after.filter fun s =>
        s.pathKeys mount = r.pathKeys mount ∧ s.key = r.key := by
      simp [hs, hplace, hkey]
    -- The last of the later routes would be the route itself, which is of its own kind.
    obtain ⟨t, ht⟩ := Option.ne_none_iff_exists'.1 (mt List.getLast?_eq_none_iff.1
      (List.ne_nil_of_mem hrival))
    rw [ht, Option.getD_some] at hlast
    subst hlast
    have hlater := List.mem_filter.1 (List.mem_of_getLast? ht)
    exact hspared t hlater.1 rfl rfl rfl
  · intro hother
    have hnone : (after.filter fun s => s.pathKeys mount = r.pathKeys mount ∧ s.key = r.key) =
        [] := by
      rw [List.filter_eq_nil_iff]
      intro s hs hrival
      simp only [decide_eq_true_eq] at hrival
      by_cases hkind : s.streaming = r.streaming
      · exact hspared s hs hkind hrival.1 hrival.2
      · exact hother s hs hkind hrival.1 hrival.2
    rw [hnone]
    rfl

/-- A streaming route that no later streaming route follows at its place stays under the key of
streaming routes if and only if no later route there has a spelling of that key for its method. A
route that does not stream, and that no later one follows at its place with the same method in lower
case, stays under that method if and only if its own method is no such spelling or no later route
there streams. -/
theorem keeps_iff_no_streamVerb (before after : List Route) {r : Route}
    (hpath : r.pathKeys mount ≠ []) :
    (r.streaming = true →
      (∀ s ∈ after, s.streaming = true → s.pathKeys mount ≠ r.pathKeys mount) →
        ((ofRoutes mount (before ++ r :: after)).Keeps (r.pathKeys mount) streamKey r ↔
          ∀ s ∈ after, s.streaming = false → s.pathKeys mount = r.pathKeys mount →
            s.method.toLower ≠ streamKey)) ∧
    (r.streaming = false →
      (∀ s ∈ after, s.streaming = false → s.pathKeys mount = r.pathKeys mount →
        s.methodKey ≠ r.methodKey) →
        ((ofRoutes mount (before ++ r :: after)).Keeps (r.pathKeys mount) r.methodKey r ↔
          (r.method.toLower = streamKey →
            ∀ s ∈ after, s.streaming = true → s.pathKeys mount ≠ r.pathKeys mount))) := by
  constructor
  · intro hstream hlast
    -- Later routes of the same kind are excluded, so only one of the other kind can take the key.
    have hspared : ∀ s ∈ after, s.streaming = r.streaming → s.pathKeys mount = r.pathKeys mount →
        s.key ≠ r.key := by
      intro s hs hkind hplace
      exact absurd hplace (hlast s hs (hkind.trans hstream))
    have hkeeps := keeps_iff_of_spared mount before hpath hspared
    rw [Route.key_of_streaming hstream, hstream] at hkeeps
    rw [hkeeps]
    refine forall₂_congr fun s _ => ?_
    rw [ne_eq, Bool.not_eq_true]
    refine imp_congr_right fun hplain => imp_congr_right fun _ => not_congr ?_
    rw [Route.key_of_not_streaming hplain]
    exact Route.methodKey_eq_streamKey_iff
  · intro hplain hlast
    have hspared : ∀ s ∈ after, s.streaming = r.streaming → s.pathKeys mount = r.pathKeys mount →
        s.key ≠ r.key := by
      intro s hs hkind hplace
      rw [Route.key_of_not_streaming hplain, Route.key_of_not_streaming (hkind.trans hplain)]
      exact hlast s hs (hkind.trans hplain) hplace
    have hkeeps := keeps_iff_of_spared mount before hpath hspared
    rw [Route.key_of_not_streaming hplain, hplain] at hkeeps
    rw [hkeeps, ← Route.methodKey_eq_streamKey_iff]
    constructor
    · intro hother hverb s hs hstream hplace
      refine hother s hs (ne_of_eq_of_ne hstream (by decide)) hplace ?_
      rw [Route.key_of_streaming hstream, hverb]
    · intro hnone s hs hkind hplace hkey
      have hstream : s.streaming = true := Bool.of_not_eq_false hkind
      rw [Route.key_of_streaming hstream] at hkey
      exact hnone hkey.symm s hs hstream hplace

/-- A route that streams, with nothing but its method and its path. -/
def streamRoute (method path : String) : Route :=
  { Route.plain method path with streaming := true }

/-- Three routes in one place, of which the second one has a method that is written like the key of
streaming routes, but with a long s. -/
def longSRoutes : List Route :=
  [streamRoute "GET" "/api/events", .plain "ſSE" "/api//events/", .plain "GET" "/api/events"]

/-- The route that streams and the one with the long s both stay. -/
theorem keeps_iff_no_streamVerb_longS :
    (ofRoutes (some "api/") longSRoutes).Keeps ["events"] "sse" (streamRoute "GET" "/api/events") ∧
      (ofRoutes (some "api/") longSRoutes).Keeps ["events"] "ſse"
        (.plain "ſSE" "/api//events/") := by
  have hstream : (streamRoute "GET" "/api/events").pathKeys (some "api/") = ["events"] := by decide
  have hlong : (Route.plain "ſSE" "/api//events/").pathKeys (some "api/") = ["events"] := by decide
  have hkey : (Route.plain "ſSE" "/api//events/").methodKey = "ſse" := by decide +kernel
  have hother : (Route.plain "GET" "/api/events").methodKey ≠ "ſse" := by decide +kernel
  constructor
  · have hkeeps := (keeps_iff_no_streamVerb (some "api/") []
      [.plain "ſSE" "/api//events/", .plain "GET" "/api/events"]
      (r := streamRoute "GET" "/api/events") (by simp [hstream])).1 rfl (by simp [Route.plain])
    rw [hstream] at hkeeps
    refine hkeeps.2 ?_
    simp only [List.forall_mem_cons, List.not_mem_nil, false_implies, implies_true, and_true]
    exact ⟨fun _ _ => by decide +kernel, fun _ _ => by decide +kernel⟩
  · have hkeeps := (keeps_iff_no_streamVerb (some "api/") [streamRoute "GET" "/api/events"]
      [.plain "GET" "/api/events"] (r := .plain "ſSE" "/api//events/") (by simp [hlong])).2 rfl
      (by simpa [hkey] using fun _ _ => hother)
    rw [hlong, hkey] at hkeeps
    exact hkeeps.2 fun hverb => absurd hverb (by decide +kernel)

/-- A route with the method `SSE` takes the place of a route that streams, and gives way to one. -/
theorem streamRoute_displaced :
    ¬ (ofRoutes none [streamRoute "GET" "/events", .plain "SSE" "/events"]).Keeps
        ["events"] streamKey (streamRoute "GET" "/events") ∧
      ¬ (ofRoutes none [.plain "SSE" "/events", streamRoute "GET" "/events"]).Keeps
        ["events"] (Route.plain "SSE" "/events").methodKey (.plain "SSE" "/events") := by
  have hverb : (Route.plain "SSE" "/events").methodKey = streamKey := by decide +kernel
  constructor
  · intro hkeeps
    have hspared := (keeps_iff_of_spared none [] (r := streamRoute "GET" "/events") (by decide)
      (by simp [streamRoute, Route.plain])).1 hkeeps
    exact hspared _ (List.mem_singleton_self _) (by decide) (by decide) hverb
  · intro hkeeps
    have hspared := (keeps_iff_of_spared none [] (r := .plain "SSE" "/events") (by decide)
      (by simp [streamRoute, Route.plain])).1 hkeeps
    exact hspared _ (List.mem_singleton_self _) (by decide) (by decide) hverb.symm

end RouteForest
end TypedRoutes
