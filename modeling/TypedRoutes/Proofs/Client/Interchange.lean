import TypedRoutes.Client.Artifact
import TypedRoutes.Proofs.RouteTree.Spelling

/-!
# What the client does not depend on

Forests that are alike are written as the same lines, whichever way their routes are written
(`ForestAlike.lines_eq`): alike routes have the same comment, descriptor and signature. So a client
depends on a route only through its canonical path and its shape, and not on how the route is spelt
(`Artifact.ofContract_eq_of_sameEntries`).
-/

set_option autoImplicit false

namespace TypedRoutes

/-! ## Alike routes -/

namespace Route

variable {r s : Route}

/-- The comment of a route depends on its description alone. -/
theorem commentLines_eq (r : Route) (pad : String) :
    r.commentLines pad =
      let text := r.description.getD ""
      if text.isEmpty then []
      else [pad ++ "/** " ++ String.ofList (commentText text.toList) ++ " */"] := by
  unfold commentLines
  cases r.description <;> rfl

theorem Alike.commentLines_eq (h : r.Alike s) (pad : String) :
    r.commentLines pad = s.commentLines pad := by
  rw [Route.commentLines_eq, h.description, ← Route.commentLines_eq]

theorem Alike.descriptor_eq (h : r.Alike s) (level : Int) :
    r.descriptor level = s.descriptor level := by
  simp only [descriptor, descriptorFields, resultText, h.slots]

theorem Alike.signature_eq (h : r.Alike s) : r.signature = s.signature := by
  simp only [signature, resultText, h.slots, h.streaming]

end Route

/-! ## Alike forests -/

/-- A way of writing routes that writes alike routes in the same way. -/
def RouteWriter.RespectsAlike (write : RouteWriter) : Prop :=
  ∀ (r s : Route) (level : Int), r.Alike s → write r level = write s level

section

variable {write : RouteWriter}

/-- Methods that are alike entry by entry are printed alike. -/
theorem methodLines_eq (hwrite : write.RespectsAlike) {methods methods' : List (String × Route)}
    (level : Int) (h : List.Forall₂ (fun e e' => e.1 = e'.1 ∧ e.2.Alike e'.2) methods methods') :
    methodLines write level methods = methodLines write level methods' := by
  induction h with
  | nil => rfl
  | @cons entry entry' rest rest' hentry _ ih =>
    obtain ⟨key, r⟩ := entry
    obtain ⟨key', s⟩ := entry'
    obtain ⟨rfl, hroute⟩ := hentry
    simp only [methodLines, hwrite r s _ hroute, hroute.commentLines_eq, ih]

mutual

/-- Trees that are alike are printed alike, by induction on the first tree. -/
theorem RouteTree.Alike.innerLines_eq (hwrite : write.RespectsAlike) (level : Int) :
    ∀ {tree tree' : RouteTree}, tree.Alike tree' →
      tree.innerLines write level = tree'.innerLines write level
  | _, _, .node hmethods hchildren => by
    rw [RouteTree.innerLines, RouteTree.innerLines, methodLines_eq hwrite level hmethods,
      hchildren.lines_eq hwrite (level + 1)]

/-- Forests that are alike are printed alike. -/
theorem ForestAlike.lines_eq (hwrite : write.RespectsAlike) (level : Int) :
    ∀ {forest forest' : List (String × RouteTree)}, ForestAlike forest forest' →
      forestLines write level forest = forestLines write level forest'
  | _, _, .nil => rfl
  | _, _, .cons htree hrest => by
    rw [forestLines, forestLines, htree.innerLines_eq hwrite level, hrest.lines_eq hwrite level]

end

end

theorem ForestAlike.contractType_eq {forest forest' : RouteForest} (h : ForestAlike forest forest')
    (level : Int) : forest.contractType level = forest'.contractType level := by
  have hlines := h.lines_eq (fun _ _ level hroute => hroute.descriptor_eq level) level
  rw [RouteForest.contractType, hlines, ← RouteForest.contractType]

theorem ForestAlike.clientType_eq {forest forest' : RouteForest} (h : ForestAlike forest forest')
    (level : Int) : forest.clientType level = forest'.clientType level := by
  have hlines := h.lines_eq (fun _ _ _ hroute => hroute.signature_eq) level
  rw [RouteForest.clientType, hlines, ← RouteForest.clientType]

/-! ## Clients -/

/-- Whether some route streams does not depend on the mount. -/
theorem Route.any_streaming_eq {mount mount' : Option String} {routes routes' : List Route}
    (h : List.Forall₂ (Route.SameEntry mount mount') routes routes') :
    routes.any Route.streaming = routes'.any Route.streaming := by
  induction h with
  | nil => rfl
  | cons hentry _ ih => rw [List.any_cons, List.any_cons, hentry.streaming, ih]

namespace Artifact

/-- A module is determined by version, time, streaming and the two bodies. -/
theorem moduleLines_eq {c d : Contract} (hversion : c.version = d.version)
    (hgeneratedAt : c.generatedAt = d.generatedAt) (hstreaming : c.isStreaming = d.isStreaming)
    (contractBody clientBody : String) :
    moduleLines c contractBody clientBody = moduleLines d contractBody clientBody := by
  simp only [moduleLines, header, hversion, hgeneratedAt, hstreaming]

/-- Two contracts, each below a mount point, have the same client, or both have none, if they have
the same texts in the header and the same entries one by one. In particular the client of a contract
stays when its routes are spelt in another way. -/
theorem ofContract_eq_of_sameEntries :
    (∀ (c d : Contract) (mount mount' : Option String), c.version = d.version →
      c.generatedAt = d.generatedAt →
        List.Forall₂ (Route.SameEntry mount mount') c.routes d.routes →
          ofContract c mount = ofContract d mount') ∧
    ∀ (c : Contract) (mount : Option String) (routes : List Route),
      List.Forall₂ (Relation.EqvGen (Route.Respelling mount)) c.routes routes →
        ofContract c mount = ofContract { c with routes } mount := by
  have hsame : ∀ (c d : Contract) (mount mount' : Option String), c.version = d.version →
      c.generatedAt = d.generatedAt →
        List.Forall₂ (Route.SameEntry mount mount') c.routes d.routes →
          ofContract c mount = ofContract d mount' := by
    intro c d mount mount' hversion hgeneratedAt hroutes
    have hforest := RouteForest.alike_ofRoutes hroutes
    have hstreaming : c.isStreaming = d.isStreaming := Route.any_streaming_eq hroutes
    simp only [ofContract, hforest.contractType_eq, hforest.clientType_eq,
      moduleLines_eq hversion hgeneratedAt hstreaming]
  refine ⟨hsame, fun c mount routes hroutes => hsame _ _ _ _ rfl rfl ?_⟩
  exact hroutes.imp fun r s hspelling => Route.sameEntry_of_eqvGen hspelling

/-- A contract with a route and a stream, below a mount point. -/
def mountedContract : Contract where
  version := "1"
  generatedAt := ""
  routes := [
    { Route.plain "GET" "/api/users/:id" with name := some "user", description := some "" },
    { Route.plain "GET" "/api/events" with streaming := true }]

/-- The same routes without a mount point, spelt in another way. -/
def unmountedContract : Contract where
  version := "1"
  generatedAt := ""
  routes := [Route.plain "get" "users//:userId/",
    { Route.plain "POST" "events" with streaming := true }]

theorem ofContract_eq_of_sameEntries_mountedContract :
    ofContract mountedContract (some "api/") = ofContract unmountedContract none ∧
      ofContract unmountedContract none = ofContract { unmountedContract with
        routes := [Route.plain "get" ("/" ++ "users//:userId/"),
          { Route.plain "GET" "events" with streaming := true }] } none := by
  obtain ⟨hsame, hspelling⟩ := ofContract_eq_of_sameEntries
  constructor
  · have hentries : List.Forall₂ (Route.SameEntry (some "api/") none) mountedContract.routes
        unmountedContract.routes :=
      .cons ⟨by decide +kernel, rfl, fun _ => by decide +kernel, rfl, rfl⟩
        (.cons ⟨by decide +kernel, rfl, nofun, rfl, rfl⟩ .nil)
    exact hsame mountedContract unmountedContract (some "api/") none rfl rfl hentries
  · have hmount (path : String) :
        RoutePath.unmount (RoutePath.normalizeMount none) path = path := rfl
    have hpath : Route.Respelling none (Route.plain "get" "users//:userId/")
        (Route.plain "get" ("/" ++ "users//:userId/")) := by
      apply Route.Respelling.path
      rw [hmount, hmount]
      exact .leading "users//:userId/"
    exact hspelling _ _ _ (.cons (.rel _ _ hpath) (.cons (.rel _ _ (.verb "GET" rfl)) .nil))

end Artifact
end TypedRoutes
