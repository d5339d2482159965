import TypedRoutes.Proofs.Client.Parts

/-!
# Interfaces line by line

Every line of the interface of a client is one line (`isLine_forestLines`), if no key, description
or property name of the forest holds a line feed. `RouteForest.texts` lists these texts.
-/

set_option autoImplicit false

namespace TypedRoutes

open Text (IsLine isLine_append isLine_ofList)

/-! ## The texts of a forest -/

/-- The names of the properties in the schemas of a route. -/
def RouteSlots.propertyNames (slots : RouteSlots) : List String :=
  [slots.body, slots.query, slots.params, slots.response].flatMap fun slot =>
    slot.elim [] Schema.propertyNames

/-- The description of a route and the names of the properties in its schemas. -/
def Route.texts (r : Route) : List String := r.description.toList ++ r.slots.propertyNames

/-- The method keys and the texts of the routes at one place. -/
def methodTexts : List (String × Route) → List String
  | [] => []
  | (key, route) :: rest => key :: route.texts ++ methodTexts rest

mutual

/-- The texts in a tree. -/
def RouteTree.texts : RouteTree → List String
  | .node _ methods children => methodTexts methods ++ forestTexts children

/-- The keys and the texts of a forest. -/
def forestTexts : List (String × RouteTree) → List String
  | [] => []
  | (key, tree) :: rest => key :: tree.texts ++ forestTexts rest

end

/-- The texts that a forest takes from its routes: keys of segments and methods, descriptions, and
names of properties. -/
def RouteForest.texts (forest : RouteForest) : List String := forestTexts forest

/-! ## Every line is one line -/

theorem isLine_padding (level : Int) : IsLine (padding level) := by
  intro hfeed
  exact absurd (eq_blank_of_mem_padding hfeed) (by decide)

/-- The comment of a route takes one line when its texts do. -/
theorem isLine_commentLines {r : Route} {pad : String} (hpad : IsLine pad)
    (h : ∀ text ∈ r.texts, IsLine text) : ∀ line ∈ r.commentLines pad, IsLine line := by
  intro line hline
  unfold Route.commentLines at hline
  cases hdescription : r.description with
  | none =>
    rw [hdescription] at hline
    cases hline
  | some text =>
    have htext : IsLine text := h text (by simp [Route.texts, hdescription])
    rw [hdescription] at hline
    simp only at hline
    split at hline
    · cases hline
    · obtain rfl := List.mem_singleton.1 hline
      have hcomment := isLine_ofList.2 (newline_not_mem_commentText htext)
      exact isLine_append.2 ⟨isLine_append.2 ⟨isLine_append.2 ⟨hpad, by decide⟩, hcomment⟩,
        by decide⟩

/-- The types of a route are one line each. -/
theorem isLine_types {r : Route} (h : ∀ text ∈ r.texts, IsLine text) :
    ∀ schema ∈ r.slots.schemas, ∀ {text}, schema.typeText = .ok text → IsLine text := by
  intro schema hschema text htext
  refine Schema.isLine_typeText (fun name hname => h name ?_) htext
  simp only [RouteSlots.schemas, List.mem_append, Option.mem_toList] at hschema
  apply List.mem_append_right
  simp only [RouteSlots.propertyNames, List.mem_flatMap, List.mem_cons, List.not_mem_nil, or_false]
  refine ⟨some schema, ?_, hname⟩
  tauto

/-- A signature takes one line when the texts of the route do. -/
theorem isLine_signature {r : Route} {signature : String} (h : ∀ text ∈ r.texts, IsLine text)
    (hsignature : r.signature = .ok signature) : IsLine signature :=
  Route.signature_of_schemas .isLine (isLine_types h) hsignature

/-- Each line of the methods is one line when the texts of the routes are. -/
theorem isLine_methodLines {level : Int} {methods : List (String × Route)} {written : List String}
    (h : ∀ text ∈ methodTexts methods, IsLine text)
    (hwritten : methodLines (fun route _ => route.signature) level methods = .ok written) :
    ∀ line ∈ written, IsLine line := by
  induction methods generalizing written with
  | nil =>
    obtain rfl := Except.ok.inj hwritten
    simp
  | cons entry rest ih =>
    obtain ⟨key, route⟩ := entry
    rw [methodTexts, List.cons_append, List.forall_mem_cons, List.forall_mem_append] at h
    obtain ⟨hkey, hroute, hrest⟩ := h
    obtain ⟨signature, others, hsignature, hothers, rfl⟩ := methodLines_cons_eq_ok_iff.1 hwritten
    have hpad : IsLine (padding level ++ "  ") := isLine_append.2 ⟨isLine_padding level, by decide⟩
    have hentry : IsLine (padding level ++ "  " ++ PropertyKey.text key ++ ": " ++ signature) :=
      isLine_append.2 ⟨isLine_append.2 ⟨isLine_append.2 ⟨hpad, isLine_propertyKey hkey⟩,
        by decide⟩, isLine_signature hroute hsignature⟩
    rw [List.forall_mem_append, List.forall_mem_append, List.forall_mem_singleton]
    exact ⟨⟨isLine_commentLines hpad hroute, hentry⟩, ih hrest hothers⟩

mutual

/-- Each line below a node is one line when the texts of the tree are, by induction on the tree. -/
theorem isLine_innerLines (level : Int) : ∀ (tree : RouteTree) {written : List String},
    (∀ text ∈ tree.texts, IsLine text) →
      tree.innerLines (fun route _ => route.signature) level = .ok written →
        ∀ line ∈ written, IsLine line
  | .node _ methods children, written, h, hwritten => by
    rw [RouteTree.texts, List.forall_mem_append] at h
    obtain ⟨own, below, hown, hbelow, rfl⟩ := RouteTree.innerLines_eq_ok_iff.1 hwritten
    rw [List.forall_mem_append]
    exact ⟨isLine_methodLines h.1 hown, isLine_forestLines (level + 1) children h.2 hbelow⟩

/-- Every line of the body of an interface is one line. -/
theorem isLine_forestLines (level : Int) : ∀ (forest : List (String × RouteTree))
    {written : List String}, (∀ text ∈ forestTexts forest, IsLine text) →
      forestLines (fun route _ => route.signature) level forest = .ok written →
        ∀ line ∈ written, IsLine line
  | [], written, _, hwritten => by
    obtain rfl := Except.ok.inj hwritten
    simp
  | (key, tree) :: rest, written, h, hwritten => by
    rw [forestTexts, List.cons_append, List.forall_mem_cons, List.forall_mem_append] at h
    obtain ⟨hkey, htree, hrest⟩ := h
    obtain ⟨inner, others, hinner, hothers, rfl⟩ := forestLines_cons_eq_ok_iff.1 hwritten
    have hopening : IsLine (padding level ++ PropertyKey.text key ++ ": \x7b") :=
      isLine_append.2 ⟨isLine_append.2 ⟨isLine_padding level, isLine_propertyKey hkey⟩,
        by decide⟩
    have hclosing : IsLine (padding level ++ "\x7d") :=
      isLine_append.2 ⟨isLine_padding level, by decide⟩
    simp only [List.forall_mem_append, List.forall_mem_singleton]
    exact ⟨⟨⟨hopening, isLine_innerLines level tree htree hinner⟩, hclosing⟩,
      isLine_forestLines level rest hrest hothers⟩

end

end TypedRoutes
