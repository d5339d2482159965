import TypedRoutes.Proofs.Client.Written

/-!
# Contracts without a client module

Generating the module of a contract fails exactly if a route that survives has, in one of its slots,
a literal that contains a cycle or a key without a name (`Artifact.fails_iff_isUnwritable`). A
document of a JSON text holds no such value, so there it never fails.
-/

set_option autoImplicit false

namespace TypedRoutes

/-! ## Schemas of a contract -/

section

variable {doc : Document}

/-- The schema in a slot is decoded from a value of the document. -/
theorem RouteSlots.forall_mem_slot {keyword : String} {entries : List (Scalar × Document.Value)}
    {slot : Option Schema} (h : slot? doc keyword entries = .ok slot) :
    ∀ schema ∈ slot.toList, ∃ v, Schema.ofDocument doc v = .ok schema := by
  unfold slot? at h
  split at h
  · obtain rfl := Except.ok.inj h
    exact nofun
  · next v _ =>
    split at h
    · obtain ⟨schema, hschema, rfl⟩ := Outcome.map_eq_ok.1 h
      exact List.forall_mem_singleton.2 ⟨v, hschema⟩
    · obtain rfl := Except.ok.inj h
      exact nofun

/-- Each schema of a route stands in one of its slots and is decoded from a value of the
document. -/
theorem RouteSlots.forall_schemas {schema : Option Document.Value} {slots : RouteSlots}
    (h : ofDocument doc schema = .ok slots) :
    ∀ schema ∈ slots.schemas, ∃ v, Schema.ofDocument doc v = .ok schema := by
  unfold ofDocument at h
  split at h
  · obtain ⟨body, hbody, h⟩ := Outcome.bind_eq_ok.1 h
    obtain ⟨query, hquery, h⟩ := Outcome.bind_eq_ok.1 h
    obtain ⟨params, hparams, h⟩ := Outcome.bind_eq_ok.1 h
    obtain ⟨response, hresponse, h⟩ := Outcome.bind_eq_ok.1 h
    obtain rfl := Except.ok.inj h
    simp only [schemas, List.forall_mem_append]
    exact ⟨⟨⟨forall_mem_slot hquery, forall_mem_slot hbody⟩, forall_mem_slot hparams⟩,
      forall_mem_slot hresponse⟩
  · obtain rfl := Except.ok.inj h
    exact nofun

theorem ContractStop.lift_eq_ok {α : Type} {x : Except DigitLimit α} {a : α}
    (h : lift x = .ok a) : x = .ok a := by
  cases x with
  | error limit => cases h
  | ok b => exact congrArg _ (Except.ok.inj h)

/-- Each schema of a decoded route is decoded from a value of the document. -/
theorem Route.forall_schemas {index : Int} {v : Document.Value} {r : Route}
    (h : ofDocument doc index v = .ok r) :
    ∀ schema ∈ r.slots.schemas, ∃ v, Schema.ofDocument doc v = .ok schema := by
  unfold ofDocument at h
  split at h
  · split at h
    · cases h
    · cases h
    · cases h
    · obtain ⟨slots, hslots, h⟩ := Outcome.bind_eq_ok.1 h
      obtain rfl := Except.ok.inj h
      exact RouteSlots.forall_schemas (ContractStop.lift_eq_ok hslots)
  · cases h

/-- Each schema of a list of decoded routes is decoded from a value of the document. -/
theorem Route.forall_schemas_listOfDocument {index : Int} {vs : List Document.Value}
    {routes : List Route} (h : listOfDocument doc index vs = .ok routes) :
    ∀ r ∈ routes, ∀ schema ∈ r.slots.schemas, ∃ v, Schema.ofDocument doc v = .ok schema := by
  induction vs generalizing index routes with
  | nil =>
    obtain rfl := Except.ok.inj h
    exact nofun
  | cons v rest ih =>
    obtain ⟨r, others, hr, hothers, rfl⟩ := Outcome.seq_eq_ok.1 h
    exact List.forall_mem_cons.2 ⟨Route.forall_schemas hr, ih hothers⟩

/-- Every schema of a contract is decoded from a value of its document. -/
theorem Contract.forall_schemas {c : Contract} (h : ofDocument doc = .ok c) :
    ∀ r ∈ c.routes, ∀ schema ∈ r.slots.schemas, ∃ v, Schema.ofDocument doc v = .ok schema := by
  unfold ofDocument at h
  split at h
  · split at h
    · cases h
    · obtain ⟨version, -, h⟩ := Outcome.bind_eq_ok.1 h
      obtain ⟨generatedAt, routes, -, hroutes, rfl⟩ := Outcome.seq_eq_ok.1 h
      exact Route.forall_schemas_listOfDocument hroutes
  · cases h

/-! ## Literals of a schema -/

/-- The literals of a schema of a document are those of values of the document. -/
theorem Schema.exists_value_of_mem_literals (hdoc : doc.isWithinLimit = true) {v : Document.Value}
    {schema : Schema} (h : ofDocument doc v = .ok schema) :
    ∀ l ∈ schema.literals, ∃ w, (∀ s, w = .scalar s → s.isWithinLimit = true) ∧
      l = Literal.ofDocument doc w := by
  have hpart {id : Nat} {node : Document.Node} (hnode : doc.nodes[id]? = some node) :
      ∀ w ∈ node.parts, ∀ s, w = .scalar s → s.isWithinLimit = true := by
    intro w hw s hs
    exact Document.isWithinLimit_of_mem_scalars hdoc hnode s
      (Document.mem_scalars_of_mem_parts (hs ▸ hw))
  refine forall_literals_of_ofDocument (fun _ id entries hentries e he => ?_)
    (fun _ items hitems => ?_) (fun w hw => ⟨w, hw, rfl⟩) h
  · exact hpart (Document.exists_node_of_mapping? hentries).2 e.2 (List.mem_map_of_mem he)
  · obtain ⟨id, -, hnode⟩ := Document.exists_node_of_shape_list hitems
    exact hpart hnode

/-- A schema of a document has no text if and only if it has the literal of a value with a fault. -/
theorem Schema.not_exists_typeText_iff (hdoc : doc.isWithinLimit = true) {v : Document.Value}
    {schema : Schema} (h : ofDocument doc v = .ok schema) :
    (¬ ∃ text, schema.typeText = .ok text) ↔
      ∃ w, Literal.ofDocument doc w ∈ schema.literals ∧ doc.IsUnwritable w := by
  rw [exists_typeText_iff]
  push Not
  constructor
  · rintro ⟨l, hl, htext⟩
    obtain ⟨w, hscalar, rfl⟩ := exists_value_of_mem_literals hdoc h l hl
    refine ⟨w, hl, ?_⟩
    by_contra hwritable
    obtain ⟨text, hok⟩ := (Literal.exists_text_ofDocument_iff hdoc hscalar).2 hwritable
    exact htext text hok
  · rintro ⟨w, hl, hunwritable⟩
    -- A scalar contains nothing at fault, so the value refers to a node.
    have hscalar : ∀ s, w = .scalar s → s.isWithinLimit = true := by
      rintro s rfl
      exact absurd hunwritable (Document.Plain.scalar s).not_isUnwritable
    refine ⟨_, hl, fun text hok => ?_⟩
    exact (Literal.exists_text_ofDocument_iff hdoc hscalar).1 ⟨text, hok⟩ hunwritable

end

/-! ## The module of a contract -/

namespace Artifact

/-- Generating a module fails if and only if a route that survives has, in one of its slots, the
literal of a value that contains a cycle or a key without a name; a route survives if and only if it
is in the forest. For a contract of a JSON text it never fails. -/
theorem fails_iff_isUnwritable (mount : Option String) :
    (∀ (routes : List Route) (r : Route), r.Survives mount routes ↔ ∃ path tree key,
      (RouteForest.ofRoutes mount routes).At path tree ∧ (key, r) ∈ tree.methods) ∧
    (∀ (doc : Document) (c : Contract), doc.isWithinLimit = true → Contract.ofDocument doc = .ok c →
      ((∃ fault, ofContract c mount = .error fault) ↔
        ∃ r : Route, r.Survives mount c.routes ∧ ∃ schema ∈ r.slots.schemas,
          ∃ v, Literal.ofDocument doc v ∈ schema.literals ∧ doc.IsUnwritable v)) ∧
    ∀ (text : String) (json : Json) (c : Contract), Json.parse text = .ok json →
      Contract.ofDocument (Document.ofJson json) = .ok c →
        ∃ artifact, ofContract c mount = .ok artifact := by
  refine ⟨fun routes r => ?_, fun doc c hdoc hc => ?_, fun text json c hjson hc => ?_⟩
  · rw [← RouteForest.mem_routes_ofRoutes_iff, RouteForest.mem_routes_iff]
  · rw [Outcome.exists_error_iff, exists_ofContract_iff]
    simp only [Route.IsWritable, not_forall, exists_prop]
    -- What a schema without a text has is said schema by schema.
    constructor
    · rintro ⟨r, hr, schema, hschema, htext⟩
      obtain ⟨v, hv⟩ := Contract.forall_schemas hc r hr.mem schema hschema
      exact ⟨r, hr, schema, hschema, (Schema.not_exists_typeText_iff hdoc hv).1 htext⟩
    · rintro ⟨r, hr, schema, hschema, hliteral⟩
      obtain ⟨v, hv⟩ := Contract.forall_schemas hc r hr.mem schema hschema
      exact ⟨r, hr, schema, hschema, (Schema.not_exists_typeText_iff hdoc hv).2 hliteral⟩
  · refine exists_ofContract_iff.2 fun r hr schema hschema => ?_
    obtain ⟨v, hv⟩ := Contract.forall_schemas hc r hr.mem schema hschema
    have hreadable := Schema.isReadable_of_ofDocument (Json.wellFormed_of_parse hjson) hv
    exact (Schema.exists_typeText_iff schema).2 fun l hl => (hreadable l hl).imp fun _ h => h.1

/-- A contract whose one route gives a list that holds itself. -/
def cyclicContract : Document where
  nodes := #[.map [(.str "routes", .node 1)], .list [.node 2],
    .map [(.str "method", .scalar (.str "GET")), (.str "path", .scalar (.str "/a")),
      (.str "schema", .node 3)],
    .map [(.str "response", .node 4)], .map [(.str "const", .node 5)], .list [.node 5]]
  root := .node 0

/-- The text of a contract whose one route gives a list that holds a list. -/
def nestedContract : String :=
  "\x7b\"routes\": [\x7b\"method\": \"GET\", \"path\": \"/a\", " ++
    "\"schema\": \x7b\"response\": \x7b\"const\": [[]]\x7d\x7d\x7d]\x7d"

theorem fails_iff_isUnwritable_cyclicContract :
    (∃ c, Contract.ofDocument cyclicContract = .ok c ∧ ∃ r : Route, r.Survives none c.routes ∧
      ∃ schema ∈ r.slots.schemas, ∃ v,
        Literal.ofDocument cyclicContract v ∈ schema.literals ∧ cyclicContract.IsUnwritable v) ∧
    ∃ json c artifact, Json.parse nestedContract = .ok json ∧
      Contract.ofDocument (Document.ofJson json) = .ok c ∧ ofContract c none = .ok artifact := by
  obtain ⟨-, hfails, hjson⟩ := fails_iff_isUnwritable none
  constructor
  -- That the artifact fails is computed; the theorem gives the literal that it fails at.
  · have hlimit : cyclicContract.isWithinLimit = true := by decide +kernel
    have hnone : (Contract.ofDocument cyclicContract).toOption.map
        (fun c => (ofContract c none).isOk) = some false := by decide +kernel
    cases hc : Contract.ofDocument cyclicContract with
    | error stop =>
      rw [hc] at hnone
      cases hnone
    | ok c =>
      refine ⟨c, rfl, (hfails cyclicContract c hlimit hc).1 (Outcome.exists_error_iff.2 ?_)⟩
      rintro ⟨text, htext⟩
      simp [hc, htext, Except.toOption, Except.isOk, Except.toBool] at hnone
  · have hsome : (Json.parse nestedContract).toOption.map
        (fun json => (Contract.ofDocument (Document.ofJson json)).isOk) = some true := by
      decide +kernel
    cases hparse : Json.parse nestedContract with
    | error fault =>
      rw [hparse] at hsome
      cases hsome
    | ok json =>
      rw [hparse] at hsome
      obtain ⟨c, hc⟩ := Outcome.exists_of_isOk (Option.some.inj hsome)
      obtain ⟨artifact, hartifact⟩ := hjson nestedContract json c hparse hc
      exact ⟨json, c, artifact, rfl, hc, hartifact⟩

end Artifact
end TypedRoutes
