import Mathlib.Data.List.Forall2
import Mathlib.Tactic.Ring
import TypedRoutes.Halt
import TypedRoutes.Proofs.Contract.Parts

/-!
# Contracts and the first fault of a document

`Contract.IsDocument` says which documents are contracts and `Contract.Matches` what a contract has
from its document. `Contract.FirstFault` says what is at fault in any other document, and where: of
several faults the first in the order of the document, and of one entry of the list of routes the
first in the order in which its parts are checked.

A document either is a contract or has a first fault (`Contract.isDocument_or_firstFault`). In one
without oversized integers, `Contract.ofDocument` decodes the contract or reports that fault, and
does nothing else (`Contract.ofDocument_matches_or_firstFault`).
-/

set_option autoImplicit false

namespace TypedRoutes

/-! ## Contracts and faults -/

namespace Route

variable (doc : Document)

/-- The route has all its parts from the entries of a mapping. -/
structure HasParts (entries : List (Scalar × Document.Value)) (r : Route) : Prop where
  method : doc.HasString entries "method" r.method
  path : doc.HasString entries "path" r.path
  name : ∀ text, r.name = some text ↔ doc.HasString entries "name" text
  description : ∀ text, r.description = some text ↔ doc.HasString entries "description" text
  streaming : doc.HasFlag entries "sse" r.streaming
  body : doc.SlotMatches (doc.rawSlot? entries "body") r.slots.body
  query : doc.SlotMatches (doc.rawSlot? entries "query") r.slots.query
  params : doc.SlotMatches (doc.rawSlot? entries "params") r.slots.params
  response : doc.SlotMatches (doc.rawSlot? entries "response") r.slots.response

/-- The value is a mapping from which the route has its parts. -/
def Matches (v : Document.Value) (r : Route) : Prop :=
  ∃ entries, doc.shape v = .map entries ∧ r.HasParts doc entries

/-- The value is an entry of a list of routes: a mapping with a string `method`, a string `path`
and, if there, a boolean `sse`. -/
def IsEntry (v : Document.Value) : Prop :=
  ∃ entries, doc.shape v = .map entries ∧ (∃ text, doc.HasString entries "method" text) ∧
    (∃ text, doc.HasString entries "path" text) ∧ ∃ flag, doc.HasFlag entries "sse" flag

/-- What is at fault in a value that is no entry, and the part that it concerns. -/
inductive FirstFault : Document.Value → (detail suffix : String) → Prop
  | notMapping {v : Document.Value} :
      (∀ entries, doc.shape v ≠ .map entries) → FirstFault v "route must be a mapping" ""
  | method {v : Document.Value} {entries : List (Scalar × Document.Value)} :
      doc.shape v = .map entries → (∀ text, ¬ doc.HasString entries "method" text) →
        FirstFault v "must be a string" ".method"
  | path {v : Document.Value} {entries : List (Scalar × Document.Value)} {method : String} :
      doc.shape v = .map entries → doc.HasString entries "method" method →
        (∀ text, ¬ doc.HasString entries "path" text) → FirstFault v "must be a string" ".path"
  | streaming {v : Document.Value} {entries : List (Scalar × Document.Value)}
      {method path : String} :
      doc.shape v = .map entries → doc.HasString entries "method" method →
        doc.HasString entries "path" path → doc.HasNoFlag entries "sse" →
          FirstFault v "must be a boolean" ".sse"

end Route

namespace Contract

variable (doc : Document)

/-- The list of routes of a contract; without one there are no routes. -/
def HasRoutes (entries : List (Scalar × Document.Value)) (values : List Document.Value) : Prop :=
  field? "routes" entries = none ∧ values = [] ∨
    ∃ v, field? "routes" entries = some v ∧ doc.shape v = .list values

/-- The contract has its texts from the document, and one route from each entry of the list of
routes, in order. -/
def Matches (c : Contract) : Prop :=
  ∃ entries values, doc.shape doc.root = .map entries ∧ HasRoutes doc entries values ∧
    doc.HasText entries "version" c.version ∧ doc.HasText entries "generatedAt" c.generatedAt ∧
    List.Forall₂ (Route.Matches doc) values c.routes

/-- The document is a contract: a mapping whose `routes`, if there, are a list of entries. -/
def IsDocument : Prop :=
  ∃ entries values, doc.shape doc.root = .map entries ∧ HasRoutes doc entries values ∧
    ∀ v ∈ values, Route.IsEntry doc v

/-- What is at fault in a document that is no contract, and the field that it concerns. The root has
no name, and an entry of the list of routes is named by the number of entries before it. -/
inductive FirstFault : (detail : String) → (field : Option String) → Prop
  | notMapping :
      (∀ entries, doc.shape doc.root ≠ .map entries) →
        FirstFault "contract root must be a mapping" none
  | routes {entries : List (Scalar × Document.Value)} {v : Document.Value} :
      doc.shape doc.root = .map entries → field? "routes" entries = some v →
        (∀ values, doc.shape v ≠ .list values) → FirstFault "must be a list" (some "routes")
  | route {entries : List (Scalar × Document.Value)} {before after : List Document.Value}
      {v : Document.Value} {detail suffix : String} :
      doc.shape doc.root = .map entries → HasRoutes doc entries (before ++ v :: after) →
        (∀ u ∈ before, Route.IsEntry doc u) → Route.FirstFault doc v detail suffix →
          FirstFault detail (some ("routes[" ++ decimalText before.length ++ "]" ++ suffix))

end Contract

/-! ## Entries of the list of routes -/

namespace Route

variable {doc : Document} {v : Document.Value} {entries : List (Scalar × Document.Value)}

/-- A value is an entry or has a first fault. -/
theorem isEntry_or_firstFault (doc : Document) (v : Document.Value) :
    IsEntry doc v ∨ ∃ detail suffix, FirstFault doc v detail suffix := by
  by_cases hmap : ∃ entries, doc.shape v = .map entries
  · obtain ⟨entries, hshape⟩ := hmap
    by_cases hmethod : ∃ text, doc.HasString entries "method" text
    · obtain ⟨method, hmethod⟩ := hmethod
      by_cases hpath : ∃ text, doc.HasString entries "path" text
      · obtain ⟨path, hpath⟩ := hpath
        rcases doc.hasFlag_or_hasNoFlag entries "sse" with hflag | hnoFlag
        · exact .inl ⟨entries, hshape, ⟨method, hmethod⟩, ⟨path, hpath⟩, hflag⟩
        · exact .inr ⟨_, _, .streaming hshape hmethod hpath hnoFlag⟩
      · exact .inr ⟨_, _, .path hshape hmethod (not_exists.1 hpath)⟩
    · exact .inr ⟨_, _, .method hshape (not_exists.1 hmethod)⟩
  · exact .inr ⟨_, _, .notMapping (not_exists.1 hmap)⟩

/-- An entry is decoded to a route with its parts. -/
theorem exists_ofDocument (hdoc : doc.isWithinLimit = true) (index : Int) (h : IsEntry doc v) :
    ∃ r, ofDocument doc index v = .ok r ∧ r.Matches doc v := by
  obtain ⟨entries, hshape, ⟨method, hmethod⟩, ⟨path, hpath⟩, flag, hflag⟩ := h
  obtain ⟨slots, hslots, hbody, hquery, hparams, hresponse⟩ :=
    RouteSlots.exists_ofDocument hdoc entries
  have hdecoded : ofDocument doc index v = .ok {
      method, path, slots, streaming := flag
      name := stringAt? doc "name" entries
      description := stringAt? doc "description" entries } := by
    simp only [ofDocument, hshape, stringAt?_eq_some_iff.2 hmethod, stringAt?_eq_some_iff.2 hpath,
      streaming?_eq_some_iff.2 hflag, hslots]
    rfl
  exact ⟨_, hdecoded, entries, hshape, hmethod, hpath, fun _ => stringAt?_eq_some_iff,
    fun _ => stringAt?_eq_some_iff, hflag, hbody, hquery, hparams, hresponse⟩

/-- The first fault of a value is reported at the index of the value. -/
theorem exists_ofDocument_eq_error {detail suffix : String} (index : Int)
    (h : FirstFault doc v detail suffix) : ∃ fault : RouteFault,
      ofDocument doc index v = .error (.fault (.route index fault)) ∧
        fault.detail = detail ∧ fault.suffix = suffix := by
  cases h with
  | notMapping hshape =>
    refine ⟨.notMapping, ?_, rfl, rfl⟩
    unfold ofDocument
    split
    · next entries hmap => exact absurd hmap (hshape entries)
    · rfl
  | method hshape hmethod =>
    refine ⟨.method, ?_, rfl, rfl⟩
    simp only [ofDocument, hshape, stringAt?_eq_none_iff.2 hmethod]
  | path hshape hmethod hpath =>
    refine ⟨.path, ?_, rfl, rfl⟩
    simp only [ofDocument, hshape, stringAt?_eq_some_iff.2 hmethod, stringAt?_eq_none_iff.2 hpath]
  | streaming hshape hmethod hpath hnoFlag =>
    refine ⟨.streaming, ?_, rfl, rfl⟩
    simp only [ofDocument, hshape, stringAt?_eq_some_iff.2 hmethod, stringAt?_eq_some_iff.2 hpath,
      streaming?_eq_none hnoFlag]

/-- The entries of a list are decoded one by one. -/
theorem exists_listOfDocument (hdoc : doc.isWithinLimit = true) {values : List Document.Value}
    (h : ∀ v ∈ values, IsEntry doc v) (index : Int) :
    ∃ routes, listOfDocument doc index values = .ok routes ∧
      List.Forall₂ (fun v r => r.Matches doc v) values routes := by
  induction values generalizing index with
  | nil => exact ⟨[], rfl, .nil⟩
  | cons v rest ih =>
    obtain ⟨hfirst, hrest⟩ := List.forall_mem_cons.1 h
    obtain ⟨r, hr, hmatches⟩ := exists_ofDocument hdoc index hfirst
    obtain ⟨others, hothers, hothersMatch⟩ := ih hrest (index + 1)
    refine ⟨r :: others, ?_, .cons hmatches hothersMatch⟩
    rw [listOfDocument, hr, hothers]
    rfl

/-- The first value that is no entry is reported, at the number of entries before it. -/
theorem exists_listOfDocument_eq_error (hdoc : doc.isWithinLimit = true)
    {before : List Document.Value} {detail suffix : String} (hbefore : ∀ u ∈ before, IsEntry doc u)
    (hfault : FirstFault doc v detail suffix) (after : List Document.Value) (index : Int) :
    ∃ fault : RouteFault, listOfDocument doc index (before ++ v :: after) =
        .error (.fault (.route (index + before.length) fault)) ∧
      fault.detail = detail ∧ fault.suffix = suffix := by
  induction before generalizing index with
  | nil =>
    obtain ⟨fault, herror, hdetail, hsuffix⟩ := exists_ofDocument_eq_error index hfault
    refine ⟨fault, ?_, hdetail, hsuffix⟩
    rw [List.nil_append, listOfDocument, herror, List.length_nil, Nat.cast_zero, add_zero]
    rfl
  | cons u rest ih =>
    obtain ⟨hu, hrest⟩ := List.forall_mem_cons.1 hbefore
    obtain ⟨r, hr, -⟩ := exists_ofDocument hdoc index hu
    obtain ⟨fault, herror, hdetail, hsuffix⟩ := ih hrest (index + 1)
    refine ⟨fault, ?_, hdetail, hsuffix⟩
    have hindex : index + 1 + rest.length = index + (u :: rest).length := by
      rw [List.length_cons, Nat.cast_succ]
      ring
    rw [List.cons_append, listOfDocument, hr, herror, hindex]
    rfl

/-- All values of a list are entries, or there is a first one that is none. -/
theorem forall_isEntry_or_exists_firstFault (doc : Document) (values : List Document.Value) :
    (∀ v ∈ values, IsEntry doc v) ∨
      ∃ before v after detail suffix, values = before ++ v :: after ∧
        (∀ u ∈ before, IsEntry doc u) ∧ FirstFault doc v detail suffix := by
  induction values with
  | nil => exact .inl nofun
  | cons u rest ih =>
    rcases isEntry_or_firstFault doc u with hu | ⟨detail, suffix, hfault⟩
    · rcases ih with hrest | ⟨before, v, after, detail, suffix, rfl, hbefore, hfault⟩
      · exact .inl (List.forall_mem_cons.2 ⟨hu, hrest⟩)
      · exact .inr ⟨u :: before, v, after, detail, suffix, rfl,
          List.forall_mem_cons.2 ⟨hu, hbefore⟩, hfault⟩
    · exact .inr ⟨[], u, rest, detail, suffix, rfl, nofun, hfault⟩

end Route

/-! ## Contracts -/

namespace Contract

variable {doc : Document}

/-- Looking up the values of the routes finds exactly those that the contract has. -/
theorem hasRoutes_iff {entries : List (Scalar × Document.Value)} {values : List Document.Value} :
    routeValues? doc entries = some values ↔ HasRoutes doc entries values := by
  unfold routeValues? HasRoutes
  cases hfield : field? "routes" entries with
  | none => simp [eq_comm]
  | some v =>
    simp only [Option.map_some]
    split
    · next h => cases h
    · next items h => simp [Option.some.inj h]
    · next w hother hw =>
      have hne : doc.shape v ≠ .list values := by
        rw [Option.some.inj hw]
        exact hother values
      simp [hne]

/-- A document is a contract or has a first fault. -/
theorem isDocument_or_firstFault (doc : Document) :
    IsDocument doc ∨ ∃ detail field, FirstFault doc detail field := by
  by_cases hmap : ∃ entries, doc.shape doc.root = .map entries
  · obtain ⟨entries, hshape⟩ := hmap
    by_cases hroutes : ∃ values, HasRoutes doc entries values
    · obtain ⟨values, hroutes⟩ := hroutes
      rcases Route.forall_isEntry_or_exists_firstFault doc values with
        hentries | ⟨before, v, after, detail, suffix, rfl, hbefore, hfault⟩
      · exact .inl ⟨entries, values, hshape, hroutes, hentries⟩
      · exact .inr ⟨_, _, .route hshape hroutes hbefore hfault⟩
    · cases hfield : field? "routes" entries with
      | none => exact absurd ⟨[], .inl ⟨hfield, rfl⟩⟩ hroutes
      | some v =>
        have hlist (values : List Document.Value) : doc.shape v ≠ .list values :=
          fun hv => hroutes ⟨values, .inr ⟨v, hfield, hv⟩⟩
        exact .inr ⟨_, _, .routes hshape hfield hlist⟩
  · exact .inr ⟨_, _, .notMapping (not_exists.1 hmap)⟩

/-- A contract is decoded. -/
theorem exists_ofDocument (hdoc : doc.isWithinLimit = true) (h : IsDocument doc) :
    ∃ c, ofDocument doc = .ok c ∧ c.Matches doc := by
  obtain ⟨entries, values, hshape, hroutes, hentries⟩ := h
  obtain ⟨version, hversion, hversionText⟩ := exists_textAt hdoc hshape "version"
  obtain ⟨generatedAt, hgeneratedAt, hgeneratedAtText⟩ := exists_textAt hdoc hshape "generatedAt"
  obtain ⟨routes, hlist, hmatches⟩ := Route.exists_listOfDocument hdoc hentries 0
  have hdecoded : ofDocument doc = .ok { version, generatedAt, routes } := by
    simp only [ofDocument, hshape, hasRoutes_iff.2 hroutes, hversion, hgeneratedAt, hlist]
    rfl
  exact ⟨_, hdecoded, entries, values, hshape, hroutes, hversionText, hgeneratedAtText, hmatches⟩

/-- The first fault of a document is reported. -/
theorem exists_ofDocument_eq_error (hdoc : doc.isWithinLimit = true) {detail : String}
    {field : Option String} (h : FirstFault doc detail field) :
    ∃ fault : ContractFault, ofDocument doc = .error (.fault fault) ∧
      fault.detail = detail ∧ fault.field = field := by
  -- The cases are the kinds of faults, in the order in which the decoder looks for them.
  cases h with
  | notMapping hshape =>
    refine ⟨.notMapping, ?_, rfl, rfl⟩
    unfold ofDocument
    split
    · next entries hmap => exact absurd hmap (hshape entries)
    · rfl
  | @routes entries v hshape hfield hlist =>
    have hnone : routeValues? doc entries = none := by
      rw [Option.eq_none_iff_forall_ne_some]
      intro values hvalues
      rcases hasRoutes_iff.1 hvalues with ⟨hnone, -⟩ | ⟨w, hw, hshape⟩
      · cases hfield.symm.trans hnone
      · obtain rfl := Option.some.inj (hfield.symm.trans hw)
        exact hlist values hshape
    refine ⟨.routes, ?_, rfl, rfl⟩
    simp only [ofDocument, hshape, hnone]
  | @route entries before after v _ suffix hshape hroutes hbefore hfault =>
    obtain ⟨version, hversion, -⟩ := exists_textAt hdoc hshape "version"
    obtain ⟨generatedAt, hgeneratedAt, -⟩ := exists_textAt hdoc hshape "generatedAt"
    obtain ⟨fault, herror, hdetail, rfl⟩ :=
      Route.exists_listOfDocument_eq_error hdoc hbefore hfault after 0
    rw [zero_add] at herror
    refine ⟨.route before.length fault, ?_, hdetail, rfl⟩
    simp only [ofDocument, hshape, hasRoutes_iff.2 hroutes, hversion, hgeneratedAt, herror]
    rfl

/-- In a document without oversized integers, a contract is decoded exactly if the document is one,
and it matches the document. Otherwise the first fault is reported, with the source of the document
and the field at fault. -/
theorem ofDocument_matches_or_firstFault (doc : Document) (hdoc : doc.isWithinLimit = true)
    (source : Option String) :
    ((∃ c, ofDocument doc = .ok c) ↔ IsDocument doc) ∧
      (∀ c, ofDocument doc = .ok c → c.Matches doc) ∧
        ∀ halt, (ofDocument doc).mapError (Halt.ofStop source) = .error halt ↔
          ∃ detail field, FirstFault doc detail field ∧
            halt = .reported (.invalid detail source field) := by
  rcases isDocument_or_firstFault doc with hcontract | ⟨detail, field, hfault⟩
  · obtain ⟨c, hc, hmatches⟩ := exists_ofDocument hdoc hcontract
    rw [hc]
    refine ⟨⟨fun _ => hcontract, fun _ => ⟨c, rfl⟩⟩, ?_, fun halt => ⟨nofun, ?_⟩⟩
    · intro c' hc'
      obtain rfl := Except.ok.inj hc'
      exact hmatches
    · rintro ⟨detail, field, hfault, -⟩
      obtain ⟨fault, herror, -⟩ := exists_ofDocument_eq_error hdoc hfault
      cases hc.symm.trans herror
  · obtain ⟨fault, herror, rfl, rfl⟩ := exists_ofDocument_eq_error hdoc hfault
    refine ⟨⟨?_, fun hcontract => ?_⟩, ?_, fun halt => ⟨fun hhalt => ?_, ?_⟩⟩
    · rintro ⟨c, hc⟩
      cases hc.symm.trans herror
    · exact ⟨_, (exists_ofDocument hdoc hcontract).choose_spec.1⟩
    · intro c hc
      cases hc.symm.trans herror
    · rw [herror] at hhalt
      exact ⟨_, _, hfault, (Except.error.inj hhalt).symm⟩
    -- What is reported determines the first fault, so two of them report the same.
    · rintro ⟨detail, field, hfault', rfl⟩
      obtain ⟨fault', herror', rfl, rfl⟩ := exists_ofDocument_eq_error hdoc hfault'
      rw [herror']
      rfl

/-- A document whose second route has a number for a flag, and whose third is no mapping. -/
def faultyDocument : Document where
  nodes := #[.map [(.str "routes", .node 1)], .list [.node 2, .node 3, .scalar .null],
    .map [(.str "method", .scalar (.str "GET")), (.str "path", .scalar (.str "/a"))],
    .map [(.str "sse", .scalar (.int 1)), (.str "path", .scalar (.str "/b")),
      (.str "method", .scalar (.str "GET"))]]
  root := .node 0

theorem ofDocument_matches_or_firstFault_faultyDocument :
    ¬ IsDocument faultyDocument ∧
      (ofDocument faultyDocument).mapError (Halt.ofStop (some "c.json")) =
        .error (.reported
          (.invalid "must be a boolean" (some "c.json") (some "routes[1].sse"))) := by
  obtain ⟨hdocument, -, hfault⟩ :=
    ofDocument_matches_or_firstFault faultyDocument (by decide +kernel) (some "c.json")
  have hfirst : Route.IsEntry faultyDocument (.node 2) :=
    ⟨_, rfl, ⟨"GET", _, rfl, rfl⟩, ⟨"/a", _, rfl, rfl⟩, false, .inl ⟨rfl, rfl⟩⟩
  have hsecond : Route.FirstFault faultyDocument (.node 3) "must be a boolean" ".sse" :=
    .streaming rfl ⟨_, rfl, rfl⟩ ⟨_, rfl, rfl⟩ ⟨_, rfl, nofun⟩
  have hroutes : HasRoutes faultyDocument [(.str "routes", .node 1)]
    ([.node 2] ++ .node 3 :: [.scalar .null]) := .inr ⟨_, rfl, rfl⟩
  have herror := (hfault _).2
    ⟨_, _, .route rfl hroutes (List.forall_mem_singleton.2 hfirst) hsecond, rfl⟩
  refine ⟨fun hcontract => ?_, herror⟩
  obtain ⟨c, hc⟩ := hdocument.2 hcontract
  rw [hc] at herror
  cases herror

end Contract
end TypedRoutes
