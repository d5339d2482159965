import TypedRoutes.Proofs.Client.Parts
import TypedRoutes.Proofs.Schema.Shown

/-!
# Names that methods show

The descriptor and the signature of a route show the names of the properties in their schemas, in
the order in which the schemas stand there (`Route.shows_descriptor`, `Route.shows_signature`). A
descriptor has all schemas of the route; a signature leaves out the parameters of the path, and that
of a stream has the result twice.
-/

set_option autoImplicit false

namespace TypedRoutes

/-! ## Methods -/

namespace Route

/-- The schemas that the signature of a route shows. A stream gives its result to the callbacks, and
to the caller as well. -/
def signatureSchemas (r : Route) : List Schema :=
  r.slots.body.toList ++ r.slots.query.toList ++
    (if r.streaming then r.slots.response.toList else []) ++ r.slots.response.toList

/-- The names that the descriptor of a route shows. -/
def descriptorNames (r : Route) : List String := r.slots.schemas.flatMap Schema.propertyNames

/-- The names that the signature of a route shows. -/
def signatureNames (r : Route) : List String := r.signatureSchemas.flatMap Schema.propertyNames

end Route

/-- A slot shows the properties of its schema, behind a label that shows none. -/
theorem shows_slotText {slot : Option Schema} {type : Option String} {label : String}
    (hlabel : Shows [] label) (h : slotText? slot = .ok type) :
    ShowsEach (slot.toList.flatMap Schema.propertyNames) (type.map (label ++ ·)).toList := by
  cases slot with
  | none =>
    obtain rfl := Except.ok.inj h
    exact .nil
  | some schema =>
    obtain ⟨text, htext, rfl⟩ := Outcome.map_eq_ok.1 h
    exact .cons (hlabel.append (schema.shows_typeText htext)) .nil

theorem shows_padding (level : Int) : Shows [] (padding level) := by
  apply shows_of_no_openers
  intro c hc
  rw [eq_blank_of_mem_padding hc]
  decide

theorem shows_lines {names parts : List String} (h : ShowsEach names parts) :
    Shows names (lines parts) :=
  h.intercalate (shows_of_no_openers (by decide))

namespace Route

variable {r : Route}

theorem shows_resultText {result : String} (h : r.resultText = .ok result) :
    Shows (r.slots.response.toList.flatMap Schema.propertyNames) result := by
  obtain ⟨type, htype, rfl⟩ := Outcome.map_eq_ok.1 h
  cases hslot : r.slots.response with
  | none =>
    rw [hslot] at htype
    obtain rfl := Except.ok.inj htype
    exact shows_of_no_openers (by decide)
  | some schema =>
    rw [hslot] at htype
    obtain ⟨text, htext, rfl⟩ := Outcome.map_eq_ok.1 htype
    rw [Option.toList_some, List.flatMap_singleton]
    exact schema.shows_typeText htext

/-- A descriptor shows what its fields show: padding and braces name nothing. -/
theorem shows_layOutFields (level : Int) {names fields : List String} (h : ShowsEach names fields) :
    Shows names (layOutFields level fields) := by
  have hpadded : ShowsEach names (fields.map (padding (level + 1) ++ ·)) := by
    induction h with
    | nil => exact .nil
    | cons hfield _ ih => exact .cons ((shows_padding (level + 1)).append hfield) ih
  have hopening : Shows [] "\x7b" := shows_of_no_openers (by decide)
  have hclosing : Shows [] "\x7d" := shows_of_no_openers (by decide)
  have hblock := shows_lines (((showsEach_singleton_iff.2 hopening).append hpadded).append
    (showsEach_singleton_iff.2 ((shows_padding level).append hclosing)))
  rw [List.nil_append, List.append_nil, List.append_nil] at hblock
  cases fields with
  | nil => exact hblock
  | cons first rest =>
    cases rest with
    | nil =>
      have hbefore : Shows [] "\x7b " := shows_of_no_openers (by decide)
      have hafter : Shows [] " \x7d" := shows_of_no_openers (by decide)
      exact (hbefore.append (showsEach_singleton_iff.1 h)).ended hafter
    | cons => exact hblock

/-- A descriptor shows the properties of the four slots, in the order of its fields. -/
theorem shows_descriptor {level : Int} {text : String} (h : r.descriptor level = .ok text) :
    Shows r.descriptorNames text := by
  obtain ⟨fields, hfields, rfl⟩ := Outcome.map_eq_ok.1 h
  obtain ⟨query, body, params, result, hquery, hbody, hparams, hresult, rfl⟩ :=
    descriptorFields_eq_ok_iff.1 hfields
  have hreturn : Shows [] "return: " := shows_of_no_openers (by decide)
  have hqueryShown := shows_slotText (shows_of_no_openers (by decide) : Shows [] "query: ") hquery
  have hbodyShown := shows_slotText (shows_of_no_openers (by decide) : Shows [] "body: ") hbody
  have hparamsShown :=
    shows_slotText (shows_of_no_openers (by decide) : Shows [] "params: ") hparams
  have hresultShown := showsEach_singleton_iff.2 (hreturn.append (shows_resultText hresult))
  rw [descriptorNames, RouteSlots.schemas]
  simp only [List.flatMap_append]
  exact shows_layOutFields level
    (((hqueryShown.append hbodyShown).append hparamsShown).append hresultShown)

/-- The parameters show body and query, and the response when it stands in the callbacks of a
stream. -/
theorem shows_parameters {body query : Option String} {result : String}
    (hbody : slotText? r.slots.body = .ok body) (hquery : slotText? r.slots.query = .ok query)
    (hresult : r.resultText = .ok result) :
    ShowsEach ((r.slots.body.toList ++ r.slots.query.toList ++
        if r.streaming then r.slots.response.toList else []).flatMap Schema.propertyNames)
      (parameters r.streaming body query result) := by
  have hbodyShown := shows_slotText (shows_of_no_openers (by decide) : Shows [] "body: ") hbody
  have hresultShown := shows_resultText hresult
  unfold parameters
  simp only [List.flatMap_append, List.append_assoc]
  refine hbodyShown.append ?_
  -- The parameters of a stream hold the type of the result too, in the place of the options of a
  -- call.
  cases r.streaming with
  | true =>
    have hlabel : Shows [] "query: " := shows_of_no_openers (by decide)
    have hqueryShown := shows_slotText hlabel hquery
    have hopening : Shows [] "callbacks: SSECallbacks<" := shows_of_no_openers (by decide)
    have hclosing : Shows [] ">" := shows_of_no_openers (by decide)
    have hoptions : Shows [] "options?: SSESubscribeOptions" := shows_of_no_openers (by decide)
    have hcallbacks := ShowsEach.cons ((hopening.append hresultShown).ended hclosing)
      (showsEach_singleton_iff.2 hoptions)
    rw [List.append_nil] at hcallbacks
    exact hqueryShown.append hcallbacks
  | false =>
    have hlabel : Shows [] "query?: " := shows_of_no_openers (by decide)
    have hqueryShown := shows_slotText hlabel hquery
    have hconfig : Shows [] "config?: RequestConfig" := shows_of_no_openers (by decide)
    exact hqueryShown.append (showsEach_singleton_iff.2 hconfig)

theorem shows_callResult (streaming : Bool) {names : List String} {result : String}
    (h : Shows names result) : Shows names (callResult streaming result) := by
  cases streaming with
  | true =>
    have hopening : Shows [] "SSESubscription<" := shows_of_no_openers (by decide)
    exact (hopening.append h).ended (shows_of_no_openers (by decide))
  | false =>
    have hopening : Shows [] "Promise<ApiResponse<" := shows_of_no_openers (by decide)
    exact (hopening.append h).ended (shows_of_no_openers (by decide))

/-- A signature shows the properties of its parameters followed by those of its result. -/
theorem shows_signature {text : String} (h : r.signature = .ok text) :
    Shows r.signatureNames text := by
  obtain ⟨result, body, query, hresult, hbody, hquery, rfl⟩ := signature_eq_ok_iff.1 h
  have hopening : Shows [] "(" := shows_of_no_openers (by decide)
  have hcomma : Shows [] ", " := shows_of_no_openers (by decide)
  have harrow : Shows [] ") => " := shows_of_no_openers (by decide)
  have hparameters := (shows_parameters hbody hquery hresult).intercalate hcomma
  have hcall := shows_callResult r.streaming (shows_resultText hresult)
  rw [signatureNames, signatureSchemas, List.flatMap_append]
  exact ((hopening.append hparameters).ended harrow).append hcall

end Route

end TypedRoutes
