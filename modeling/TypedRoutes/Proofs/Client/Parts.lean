import TypedRoutes.Proofs.Client.Declaration
import TypedRoutes.Proofs.Schema.Parts

/-!
# Comments and the parts of methods

Padding is nothing but blanks. A comment holds no line feed that its text does not hold, and it
passes the scanner whatever its text is (`passes_comment`). A compositional property of texts that
the types in the slots of a route have is one of its signature (`Route.signature_of_schemas`) and of
the fields of its descriptor (`Route.descriptorFields_of_schemas`).
-/

set_option autoImplicit false

namespace TypedRoutes

open Text (Bracket Compositional Passes Scanner)

/-! ## Padding -/

theorem eq_blank_of_mem_padding {level : Int} {c : Char} (h : c ∈ (padding level).toList) :
    c = ' ' := by
  rw [padding, String.toList_ofList] at h
  exact List.eq_of_mem_replicate h

/-! ## Comments -/

theorem newline_not_mem_commentText {text : List Char} (h : '\n' ∉ text) :
    '\n' ∉ commentText text := by
  -- Closing marks get a backslash, which is no line feed.
  fun_induction commentText text with
  | case1 rest ih =>
    simp only [List.mem_cons, not_or] at h ⊢
    exact ⟨by decide, by decide, by decide, ih h.2.2⟩
  | case2 c rest _ ih =>
    simp only [List.mem_cons, not_or] at h ⊢
    exact ⟨h.1, ih h.2⟩
  | case3 => exact h

/-- A comment text does not end the comment. After a star it may not begin with a slash. -/
theorem Text.Scanner.run_commentText (opened : List Bracket) (text : List Char) {mode : Mode}
    (h : mode = .comment ∨ mode = .star ∧ text.head? ≠ some '/') :
    ∃ last, run ⟨mode, opened⟩ (commentText text) = some ⟨last, opened⟩ ∧
      (last = .comment ∨ last = .star) := by
  fun_induction commentText text generalizing mode with
  | case1 rest ih =>
    -- The backslash stands between the star and the slash of a closing mark.
    have hmark : run ⟨mode, opened⟩ ['*', '\\', '/'] = some ⟨.comment, opened⟩ := by
      rcases h with rfl | ⟨rfl, -⟩ <;> rfl
    obtain ⟨last, hlast, hmode⟩ := ih (.inl rfl)
    have hsplit := run_append ⟨mode, opened⟩ ['*', '\\', '/'] (commentText rest)
    rw [hmark] at hsplit
    exact ⟨last, hsplit.trans hlast, hmode⟩
  | case2 c rest hmark ih =>
    have hstep : ∃ next, step ⟨mode, opened⟩ c = some ⟨next, opened⟩ ∧
        (next = .comment ∨ next = .star ∧ c = '*') := by
      rcases h with rfl | ⟨rfl, hslash⟩
      · by_cases hstar : c = '*'
        · exact ⟨.star, by simp [step, hstar], .inr ⟨rfl, hstar⟩⟩
        · exact ⟨.comment, by simp [step, hstar], .inl rfl⟩
      · have hslash : c ≠ '/' := fun e => hslash (congrArg some e)
        by_cases hstar : c = '*'
        · exact ⟨.star, by simp [step, hstar], .inr ⟨rfl, hstar⟩⟩
        · exact ⟨.comment, by simp [step, hstar, hslash], .inl rfl⟩
    obtain ⟨next, hnext, hmode⟩ := hstep
    -- What follows a star is no slash: the two would be a closing mark.
    have hrest : next = .comment ∨ next = .star ∧ rest.head? ≠ some '/' := by
      rcases hmode with hmode | ⟨hmode, rfl⟩
      · exact .inl hmode
      · refine .inr ⟨hmode, ?_⟩
        intro hhead
        obtain ⟨others, rfl⟩ := List.head?_eq_some_iff.1 hhead
        exact hmark others rfl rfl
    obtain ⟨last, hlast, hmode⟩ := ih hrest
    exact ⟨last, by rw [run_cons, hnext, Option.bind_some, hlast], hmode⟩
  | case3 =>
    refine ⟨mode, rfl, ?_⟩
    rcases h with h | ⟨h, -⟩
    · exact .inl h
    · exact .inr h

/-- A comment passes, whatever its text. -/
theorem passes_comment (text : List Char) :
    Passes ("/** " ++ String.ofList (commentText text) ++ " */") := by
  intro opened
  obtain ⟨last, hlast, hmode⟩ := Scanner.run_commentText opened text (.inl rfl)
  have hopen : Scanner.run ⟨.code, opened⟩ "/** ".toList = some ⟨.comment, opened⟩ := rfl
  have hclose : Scanner.run ⟨last, opened⟩ " */".toList = some ⟨.code, opened⟩ := by
    rcases hmode with rfl | rfl <;> rfl
  simp only [String.toList_append, String.toList_ofList, Scanner.run_append, hopen, hlast, hclose,
    Option.bind_some]

/-! ## Methods -/

/-- The schemas that a route supplies. -/
def RouteSlots.schemas (slots : RouteSlots) : List Schema :=
  slots.query.toList ++ slots.body.toList ++ slots.params.toList ++ slots.response.toList

variable {P : String → Prop}

/-- A property of all type texts of a slot holds of the text printed for it. -/
theorem slotText_of_schema {slot : Option Schema} {type : Option String}
    (h : ∀ schema ∈ slot.toList, ∀ {text}, schema.typeText = .ok text → P text)
    (htype : slotText? slot = .ok type) : ∀ text ∈ type, P text := by
  intro text htext
  cases slot with
  | none =>
    obtain rfl := Except.ok.inj htype
    cases htext
  | some schema =>
    obtain ⟨written, hwritten, rfl⟩ := Outcome.map_eq_ok.1 htype
    obtain rfl : written = text := Option.some.inj htext
    exact h schema (by simp) hwritten

/-- A label in front of a type keeps a property that is compositional. -/
theorem labelled_of_type (hP : Compositional P) {label : String} (hlabel : P label)
    {type : Option String} (h : ∀ text ∈ type, P text) :
    ∀ part ∈ (type.map (label ++ ·)).toList, P part := by
  intro part hpart
  obtain ⟨text, htext, rfl⟩ := Option.map_eq_some_iff.1 (Option.mem_toList.1 hpart)
  exact hP.append hlabel (h text htext)

namespace Route

/-- The parameters have every compositional property that their types have. -/
theorem parameters_of_types (hP : Compositional P) (streaming : Bool) {body query : Option String}
    {result : String} (hbody : ∀ text ∈ body, P text) (hquery : ∀ text ∈ query, P text)
    (hresult : P result) : ∀ part ∈ parameters streaming body query result, P part := by
  unfold parameters
  rw [List.forall_mem_append]
  refine ⟨labelled_of_type hP (hP.plain (by decide)) hbody, ?_⟩
  cases streaming with
  | true =>
    have hopening : P "callbacks: SSECallbacks<" := hP.plain (by decide)
    have hclosing : P ">" := hP.plain (by decide)
    have hoptions : P "options?: SSESubscribeOptions" := hP.plain (by decide)
    rw [if_pos rfl, List.forall_mem_append, List.forall_mem_cons, List.forall_mem_singleton]
    exact ⟨labelled_of_type hP (hP.plain (by decide)) hquery,
      hP.append (hP.append hopening hresult) hclosing, hoptions⟩
  | false =>
    have hconfig : P "config?: RequestConfig" := hP.plain (by decide)
    rw [if_neg (by decide), List.forall_mem_append, List.forall_mem_singleton]
    exact ⟨labelled_of_type hP (hP.plain (by decide)) hquery, hconfig⟩

/-- What a call gives has every compositional property that its result has. -/
theorem callResult_of_result (hP : Compositional P) (streaming : Bool) {result : String}
    (hresult : P result) : P (callResult streaming result) := by
  cases streaming with
  | true =>
    have hopening : P "SSESubscription<" := hP.plain (by decide)
    have hclosing : P ">" := hP.plain (by decide)
    exact hP.append (hP.append hopening hresult) hclosing
  | false =>
    have hopening : P "Promise<ApiResponse<" := hP.plain (by decide)
    have hclosing : P ">>" := hP.plain (by decide)
    exact hP.append (hP.append hopening hresult) hclosing

/-- The result type has every compositional property that the response types have, and that `any`
has. -/
theorem resultText_of_schema (hP : Compositional P) {r : Route} {result : String}
    (h : ∀ schema ∈ r.slots.response.toList, ∀ {text}, schema.typeText = .ok text → P text)
    (hresult : r.resultText = .ok result) : P result := by
  obtain ⟨type, htype, rfl⟩ := Outcome.map_eq_ok.1 hresult
  cases type with
  | none => exact hP.plain (by decide)
  | some text => exact slotText_of_schema h htype text rfl

/-- A signature has a compositional property that the types of its route have. -/
theorem signature_of_schemas (hP : Compositional P) {r : Route} {signature : String}
    (h : ∀ schema ∈ r.slots.schemas, ∀ {text}, schema.typeText = .ok text → P text)
    (hsignature : r.signature = .ok signature) : P signature := by
  simp only [RouteSlots.schemas, List.forall_mem_append] at h
  obtain ⟨⟨⟨hquery, hbody⟩, -⟩, hresponse⟩ := h
  obtain ⟨result, body, query, hresult, hbodyText, hqueryText, rfl⟩ :=
    signature_eq_ok_iff.1 hsignature
  have hresult := resultText_of_schema hP hresponse hresult
  have hcomma : P ", " := hP.plain (by decide)
  have harrow : P " => " := hP.plain (by decide)
  have hparameters := hP.intercalate hcomma (parameters_of_types hP r.streaming
    (slotText_of_schema hbody hbodyText) (slotText_of_schema hquery hqueryText) hresult)
  have hbracketed : P ("(" ++ ", ".intercalate (parameters r.streaming body query result) ++ ")") :=
    hP.enclosed .round [] [] rfl rfl (List.forall_mem_nil _) (List.forall_mem_nil _) hparameters
  have hcall := callResult_of_result hP r.streaming hresult
  have hsplit : ") => " = ")" ++ " => " := rfl
  rw [hsplit, ← String.append_assoc]
  exact hP.append (hP.append hbracketed harrow) hcall

/-- The fields of a descriptor have a compositional property that the types of its route have. -/
theorem descriptorFields_of_schemas (hP : Compositional P) {r : Route} {fields : List String}
    (h : ∀ schema ∈ r.slots.schemas, ∀ {text}, schema.typeText = .ok text → P text)
    (hfields : r.descriptorFields = .ok fields) : ∀ field ∈ fields, P field := by
  simp only [RouteSlots.schemas, List.forall_mem_append] at h
  obtain ⟨⟨⟨hquery, hbody⟩, hparams⟩, hresponse⟩ := h
  obtain ⟨query, body, params, result, hqueryText, hbodyText, hparamsText, hresult, rfl⟩ :=
    descriptorFields_eq_ok_iff.1 hfields
  have hslot {label : String} (hlabel : P label) {slot : Option Schema} {type : Option String}
      (h : ∀ schema ∈ slot.toList, ∀ {text}, schema.typeText = .ok text → P text)
      (htype : slotText? slot = .ok type) := labelled_of_type hP hlabel (slotText_of_schema h htype)
  have hreturn : P ("return: " ++ result) :=
    hP.append (hP.plain (by decide)) (resultText_of_schema hP hresponse hresult)
  simp only [List.forall_mem_append, List.forall_mem_singleton]
  exact ⟨⟨⟨hslot (hP.plain (by decide)) hquery hqueryText,
    hslot (hP.plain (by decide)) hbody hbodyText⟩,
    hslot (hP.plain (by decide)) hparams hparamsText⟩, hreturn⟩

end Route
end TypedRoutes
