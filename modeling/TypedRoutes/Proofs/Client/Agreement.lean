import Mathlib.Data.List.Forall2
import TypedRoutes.Proofs.Client.Method
import TypedRoutes.Proofs.Client.Skeleton

/-!
# The contract type and the interface agree

Both declarations have the same lines in the same order, one for each entry of `forestBody`, and
differ only in what a method line says after its key (`BodyLine.WrittenAs`). There a descriptor and
a signature stand, which say the same about the route as far as both speak of it (`Route.Agree`):
the types of the body and of the query, and the type of the result.

A route is read from its two texts (`Route.exists_readings`), the lines of a forest follow one by
one (`exists_written_forestBody`), and so the two declarations agree
(`RouteForest.contractType_agrees_clientType`).
-/

set_option autoImplicit false

namespace TypedRoutes

open Text (IsPiece isPiece_of_typeChars typeSeparators)

/-! ## What methods say -/

namespace Annotation

/-- Is the name given the type? -/
def Declares (name type : String) (annotations : List Annotation) : Prop :=
  ∃ a ∈ annotations, a.name = name ∧ a.type = type

variable {name type : String} {as bs : List Annotation}

@[simp] theorem declares_nil : ¬ Declares name type [] := by
  rintro ⟨a, ha, -⟩
  cases ha

@[simp] theorem declares_cons {a : Annotation} :
    Declares name type (a :: as) ↔ (a.name = name ∧ a.type = type) ∨ Declares name type as := by
  simp [Declares]

@[simp] theorem declares_append :
    Declares name type (as ++ bs) ↔ Declares name type as ∨ Declares name type bs := by
  simp [Declares, or_and_right, exists_or]

/-- A slot of a route declares its one name, and only when it is filled. -/
@[simp] theorem declares_ofType? {other : String} {isOptional : Bool} {slot : Option String} :
    Declares name type (ofType? other isOptional slot) ↔ other = name ∧ slot = some type := by
  cases slot <;> simp [ofType?]

/-- Written out, a slot of a route is its label followed by the type, or nothing. -/
theorem map_text_ofType? (name : String) (isOptional : Bool) (slot : Option String) :
    (ofType? name isOptional slot).map text =
      (slot.map (name ++ (if isOptional then "?" else "") ++ ": " ++ ·)).toList := by
  cases slot <;> rfl

end Annotation

open Annotation (Declares ofType? isNamed_mk isNamed_ofType?)

namespace Route

/-- What a call of the route gives back, and what a streaming one gives to its callbacks: responses
with a result of the type, or a subscription to such results. -/
def Gives (r : Route) (type : String) (parameters : List Annotation) (call : String) : Prop :=
  if r.streaming then
    Declares "callbacks" ("SSECallbacks<" ++ type ++ ">") parameters ∧
      call = "SSESubscription<" ++ type ++ ">"
  else call = "Promise<ApiResponse<" ++ type ++ ">>"

/-- A descriptor with these fields and a signature with these parameters and this result agree on
the route. -/
structure Agree (r : Route) (fields parameters : List Annotation) (call : String) : Prop where
  body : ∀ type, Declares "body" type fields ↔ Declares "body" type parameters
  body_slot : ∀ type, Declares "body" type fields ↔ slotText? r.slots.body = .ok (some type)
  query : ∀ type, Declares "query" type fields ↔ Declares "query" type parameters
  query_slot : ∀ type, Declares "query" type fields ↔ slotText? r.slots.query = .ok (some type)
  result : ∃ type, (∀ other, Declares "return" other fields ↔ other = type) ∧
    r.Gives type parameters call
  params : ∀ type, ¬ Declares "params" type parameters
  fields_nodup : (fields.map Annotation.name).Nodup
  parameters_nodup : (parameters.map Annotation.name).Nodup

/-- The two texts of a route can be read, and what they say agrees. -/
def ReadingsAgree (r : Route) (descriptor signature : String) : Prop :=
  ∃ fields parameters call, Descriptor.read? descriptor = some fields ∧
    Signature.read? signature = some (parameters, call) ∧ r.Agree fields parameters call

/-! ## What methods are written from -/

/-- The types that a call of the route takes and gives, as they are written. -/
structure HasTypes (r : Route) (query body : Option String) (result : String) : Prop where
  query : slotText? r.slots.query = .ok query
  body : slotText? r.slots.body = .ok body
  result : r.resultText = .ok result

/-- The fields of a descriptor with these types. -/
def fields (query body params : Option String) (result : String) : List Annotation :=
  ofType? "query" false query ++ ofType? "body" false body ++ ofType? "params" false params ++
    [⟨"return", false, result⟩]

/-- The parameters of a signature with these types. -/
def typedParameters (streaming : Bool) (query body : Option String) (result : String) :
    List Annotation :=
  ofType? "body" false body ++
    if streaming then
      ofType? "query" false query ++
        [⟨"callbacks", false, "SSECallbacks<" ++ result ++ ">"⟩,
          ⟨"options", true, "SSESubscribeOptions"⟩]
    else ofType? "query" true query ++ [⟨"config", true, "RequestConfig"⟩]

variable {r : Route} {query body params : Option String} {result : String}

/-- A descriptor that can be written is laid out from the types of the route, one field for each
slot that is filled. -/
theorem exists_hasTypes_of_descriptor {level : Int} {descriptor : String}
    (h : r.descriptor level = .ok descriptor) :
    ∃ query body params result, r.HasTypes query body result ∧
      slotText? r.slots.params = .ok params ∧
      descriptor = layOutFields level ((fields query body params result).map Annotation.text) := by
  obtain ⟨parts, hparts, rfl⟩ := Outcome.map_eq_ok.1 h
  obtain ⟨query, body, params, result, hquery, hbody, hparams, hresult, rfl⟩ :=
    descriptorFields_eq_ok_iff.1 hparts
  refine ⟨query, body, params, result, ⟨hquery, hbody, hresult⟩, hparams, ?_⟩
  rw [fields, List.map_append, List.map_append, List.map_append, Annotation.map_text_ofType?,
    Annotation.map_text_ofType?, Annotation.map_text_ofType?]
  rfl

/-- The parameters of a signature are annotations with the same types as the fields of a
descriptor. -/
theorem parameters_eq (streaming : Bool) (query body : Option String) (result : String) :
    parameters streaming body query result =
      (typedParameters streaming query body result).map Annotation.text := by
  rw [typedParameters, List.map_append, Annotation.map_text_ofType?, parameters]
  cases streaming with
  | true =>
    rw [if_pos rfl, if_pos rfl, List.map_append, Annotation.map_text_ofType?]
    rfl
  | false =>
    simp only [Bool.false_eq_true, if_false, List.map_append, Annotation.map_text_ofType?]
    rfl

/-- A signature can be written only when body, query and result have a type text. -/
theorem exists_hasTypes_of_signature {signature : String} (h : r.signature = .ok signature) :
    ∃ query body result, r.HasTypes query body result := by
  obtain ⟨result, body, query, hresult, hbody, hquery, -⟩ := signature_eq_ok_iff.1 h
  exact ⟨query, body, result, hquery, hbody, hresult⟩

/-- The signature of a route with given types: its parameters in parentheses, then what the call
gives. -/
theorem HasTypes.signature_eq (h : r.HasTypes query body result) :
    r.signature = .ok ("(" ++ ", ".intercalate ((typedParameters r.streaming query body result).map
      Annotation.text) ++ ") => " ++ callResult r.streaming result) := by
  rw [← parameters_eq]
  exact signature_eq_ok_iff.2 ⟨result, body, query, h.result, h.body, h.query, rfl⟩

/-! ## Types in methods are pieces -/

section

variable {separator : Char} (hseparator : separator ∈ typeSeparators)

include hseparator

/-- The type text of a slot is one piece for every separator of the text around it. -/
theorem isPiece_slotText {slot : Option Schema} {type : Option String}
    (h : slotText? slot = .ok type) : ∀ text ∈ type, IsPiece separator text :=
  slotText_of_schema (fun schema _ _ htext => schema.isPiece_typeText hseparator htext) h

theorem isPiece_resultText (h : r.resultText = .ok result) : IsPiece separator result := by
  obtain ⟨type, htype, rfl⟩ := Outcome.map_eq_ok.1 h
  cases type with
  | none => exact isPiece_of_typeChars hseparator (by decide)
  | some text => exact isPiece_slotText hseparator htype text rfl

theorem isPiece_callResult (streaming : Bool) (h : IsPiece separator result) :
    IsPiece separator (callResult streaming result) := by
  cases streaming with
  | true => exact h.generic hseparator "SSESubscription" "" rfl (by decide) (by decide)
  | false =>
    have hresponse : IsPiece separator ("ApiResponse<" ++ result ++ ">") :=
      h.generic hseparator "ApiResponse" "" rfl (by decide) (by decide)
    have hsplit : callResult false result =
        "Promise<" ++ ("ApiResponse<" ++ result ++ ">") ++ ">" := by
      apply String.toList_injective
      simp [callResult]
    rw [hsplit]
    exact hresponse.generic hseparator "Promise" "" rfl (by decide) (by decide)

omit hseparator in
theorem isPiece_type_ofType? {name : String} {isOptional : Bool} {type : Option String}
    (h : ∀ text ∈ type, IsPiece separator text) :
    ∀ a ∈ ofType? name isOptional type, IsPiece separator a.type := by
  intro a ha
  obtain ⟨text, htext, rfl⟩ := Option.map_eq_some_iff.1 (Option.mem_toList.1 ha)
  exact h text htext

/-- No type in the fields of a descriptor holds the line break that ends a field. -/
theorem HasTypes.isPiece_fields (h : r.HasTypes query body result)
    (hparams : slotText? r.slots.params = .ok params) :
    ∀ a ∈ fields query body params result, IsPiece separator a.type := by
  simp only [fields, List.forall_mem_append, List.forall_mem_singleton]
  exact ⟨⟨⟨isPiece_type_ofType? (isPiece_slotText hseparator h.query),
    isPiece_type_ofType? (isPiece_slotText hseparator h.body)⟩,
    isPiece_type_ofType? (isPiece_slotText hseparator hparams)⟩,
    isPiece_resultText hseparator h.result⟩

/-- No type in the parameters of a signature holds the comma that ends a parameter. -/
theorem HasTypes.isPiece_typedParameters (h : r.HasTypes query body result)
    (streaming : Bool) :
    ∀ a ∈ typedParameters streaming query body result, IsPiece separator a.type := by
  have hquery {isOptional : Bool} : ∀ a ∈ ofType? "query" isOptional query,
      IsPiece separator a.type := isPiece_type_ofType? (isPiece_slotText hseparator h.query)
  unfold typedParameters
  rw [List.forall_mem_append]
  refine ⟨isPiece_type_ofType? (isPiece_slotText hseparator h.body), ?_⟩
  cases streaming with
  | true =>
    rw [if_pos rfl, List.forall_mem_append, List.forall_mem_cons, List.forall_mem_singleton]
    exact ⟨hquery, (isPiece_resultText hseparator h.result).generic hseparator "SSECallbacks" "" rfl
      (by decide) (by decide), isPiece_of_typeChars hseparator (by decide)⟩
  | false =>
    rw [if_neg (by decide), List.forall_mem_append, List.forall_mem_singleton]
    exact ⟨hquery, isPiece_of_typeChars hseparator (by decide)⟩

end

/-! ## Reading a route -/

/-- The labels of a descriptor consist of letters, so no label holds a colon or a blank. -/
theorem isNamed_fields (query body params : Option String) (result : String) :
    ∀ a ∈ fields query body params result, a.IsNamed := by
  simp only [fields, List.forall_mem_append, List.forall_mem_singleton]
  exact ⟨⟨⟨isNamed_ofType? (by decide), isNamed_ofType? (by decide)⟩, isNamed_ofType? (by decide)⟩,
    isNamed_mk (by decide) _ _⟩

theorem isNamed_typedParameters (streaming : Bool) (query body : Option String) (result : String) :
    ∀ a ∈ typedParameters streaming query body result, a.IsNamed := by
  unfold typedParameters
  rw [List.forall_mem_append]
  refine ⟨isNamed_ofType? (by decide), ?_⟩
  cases streaming with
  | true =>
    rw [if_pos rfl, List.forall_mem_append, List.forall_mem_cons, List.forall_mem_singleton]
    exact ⟨isNamed_ofType? (by decide), isNamed_mk (by decide) _ _, isNamed_mk (by decide) _ _⟩
  | false =>
    rw [if_neg (by decide), List.forall_mem_append, List.forall_mem_singleton]
    exact ⟨isNamed_ofType? (by decide), isNamed_mk (by decide) _ _⟩

/-- The fields and the parameters with the same types agree. -/
theorem HasTypes.agree (h : r.HasTypes query body result) (params : Option String) :
    r.Agree (fields query body params result) (typedParameters r.streaming query body result)
      (callResult r.streaming result) := by
  obtain ⟨streaming, hstreaming⟩ : ∃ streaming, r.streaming = streaming := ⟨_, rfl⟩
  -- The two lists have the slots in another order and with other marks: only the names and the
  -- types count, so membership decides.
  constructor
  · intro type
    cases streaming <;> simp [fields, typedParameters, hstreaming]
  · intro type
    simp [fields, h.body]
  · intro type
    cases streaming <;> simp [fields, typedParameters, hstreaming]
  · intro type
    simp [fields, h.query]
  · refine ⟨result, ?_, ?_⟩
    · intro other
      simp [fields, eq_comm]
    · cases streaming <;> simp [Gives, typedParameters, callResult, hstreaming]
  · intro type
    cases streaming <;> simp [typedParameters, hstreaming]
  · cases query <;> cases body <;> cases params <;> simp [fields, ofType?]
  · cases streaming <;> cases query <;> cases body <;> simp [typedParameters, ofType?, hstreaming]

/-- A route with types has a signature, and its parameters are read back from the text. -/
theorem HasTypes.exists_signature (h : r.HasTypes query body result) :
    ∃ signature, r.signature = .ok signature ∧ Signature.read? signature =
      some (typedParameters r.streaming query body result, callResult r.streaming result) := by
  have hparameters : typedParameters r.streaming query body result ≠ [] := by
    cases hstreaming : r.streaming <;> simp [typedParameters]
  have hpieces : ∀ separator ∈ typeSeparators, ∀ a ∈ typedParameters r.streaming query body result,
      IsPiece separator a.type :=
    fun separator hseparator => h.isPiece_typedParameters hseparator r.streaming
  have hcall : IsPiece ')' (callResult r.streaming result) :=
    isPiece_callResult (by decide) r.streaming (isPiece_resultText (by decide) h.result)
  exact ⟨_, h.signature_eq, Signature.read?_ofParameters hparameters
    (isNamed_typedParameters _ _ _ _) hpieces hcall⟩

/-- A route with a descriptor has a signature, and both are read as what they were written from. -/
theorem exists_readings {level : Int} {descriptor : String}
    (h : r.descriptor level = .ok descriptor) :
    ∃ signature, r.signature = .ok signature ∧ r.ReadingsAgree descriptor signature := by
  obtain ⟨query, body, params, result, htypes, hparams, rfl⟩ := exists_hasTypes_of_descriptor h
  obtain ⟨signature, hsignature, hread⟩ := htypes.exists_signature
  have hfields : fields query body params result ≠ [] := by simp [fields]
  exact ⟨signature, hsignature, _, _, _, Descriptor.read?_layOutFields hfields
    (isNamed_fields _ _ _ _) (htypes.isPiece_fields (by decide) hparams) level, hread,
    htypes.agree params⟩

end Route

/-! ## The lines of both bodies -/

/-- What a line of a body says, with the padding before it. -/
inductive BodyLine where
  | opening (pad key : String)
  | comment (pad text : String)
  | method (pad key : String) (route : Route)
  | closing (pad : String)

/-- The line as it stands in the contract type and in the interface: the same in both, but for what
a method line says after its key. -/
def BodyLine.WrittenAs : BodyLine → String × String → Prop
  | .opening pad key, (contract, client) =>
    contract = pad ++ PropertyKey.text key ++ ": \x7b" ∧ client = contract
  | .comment pad text, (contract, client) =>
    contract = pad ++ "/** " ++ text ++ " */" ∧ client = contract
  | .method pad key route, (contract, client) =>
    ∃ descriptor signature, contract = pad ++ PropertyKey.text key ++ ": " ++ descriptor ∧
      client = pad ++ PropertyKey.text key ++ ": " ++ signature ∧
      route.ReadingsAgree descriptor signature
  | .closing pad, (contract, client) => contract = pad ++ "\x7d" ∧ client = contract

/-- The lines of the routes at one place. -/
def methodBody (level : Int) : List (String × Route) → List BodyLine
  | [] => []
  | (key, route) :: rest =>
    let pad := padding level ++ "  "
    route.comment?.toList.map (.comment pad) ++ [.method pad key route] ++ methodBody level rest

mutual

/-- The lines between the braces of a tree whose block stands at a level. -/
def RouteTree.body (level : Int) : RouteTree → List BodyLine
  | .node _ methods children => methodBody level methods ++ forestBody (level + 1) children

/-- The lines of a forest whose blocks stand at a level. -/
def forestBody (level : Int) : List (String × RouteTree) → List BodyLine
  | [] => []
  | (key, tree) :: rest =>
    [.opening (padding level) key] ++ tree.body level ++ [.closing (padding level)] ++
      forestBody level rest

end

/-- A comment is the same line in both bodies. -/
theorem exists_written_comment (r : Route) (pad : String) :
    ∃ written, r.commentLines pad = written.map Prod.fst ∧
      r.commentLines pad = written.map Prod.snd ∧
      List.Forall₂ BodyLine.WrittenAs (r.comment?.toList.map (.comment pad)) written := by
  rw [Route.commentLines_eq_map]
  cases r.comment? with
  | none => exact ⟨[], rfl, rfl, .nil⟩
  | some text =>
    let line := pad ++ "/** " ++ text ++ " */"
    exact ⟨[(line, line)], rfl, rfl, .cons ⟨rfl, rfl⟩ .nil⟩

/-- The methods of a node, line by line: the contract and the client print the same lines, up to the
entries that a descriptor and a signature stand in. -/
theorem exists_written_methodBody {level : Int} {methods : List (String × Route)}
    {contract : List String} (h : methodLines Route.descriptor level methods = .ok contract) :
    ∃ written, contract = written.map Prod.fst ∧
      methodLines (fun route _ => route.signature) level methods = .ok (written.map Prod.snd) ∧
      List.Forall₂ BodyLine.WrittenAs (methodBody level methods) written := by
  induction methods generalizing contract with
  | nil =>
    obtain rfl := Except.ok.inj h
    exact ⟨[], rfl, rfl, .nil⟩
  | cons entry rest ih =>
    obtain ⟨key, route⟩ := entry
    obtain ⟨descriptor, others, hdescriptor, hothers, rfl⟩ := methodLines_cons_eq_ok_iff.1 h
    obtain ⟨signature, hsignature, hreadings⟩ := Route.exists_readings hdescriptor
    obtain ⟨comment, hfst, hsnd, hcomment⟩ := exists_written_comment route (padding level ++ "  ")
    obtain ⟨below, rfl, hbelow, hrest⟩ := ih hothers
    -- The comment, the method, and the lines of the routes after it, in both bodies.
    let pad := padding level ++ "  "
    let line := (pad ++ PropertyKey.text key ++ ": " ++ descriptor,
      pad ++ PropertyKey.text key ++ ": " ++ signature)
    have hline : BodyLine.WrittenAs (.method pad key route) line :=
      ⟨descriptor, signature, rfl, rfl, hreadings⟩
    refine ⟨comment ++ [line] ++ below, ?_, ?_, ?_⟩
    · rw [hfst, List.map_append, List.map_append]
      rfl
    · rw [methodLines, hsignature, hbelow, List.map_append, List.map_append, ← hsnd]
      rfl
    · exact List.rel_append (List.rel_append hcomment (.cons hline .nil)) hrest

mutual

/-- The body of a node, line by line, by induction on the tree: methods first, then the children one
level deeper. -/
theorem RouteTree.exists_written_body (level : Int) : ∀ (tree : RouteTree) {contract : List String},
    tree.innerLines Route.descriptor level = .ok contract →
      ∃ written, contract = written.map Prod.fst ∧
        tree.innerLines (fun route _ => route.signature) level = .ok (written.map Prod.snd) ∧
        List.Forall₂ BodyLine.WrittenAs (tree.body level) written
  | .node _ methods children, contract, h => by
    obtain ⟨own, below, hown, hbelow, rfl⟩ := RouteTree.innerLines_eq_ok_iff.1 h
    obtain ⟨ownWritten, rfl, hsignatures, hownLines⟩ := exists_written_methodBody hown
    obtain ⟨belowWritten, rfl, hbelowSignatures, hbelowLines⟩ :=
      exists_written_forestBody (level + 1) children hbelow
    refine ⟨ownWritten ++ belowWritten, List.map_append.symm, ?_, ?_⟩
    · rw [RouteTree.innerLines, hsignatures, hbelowSignatures, List.map_append]
      rfl
    · exact List.rel_append hownLines hbelowLines

/-- The lines of a forest stand in both bodies one by one. -/
theorem exists_written_forestBody (level : Int) : ∀ (forest : List (String × RouteTree))
    {contract : List String}, forestLines Route.descriptor level forest = .ok contract →
      ∃ written, contract = written.map Prod.fst ∧
        forestLines (fun route _ => route.signature) level forest = .ok (written.map Prod.snd) ∧
        List.Forall₂ BodyLine.WrittenAs (forestBody level forest) written
  | [], contract, h => by
    obtain rfl := Except.ok.inj h
    exact ⟨[], rfl, rfl, .nil⟩
  | (key, tree) :: rest, contract, h => by
    obtain ⟨inner, others, hinner, hothers, rfl⟩ := forestLines_cons_eq_ok_iff.1 h
    obtain ⟨innerWritten, rfl, hinnerSignatures, hinnerLines⟩ :=
      tree.exists_written_body level hinner
    obtain ⟨restWritten, rfl, hrestSignatures, hrestLines⟩ :=
      exists_written_forestBody level rest hothers
    -- The lines of a block are the same in both bodies.
    let opening := padding level ++ PropertyKey.text key ++ ": \x7b"
    let closing := padding level ++ "\x7d"
    have hopening : BodyLine.WrittenAs (.opening (padding level) key) (opening, opening) :=
      ⟨rfl, rfl⟩
    have hclosing : BodyLine.WrittenAs (.closing (padding level)) (closing, closing) := ⟨rfl, rfl⟩
    refine ⟨[(opening, opening)] ++ innerWritten ++ [(closing, closing)] ++ restWritten, ?_, ?_, ?_⟩
    · simp only [List.map_append]
      rfl
    · rw [forestLines, hinnerSignatures, hrestSignatures]
      simp only [List.map_append]
      rfl
    · exact List.rel_append (List.rel_append (List.rel_append (.cons hopening .nil) hinnerLines)
        (.cons hclosing .nil)) hrestLines

end

namespace RouteForest

/-- The contract type and the interface of a forest list the same lines in the same order, and
differ only in what follows the key of a method. There the descriptor and the signature can be read,
and what they say about the route agrees. -/
theorem contractType_agrees_clientType {forest : RouteForest} {level : Int} {contract : String}
    (h : forest.contractType level = .ok contract) :
    ∃ written : List (String × String), contract = lines (written.map Prod.fst) ∧
      forest.clientType level = .ok (lines (written.map Prod.snd)) ∧
      List.Forall₂ BodyLine.WrittenAs (forestBody level forest) written := by
  obtain ⟨parts, hparts, rfl⟩ := Outcome.map_eq_ok.1 h
  obtain ⟨written, rfl, hsignatures, hlines⟩ := exists_written_forestBody level forest hparts
  exact ⟨written, rfl, Outcome.map_eq_ok.2 ⟨_, hsignatures, rfl⟩, hlines⟩

/-- A place with a route and a stream: a body with text that looks like a parameter, a query, and
the parameter of the path. -/
def stockForest : RouteForest :=
  let shop : Schema := .fields [("a, b) => c", .primitive .string)] []
  [("stock", .node false
    [("put", ⟨"PUT", "/stock/:shop", none, some "Sets */ it", false,
        ⟨some shop, none, some (.primitive .string), some (.array (some (.primitive .number)))⟩⟩),
      ("sse", ⟨"GET", "/stock/:shop", none, none, true,
        ⟨none, some (.record (.primitive .number)), none, none⟩⟩)] [])]

/-- The body of its contract type. -/
def stockContract : String :=
  lines ["  stock: \x7b",
    "    /** Sets *\\/ it */",
    "    put: \x7b",
    "      body: \x7b 'a, b) => c'?: string \x7d",
    "      params: string",
    "      return: number[]",
    "    \x7d",
    "    sse: \x7b",
    "      query: Record<string, number>",
    "      return: any",
    "    \x7d",
    "  \x7d"]

theorem contractType_agrees_clientType_stockForest :
    stockForest.contractType 1 = .ok stockContract ∧
      ∃ written : List (String × String), stockContract = lines (written.map Prod.fst) ∧
        stockForest.clientType 1 = .ok (lines (written.map Prod.snd)) ∧
        List.Forall₂ BodyLine.WrittenAs (forestBody 1 stockForest) written := by
  have hcontract : stockForest.contractType 1 = .ok stockContract := by decide +kernel
  exact ⟨hcontract, contractType_agrees_clientType hcontract⟩

end RouteForest
end TypedRoutes
