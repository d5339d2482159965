import TypedRoutes.Proofs.Client.Agreement
import TypedRoutes.Proofs.Client.Closed
import TypedRoutes.Proofs.Client.Header

/-!
# The names of streaming routes

A signature of a streaming route gives a subscription, so its module has to import the type of
subscriptions and to declare what a signature asks for. Whether it does is read from the module
itself: what follows the header is cut into statements at the line feeds outside strings, comments
and brackets, and a statement says which names it imports (`importedNames`) and which interface it
declares (`interfaceName?`).

The statements are found part by part (`Names.append`): the fixed parts are read as they stand, and
a declaration is one statement whatever its body is, since the body passes the scanner
(`names_declaration`). Then the names are there exactly if some route of the contract streams, and
every route in the forest is one of them (`ofContract_declares_streamNames`).
-/

set_option autoImplicit false

namespace TypedRoutes

open Text (Passes Scanner splitOutside)
open Text.Splitter (IsInert Keeps Splits)

/-! ## Streaming signatures -/

/-- The signature gives a subscription. -/
def Signature.IsStreaming (signature : String) : Prop :=
  ∃ parameters type, Signature.read? signature =
    some (parameters, "SSESubscription<" ++ type ++ ">")

/-- The signature of a route begins with the callbacks exactly when the route streams. -/
theorem Route.isStreaming_signature_iff {r : Route} {signature : String}
    (h : r.signature = .ok signature) :
    Signature.IsStreaming signature ↔ r.streaming = true := by
  obtain ⟨query, body, result, htypes⟩ := exists_hasTypes_of_signature h
  obtain ⟨other, hother, hread⟩ := htypes.exists_signature
  obtain rfl := Except.ok.inj (h.symm.trans hother)
  constructor
  · rintro ⟨parameters, type, hstream⟩
    rw [hread] at hstream
    have hcall := (Prod.mk.inj (Option.some.inj hstream)).2
    cases hstreaming : r.streaming with
    | true => rfl
    | false =>
      -- A promise begins with another letter than a subscription.
      rw [hstreaming] at hcall
      have hhead := congrArg (fun text => text.toList.head?) hcall
      simp [callResult] at hhead
  · intro hstreaming
    rw [hstreaming] at hread
    exact ⟨_, result, hread⟩

namespace Artifact

/-! ## Statements -/

/-- What follows the first of the words that the statement begins with. -/
def afterWord? (words : List String) (statement : List Char) : Option (List Char) :=
  (words.find? fun word => word.toList.isPrefixOf statement).map fun word =>
    statement.drop word.toList.length

/-- How statements that import begin. -/
def importWords : List String := ["import type \x7b", "import \x7b"]

/-- How statements that declare an interface begin. -/
def interfaceWords : List String := ["interface ", "export interface "]

/-- The names that a statement imports. -/
def importedNames (statement : List Char) : List String :=
  match afterWord? importWords statement with
  | none => []
  | some rest =>
    (Text.splitAt ',' (rest.takeWhile (· ≠ '\x7d'))).map fun name =>
      String.ofList (name.filter (· ≠ ' '))

/-- The name of the interface that a statement declares. -/
def interfaceName? (statement : List Char) : Option String :=
  (afterWord? interfaceWords statement).map fun rest =>
    String.ofList (rest.takeWhile PropertyKey.isNameChar)

/-- What a statement begins with is found in its first characters. -/
theorem afterWord?_append {words : List String} {before : List Char}
    (h : ∀ word ∈ words, word.toList.length ≤ before.length) (rest : List Char) :
    afterWord? words (before ++ rest) = (afterWord? words before).map (· ++ rest) := by
  induction words with
  | nil => rfl
  | cons word others ih =>
    obtain ⟨hword, hothers⟩ := List.forall_mem_cons.1 h
    have hprefix : word.toList.isPrefixOf (before ++ rest) = word.toList.isPrefixOf before := by
      rw [Bool.eq_iff_iff, List.isPrefixOf_iff_prefix, List.isPrefixOf_iff_prefix]
      exact ⟨fun hp => List.prefix_of_prefix_length_le hp (List.prefix_append before rest) hword,
        fun hp => hp.trans (List.prefix_append before rest)⟩
    simp only [afterWord?] at ih
    rw [afterWord?, afterWord?, List.find?_cons, List.find?_cons, hprefix]
    cases hfound : word.toList.isPrefixOf before with
    | true => simp [List.drop_append_of_le_length hword]
    | false => exact ih hothers

/-- Some statement of the text imports the name. -/
def Imports (text name : String) : Prop :=
  ∃ statements, splitOutside '\n' text.toList = some statements ∧
    name ∈ statements.flatMap importedNames

/-- Some statement of the text declares an interface of the name. -/
def DeclaresInterface (text name : String) : Prop :=
  ∃ statements, splitOutside '\n' text.toList = some statements ∧
    name ∈ statements.filterMap interfaceName?

/-- The text leaves nothing open, and these are the names that its statements import and the
interfaces that they declare. -/
def Names (text : String) (imported interfaces : List String) : Prop :=
  ∃ statements, Splits '\n' text.toList statements ∧
    statements.flatMap importedNames = imported ∧ statements.filterMap interfaceName? = interfaces

variable {text other name : String} {imported interfaces imported' interfaces' : List String}

/-- A text imports exactly the names that are listed for it. -/
theorem Names.imports_iff (h : Names text imported interfaces) :
    Imports text name ↔ name ∈ imported := by
  obtain ⟨statements, hsplits, rfl, -⟩ := h
  simp [Imports, hsplits.splitOutside_eq]

theorem Names.declaresInterface_iff (h : Names text imported interfaces) :
    DeclaresInterface text name ↔ name ∈ interfaces := by
  obtain ⟨statements, hsplits, -, rfl⟩ := h
  simp [DeclaresInterface, hsplits.splitOutside_eq]

/-- The names of two parts with a line break between them are those of the first and of the
second. -/
theorem Names.append (h : Names text imported interfaces)
    (h' : Names other imported' interfaces') :
    Names (text ++ "\n" ++ other) (imported ++ imported') (interfaces ++ interfaces') := by
  obtain ⟨statements, hsplits, rfl, rfl⟩ := h
  obtain ⟨statements', hsplits', rfl, rfl⟩ := h'
  have htext : (text ++ "\n" ++ other).toList = text.toList ++ '\n' :: other.toList := by simp
  refine ⟨statements ++ statements', ?_, List.flatMap_append, List.filterMap_append⟩
  rw [htext]
  exact hsplits.append hsplits'

/-- What a splitter has read: what is open, the imported names, and the declared interfaces. -/
def namesRead (s : Text.Splitter) : (Scanner × Nat) × List String × List String :=
  ((s.scanner, s.angles), (s.pieces ++ [s.piece]).flatMap importedNames,
    (s.pieces ++ [s.piece]).filterMap interfaceName?)

/-- A fixed text is read by going through it. -/
theorem names_of_run
    (h : (Text.Splitter.run '\n' .start text.toList).map namesRead =
      some ((.start, 0), imported, interfaces)) : Names text imported interfaces := by
  obtain ⟨⟨scanner, angles, piece, pieces⟩, hrun, hread⟩ := Option.map_eq_some_iff.1 h
  obtain ⟨hstart, hnames⟩ := Prod.mk.inj hread
  obtain ⟨rfl, rfl⟩ := Prod.mk.inj hstart
  obtain ⟨rfl, rfl⟩ := Prod.mk.inj hnames
  exact ⟨_, ⟨pieces, piece, rfl, hrun⟩, rfl, rfl⟩

/-- What the lines before the factory import and declare. With streaming these are two types and an
interface more. -/
theorem names_preamble (streaming : Bool) :
    Names (lines (imports streaming ++ callbacks streaming)) (importedTypes streaming ++ ["eden"])
      (if streaming then ["SSECallbacks"] else []) := by
  apply names_of_run
  -- A literal is written as the list of its characters, which the kernel does not have to decode.
  cases streaming with
  | true =>
    simp only [lines, imports, callbacks, importedTypes, package, if_true, List.cons_append,
      List.nil_append, String.toList_intercalate, String.toList_append, List.map_cons,
      List.map_nil]
    repeat rw [String.toList_ofList]
    decide +kernel
  | false =>
    simp only [lines, imports, callbacks, importedTypes, package, Bool.false_eq_true, if_false,
      List.cons_append, List.nil_append, List.append_nil, String.toList_intercalate,
      String.toList_append, List.map_cons, List.map_nil]
    repeat rw [String.toList_ofList]
    decide +kernel

/-- The factory imports and declares nothing. -/
theorem names_factory : Names (lines factory) [] [] := by
  apply names_of_run
  simp only [lines, factory, package, String.toList_intercalate, String.toList_append,
    List.map_cons, List.map_nil]
  repeat rw [String.toList_ofList]
  decide +kernel

/-! ## Declarations -/

/-- What stands between the braces of a declaration. -/
def blockText (body : String) : String := if body.isEmpty then "\n" else "\n" ++ body ++ "\n"

theorem passes_blockText {body : String} (h : Passes body) : Passes (blockText body) := by
  unfold blockText
  split
  · exact passes_newline
  · exact (passes_newline.append h).append passes_newline

/-- A declaration is a comment, the text before its brace, the block and the closing brace. -/
theorem lines_declaration (comment before body : String) :
    lines (declaration comment (before ++ "\x7b") body) =
      comment ++ "\n" ++ (before ++ "\x7b" ++ blockText body ++ "\x7d") ++ "\n" ++ "" := by
  apply String.toList_injective
  unfold declaration blockText
  split <;> simp [lines]

/-- A declaration is one statement below its comment, whatever its body is. -/
theorem names_declaration {comment opening body : String} (before : String)
    (hopening : opening = before ++ "\x7b") (hcomment : Names comment [] [])
    (hbefore : ∀ c ∈ before.toList, IsInert '\n' c) (hbody : Passes body)
    (hlong : ∀ word ∈ importWords, word.toList.length ≤ before.toList.length)
    (himports : afterWord? importWords before.toList = none)
    (hinterface : ∀ rest, (interfaceName? (before.toList ++ rest)).toList = interfaces) :
    Names (lines (declaration comment opening body)) [] interfaces := by
  have htext : (before ++ "\x7b" ++ blockText body ++ "\x7d").toList =
      before.toList ++ ('\x7b' :: (blockText body).toList ++ ['\x7d']) := by simp
  have hkeeps : Keeps '\n' .start (before ++ "\x7b" ++ blockText body ++ "\x7d").toList := by
    rw [htext]
    exact (Text.Splitter.keeps_of_inert hbefore).append
      (Text.Splitter.keeps_bracketed (by decide) .curly (passes_blockText hbody))
  have hblock : Names (before ++ "\x7b" ++ blockText body ++ "\x7d") [] interfaces := by
    refine ⟨_, hkeeps.splits, ?_, ?_⟩
    · rw [List.flatMap_singleton, htext, importedNames, afterWord?_append hlong, himports]
      rfl
    · rw [← hinterface ('\x7b' :: (blockText body).toList ++ ['\x7d']), ← htext]
      cases hname : interfaceName? (before ++ "\x7b" ++ blockText body ++ "\x7d").toList with
      | none => rw [List.filterMap_cons_none hname]; rfl
      | some name => rw [List.filterMap_cons_some hname]; rfl
  have hempty : Names "" [] [] := ⟨_, Text.Splitter.keeps_nil.splits, rfl, rfl⟩
  have hall := (hcomment.append hblock).append hempty
  rw [hopening, lines_declaration]
  simpa using hall

/-- The declaration of the contract type is no interface and imports nothing, whatever stands in its
block. -/
theorem names_contractType {body : String} (h : Passes body) :
    Names (lines (declaration "/** API contract type */" "export type Api = \x7b" body)) [] [] := by
  have hopening : "export type Api = \x7b" = "export type Api = " ++ "\x7b" := rfl
  have hcomment : Names "/** API contract type */" [] [] := names_of_run (by decide +kernel)
  have himports : afterWord? importWords "export type Api = ".toList = none := by decide +kernel
  have hinterfaces : afterWord? interfaceWords "export type Api = ".toList = none := by
    decide +kernel
  refine names_declaration _ hopening hcomment (by decide) h (by decide +kernel) himports ?_
  intro rest
  rw [interfaceName?, afterWord?_append (by decide +kernel), hinterfaces]
  rfl

/-- The declaration of the client type is one interface, whatever stands in its block. -/
theorem names_clientType {body : String} (h : Passes body) :
    Names (lines (declaration "/** API client type (full IDE completion) */"
      "export interface ApiClient \x7b" body)) [] ["ApiClient"] := by
  have hopening : "export interface ApiClient \x7b" = "export interface ApiClient " ++ "\x7b" := rfl
  have hcomment : Names "/** API client type (full IDE completion) */" [] [] :=
    names_of_run (by decide +kernel)
  have himports : afterWord? importWords "export interface ApiClient ".toList = none := by
    decide +kernel
  have hinterfaces : afterWord? interfaceWords "export interface ApiClient ".toList =
      some ("ApiClient".toList ++ [' ']) := by decide +kernel
  refine names_declaration _ hopening hcomment (by decide) h (by decide +kernel) himports ?_
  intro rest
  have hname : ∀ c ∈ "ApiClient".toList, PropertyKey.isNameChar c = true := by decide
  have hstops : Text.Stops PropertyKey.isNameChar ([' '] ++ rest) := Text.stops_cons.2 (by decide)
  rw [interfaceName?, afterWord?_append (by decide +kernel), hinterfaces, Option.map_some,
    Option.map_some, List.append_assoc, Text.takeWhile_append_stops hname hstops]
  rfl

/-! ## Modules -/

/-- The names that a module imports. -/
def moduleImports (streaming : Bool) : List String := importedTypes streaming ++ ["eden"]

/-- The interfaces that a module declares. -/
def moduleInterfaces (streaming : Bool) : List String :=
  (if streaming then ["SSECallbacks"] else []) ++ ["ApiClient"]

theorem lines_append {parts others : List String} (hparts : parts ≠ []) (hothers : others ≠ []) :
    lines (parts ++ others) = lines parts ++ "\n" ++ lines others :=
  String.intercalate_append_of_ne_nil hparts hothers

/-- The names in what follows the header of a module. -/
theorem names_bodyLines (streaming : Bool) {contractBody clientBody : String}
    (hcontract : Passes contractBody) (hclient : Passes clientBody) :
    Names (lines (bodyLines streaming contractBody clientBody))
      (moduleImports streaming) (moduleInterfaces streaming) := by
  have hall := (((names_preamble streaming).append (names_contractType hcontract)).append
    (names_clientType hclient)).append names_factory
  have hpreamble : imports streaming ++ callbacks streaming ≠ [] := by simp [imports]
  have hdeclaration (comment opening body : String) : declaration comment opening body ≠ [] := by
    simp [declaration]
  rw [bodyLines, lines_append (by simp [hdeclaration]) (by simp [factory]),
    lines_append (by simp [hdeclaration]) (hdeclaration _ _ _),
    lines_append hpreamble (hdeclaration _ _ _)]
  simpa [moduleImports, moduleInterfaces] using hall

/-- A module is its header and statements with these names. -/
theorem exists_names {c : Contract} {mount : Option String} {text : String}
    (h : ofContract c mount = .ok text) :
    ∃ rest, text = headerComment c ++ "*/\n\n" ++ rest ∧
      Names rest (moduleImports c.isStreaming) (moduleInterfaces c.isStreaming) := by
  obtain ⟨contractBody, clientBody, hcontract, hclient, rfl⟩ := exists_eq_header_append h
  obtain ⟨contractLines, hcontractLines, rfl⟩ := Outcome.map_eq_ok.1 hcontract
  obtain ⟨clientLines, hclientLines, rfl⟩ := Outcome.map_eq_ok.1 hclient
  -- Both bodies pass the scanner, so no statement begins or ends inside them.
  exact ⟨_, rfl, names_bodyLines c.isStreaming
    (passes_lines (passes_forestLines Route.passes_descriptor 1 _ hcontractLines))
    (passes_lines (passes_forestLines Route.passes_signature 1 _ hclientLines))⟩

/-- The names that streaming signatures use are there if the module is one with streaming routes. -/
theorem Names.streamNames_iff {streaming : Bool}
    (h : Names text (moduleImports streaming) (moduleInterfaces streaming)) :
    (Imports text "SSESubscription" ↔ streaming = true) ∧
      (Imports text "SSESubscribeOptions" ↔ streaming = true) ∧
      (DeclaresInterface text "SSECallbacks" ↔ streaming = true) := by
  rw [h.imports_iff, h.imports_iff, h.declaresInterface_iff]
  cases streaming <;> decide

/-- Every route in the forest of a module is one of the contract and has a signature. -/
theorem exists_signature_of_at {c : Contract} {mount : Option String} {text key : String}
    {path : List String} {tree : RouteTree} {r : Route} (h : ofContract c mount = .ok text)
    (hat : (RouteForest.ofRoutes mount c.routes).At path tree) (hmethod : (key, r) ∈ tree.methods) :
    r ∈ c.routes ∧ ∃ signature, r.signature = .ok signature := by
  have hsurvives : r.Survives mount c.routes :=
    RouteForest.mem_routes_ofRoutes_iff.1
      (RouteForest.mem_routes_iff.2 ⟨path, tree, key, hat, hmethod⟩)
  exact ⟨hsurvives.mem, (exists_ofContract_iff.1 ⟨text, h⟩ r hsurvives).exists_signature⟩

/-- In what follows the header, whose version and date are free text, the types of subscriptions are
imported and the callbacks are declared exactly if some route of the contract streams, whether or
not it stays in the forest. Every route in the forest, at any depth, has a signature, and if that
gives a subscription the names are there; if no route streams, no signature in the forest gives
one. -/
theorem ofContract_declares_streamNames {c : Contract} {mount : Option String} {text : String}
    (h : ofContract c mount = .ok text) :
    ∃ rest, text = headerComment c ++ "*/\n\n" ++ rest ∧
      (Imports rest "SSESubscription" ↔ ∃ r ∈ c.routes, r.streaming = true) ∧
      (Imports rest "SSESubscribeOptions" ↔ ∃ r ∈ c.routes, r.streaming = true) ∧
      (DeclaresInterface rest "SSECallbacks" ↔ ∃ r ∈ c.routes, r.streaming = true) ∧
      ∀ path tree key r, (RouteForest.ofRoutes mount c.routes).At path tree →
        (key, r) ∈ tree.methods → ∃ signature, r.signature = .ok signature ∧
          (Signature.IsStreaming signature → Imports rest "SSESubscription" ∧
            Imports rest "SSESubscribeOptions" ∧ DeclaresInterface rest "SSECallbacks") ∧
          ((∀ other ∈ c.routes, other.streaming = false) →
            ¬ Signature.IsStreaming signature) := by
  obtain ⟨rest, rfl, hnames⟩ := exists_names h
  have hstreaming : c.isStreaming = true ↔ ∃ r ∈ c.routes, r.streaming = true := List.any_eq_true
  obtain ⟨hsubscription, hoptions, hcallbacks⟩ := hnames.streamNames_iff
  rw [hstreaming] at hsubscription hoptions hcallbacks
  refine ⟨rest, rfl, hsubscription, hoptions, hcallbacks, ?_⟩
  intro path tree key r hat hmethod
  -- The route is one of the contract, so the decision over the flat list covers it.
  obtain ⟨hr, signature, hsignature⟩ := exists_signature_of_at h hat hmethod
  refine ⟨signature, hsignature, ?_, ?_⟩
  · intro hstream
    have hsome : ∃ r ∈ c.routes, r.streaming = true :=
      ⟨r, hr, (Route.isStreaming_signature_iff hsignature).1 hstream⟩
    exact ⟨hsubscription.2 hsome, hoptions.2 hsome, hcallbacks.2 hsome⟩
  · intro hnone hstream
    have hfalse := hnone r hr
    rw [(Route.isStreaming_signature_iff hsignature).1 hstream] at hfalse
    cases hfalse

/-- A contract with a route and a stream, which has no path and so no place in the forest. -/
def rootStream : Contract where
  version := "1"
  generatedAt := ""
  routes := [{ Route.plain "GET" "/" with streaming := true }, Route.plain "GET" "/events"]

theorem ofContract_declares_streamNames_rootStream :
    (∀ r ∈ (RouteForest.ofRoutes none rootStream.routes).routes, r.streaming = false) ∧
      ∃ text rest, ofContract rootStream none = .ok text ∧
        text = headerComment rootStream ++ "*/\n\n" ++ rest ∧
        Imports rest "SSESubscription" ∧ Imports rest "SSESubscribeOptions" ∧
        DeclaresInterface rest "SSECallbacks" := by
  obtain ⟨text, htext⟩ : ∃ text, ofContract rootStream none = .ok text := ⟨_, rfl⟩
  obtain ⟨rest, hrest, hsubscription, hoptions, hcallbacks, -⟩ :=
    ofContract_declares_streamNames htext
  have hstream : ∃ r ∈ rootStream.routes, r.streaming = true := ⟨_, List.mem_cons_self, rfl⟩
  exact ⟨by decide +kernel, text, rest, htext, hrest, hsubscription.2 hstream, hoptions.2 hstream,
    hcallbacks.2 hstream⟩

end Artifact
end TypedRoutes
