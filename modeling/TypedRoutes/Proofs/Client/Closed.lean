import TypedRoutes.Proofs.Client.Parts

/-!
# Declarations are closed

No text that a contract supplies leaves the place where it is written: a scanner that skips strings
and comments reads the contract type and the interface of the client to their ends, with every
string and comment ended and every bracket closed by one of its kind
(`RouteForest.isClosed_bodies`). Keys and literals end within their quotes and comments within their
marks, so all of them pass the scanner, and so does what is put together from them.
-/

set_option autoImplicit false

namespace TypedRoutes

open Text (Bracket Compositional IsPlain Passes Scanner)

/-! ## Lines -/

theorem passes_newline : Passes "\n" := Text.passes_of_no_marks (by decide)

theorem passes_padding (level : Int) : Passes (padding level) := by
  apply Text.passes_of_no_marks
  intro c hc
  rw [eq_blank_of_mem_padding hc]
  decide

/-- Lines with a line feed before each, which does not set the first line apart. -/
def ledLines (parts : List String) : List Char := parts.flatMap fun part => ("\n" ++ part).toList

theorem ledLines_append (parts others : List String) :
    ledLines (parts ++ others) = ledLines parts ++ ledLines others :=
  List.flatMap_append

/-- Lines with a line feed before each are the joined lines behind one line feed. -/
theorem ledLines_eq_cons {parts : List String} (h : parts ≠ []) :
    ledLines parts = '\n' :: (lines parts).toList := by
  induction parts with
  | nil => exact absurd rfl h
  | cons part rest ih =>
    cases rest with
    | nil => simp [ledLines, lines]
    | cons next rest =>
      have hrest : ledLines (next :: rest) = '\n' :: (lines (next :: rest)).toList :=
        ih (List.cons_ne_nil _ _)
      have hsplit : lines (part :: next :: rest) = part ++ "\n" ++ lines (next :: rest) :=
        String.intercalate_cons_cons
      have happend := ledLines_append [part] (next :: rest)
      rw [List.singleton_append, hrest] at happend
      rw [happend, hsplit]
      simp [ledLines]

theorem ledLines_eq_nil_iff {parts : List String} : ledLines parts = [] ↔ parts = [] := by
  constructor
  · intro h
    by_contra hne
    rw [ledLines_eq_cons hne] at h
    cases h
  · rintro rfl
    rfl

/-- The first of some lines has no line feed before it. -/
theorem toList_lines_cons (first : String) (rest : List String) :
    (lines (first :: rest)).toList = first.toList ++ ledLines rest := by
  have hcons : ledLines (first :: rest) = '\n' :: (first.toList ++ ledLines rest) := by
    simp [ledLines]
  have hled := ledLines_eq_cons (List.cons_ne_nil first rest)
  exact (List.cons.inj (hled.symm.trans hcons)).2

/-- Lines with a line feed before each pass as the lines with line feeds between them do. -/
theorem passes_lines {parts : List String} (h : Scanner.Passes .code (ledLines parts)) :
    Passes (lines parts) := by
  by_cases hnil : parts = []
  · rw [hnil]
    exact Scanner.passes_nil _
  · intro opened
    have hrun := h opened
    rwa [ledLines_eq_cons hnil, Scanner.run_cons, Scanner.step_of_not_mem_marks (by decide)] at hrun

/-- Lines that the scanner passes one by one are passed as a block. -/
theorem passes_ledLines {parts : List String} (h : ∀ part ∈ parts, Passes part) :
    Scanner.Passes .code (ledLines parts) :=
  .flatMap fun part hpart => passes_newline.append (h part hpart)

/-- Lines in a block pass if they do outside it. -/
theorem passes_block {before after : String} {inner : List String} (hbefore : Passes before)
    (hinner : Scanner.Passes .code (ledLines inner)) (hafter : Passes after) :
    Scanner.Passes .code (ledLines ([before ++ "\x7b"] ++ inner ++ [after ++ "\x7d"])) := by
  have hbody := (hinner.append (passes_newline.append hafter)).bracketed .curly
  have hsplit : ledLines ([before ++ "\x7b"] ++ inner ++ [after ++ "\x7d"]) =
      ("\n" ++ before).toList ++ (Bracket.curly.opening ::
        (ledLines inner ++ ("\n" ++ after).toList) ++ [Bracket.curly.closing]) := by
    simp [ledLines, Bracket.opening, Bracket.closing]
  rw [hsplit]
  exact Scanner.Passes.append (passes_newline.append hbefore) hbody

/-! ## Methods -/

namespace Route

/-- A descriptor closes what it opens: its braces are its own, and every field between them
passes. -/
theorem passes_layOutFields (level : Int) {fields : List String}
    (h : ∀ field ∈ fields, Passes field) : Passes (layOutFields level fields) := by
  have hinner : ∀ part ∈ fields.map (padding (level + 1) ++ ·), Passes part := by
    intro part hpart
    obtain ⟨field, hfield, rfl⟩ := List.mem_map.1 hpart
    exact (passes_padding _).append (h field hfield)
  have hbefore : Passes "" := Compositional.passes.empty
  have hblock := passes_block hbefore (passes_ledLines hinner) (passes_padding level)
  cases fields with
  | nil => exact passes_lines hblock
  | cons first rest =>
    cases rest with
    | nil =>
      exact Compositional.passes.enclosed .curly [' '] [' '] rfl rfl (by decide) (by decide)
        (h first List.mem_cons_self)
    | cons => exact passes_lines hblock

/-- A descriptor that can be written leaves the scanner in code with the brackets as they were. -/
theorem passes_descriptor {r : Route} {level : Int} {text : String}
    (h : r.descriptor level = .ok text) : Passes text := by
  obtain ⟨fields, hfields, rfl⟩ := Outcome.map_eq_ok.1 h
  exact passes_layOutFields level
    (descriptorFields_of_schemas .passes (fun _ _ _ => Schema.passes_typeText) hfields)

theorem passes_signature {r : Route} {text : String} (h : r.signature = .ok text) : Passes text :=
  signature_of_schemas .passes (fun _ _ _ => Schema.passes_typeText) h

/-- The comment of a route ends where its line ends. -/
theorem passes_commentLines (r : Route) {pad : String} (hpad : Passes pad) :
    ∀ line ∈ r.commentLines pad, Passes line := by
  unfold commentLines
  split
  · exact nofun
  · next text _ =>
    split
    · exact nofun
    · have hcomment := hpad.append (passes_comment text.toList)
      simpa only [List.forall_mem_singleton, String.append_assoc] using hcomment

end Route

/-! ## Forests -/

section

variable {write : RouteWriter}

/-- The lines of the methods pass when the entries do; a key passes whatever it holds, as it is
quoted. -/
theorem passes_methodLines
    (hwrite : ∀ {route : Route} {level : Int} {text : String},
      write route level = .ok text → Passes text)
    {level : Int} {methods : List (String × Route)} {written : List String}
    (h : methodLines write level methods = .ok written) : ∀ line ∈ written, Passes line := by
  induction methods generalizing written with
  | nil =>
    obtain rfl := Except.ok.inj h
    simp
  | cons entry rest ih =>
    obtain ⟨key, route⟩ := entry
    obtain ⟨text, others, htext, hothers, rfl⟩ := methodLines_cons_eq_ok_iff.1 h
    have hpad : Passes (padding level ++ "  ") :=
      (passes_padding level).append (Text.passes_of_no_marks (by decide))
    have hcolon : Passes ": " := Text.passes_of_no_marks (by decide)
    have hentry : Passes (padding level ++ "  " ++ PropertyKey.text key ++ ": " ++ text) :=
      ((hpad.append (passes_propertyKey key)).append hcolon).append (hwrite htext)
    rw [List.forall_mem_append, List.forall_mem_append, List.forall_mem_singleton]
    exact ⟨⟨route.passes_commentLines hpad, hentry⟩, ih hothers⟩

mutual

/-- The lines below a node pass when the entries do, by induction on the tree: every child opens and
closes a block of its own. -/
theorem RouteTree.passes_innerLines
    (hwrite : ∀ {route : Route} {level : Int} {text : String},
      write route level = .ok text → Passes text)
    (level : Int) : ∀ (tree : RouteTree) {written : List String},
      tree.innerLines write level = .ok written → Scanner.Passes .code (ledLines written)
  | .node _ methods children, written, h => by
    obtain ⟨own, below, hown, hbelow, rfl⟩ := RouteTree.innerLines_eq_ok_iff.1 h
    rw [ledLines_append]
    exact (passes_ledLines (passes_methodLines hwrite hown)).append
      (passes_forestLines hwrite (level + 1) children hbelow)

/-- The blocks of a forest pass if what is written for each route does. -/
theorem passes_forestLines
    (hwrite : ∀ {route : Route} {level : Int} {text : String},
      write route level = .ok text → Passes text)
    (level : Int) : ∀ (forest : List (String × RouteTree)) {written : List String},
      forestLines write level forest = .ok written → Scanner.Passes .code (ledLines written)
  | [], written, h => by
    obtain rfl := Except.ok.inj h
    exact Scanner.passes_nil _
  | (key, tree) :: rest, written, h => by
    obtain ⟨inner, others, hinner, hothers, rfl⟩ := forestLines_cons_eq_ok_iff.1 h
    have hcolon : Passes ": " := Text.passes_of_no_marks (by decide)
    have hopening : Passes (padding level ++ PropertyKey.text key ++ ": ") :=
      ((passes_padding level).append (passes_propertyKey key)).append hcolon
    have hsplit : ": \x7b" = ": " ++ "\x7b" := rfl
    rw [ledLines_append, hsplit, ← String.append_assoc]
    exact (passes_block hopening (tree.passes_innerLines hwrite level hinner)
      (passes_padding level)).append (passes_forestLines hwrite level rest hothers)

end

end

namespace RouteForest

/-- The bodies of both declarations are closed: whatever the routes hold, no text of theirs ends the
string or the comment that it stands in, and no bracket of theirs counts. -/
theorem isClosed_bodies (mount : Option String) (routes : List Route) (level : Int) :
    (∀ text, (ofRoutes mount routes).contractType level = .ok text → Text.isClosed text = true) ∧
      ∀ text, (ofRoutes mount routes).clientType level = .ok text → Text.isClosed text = true := by
  constructor
  · intro text h
    obtain ⟨written, hwritten, rfl⟩ := Outcome.map_eq_ok.1 h
    exact Text.isClosed_of_passes
      (passes_lines (passes_forestLines Route.passes_descriptor level _ hwritten))
  · intro text h
    obtain ⟨written, hwritten, rfl⟩ := Outcome.map_eq_ok.1 h
    exact Text.isClosed_of_passes
      (passes_lines (passes_forestLines Route.passes_signature level _ hwritten))

/-- A route whose texts look like the ends of the places that they stand in. -/
def hostileRoute : Route where
  method := "g\x7d"
  path := "/v1/it's/\"(/*"
  name := none
  description := some "*/ \x7d ' ["
  streaming := false
  slots :=
    { body := some (.literal (.ofDatum (.scalar (.str "\"]\\"))))
      query := some (.fields [("a'\x7d */", .unknown)] [])
      params := none
      response := some (.record (.enumeration [.ofDatum (.map [(.str "\x7d\"", .list [])])])) }

theorem isClosed_bodies_hostileRoute :
    (∃ text, (ofRoutes (some "/v1") [hostileRoute]).contractType 1 = .ok text ∧
      Text.isClosed text = true) ∧
    ∃ text, (ofRoutes (some "/v1") [hostileRoute]).clientType 1 = .ok text ∧
      Text.isClosed text = true := by
  obtain ⟨hcontract, hclient⟩ := isClosed_bodies (some "/v1") [hostileRoute] 1
  obtain ⟨contract, hcontractText⟩ := Outcome.exists_of_isOk
    (show ((ofRoutes (some "/v1") [hostileRoute]).contractType 1).isOk = true by decide +kernel)
  obtain ⟨client, hclientText⟩ := Outcome.exists_of_isOk
    (show ((ofRoutes (some "/v1") [hostileRoute]).clientType 1).isOk = true by decide +kernel)
  exact ⟨⟨contract, hcontractText, hcontract contract hcontractText⟩,
    client, hclientText, hclient client hclientText⟩

end RouteForest
end TypedRoutes
