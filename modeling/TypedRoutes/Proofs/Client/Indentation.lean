import TypedRoutes.Proofs.Client.Closed
import TypedRoutes.Proofs.Client.Interface
import TypedRoutes.Proofs.Text.Nesting

/-!
# Declarations at other levels

A declaration that is written some levels deeper is the same text with two blanks more for each
level before every line, and at every level each of its blocks ends at the column at which it begins
(`RouteForest.bodies_follow_level`). Blocks are the trees of the forest and the descriptors of
several lines.

A declaration is laid out in rows, which are padded by their depths below its level. The rows do not
depend on the level (`Renders`), and read at any level they leave open what was open before them
(`IsLaidOut`).
-/

set_option autoImplicit false

namespace TypedRoutes

open Text (Aligned IndentedBy IsEntry IsLine OpensBlock isLine_append nest)

/-! ## Rows -/

/-- A line of a declaration: its depth below the level of the declaration, and what stands after its
padding. -/
structure Row where
  depth : Nat
  body : String

namespace Row

/-- The row in a declaration at a level. -/
def text (level : Nat) (row : Row) : String := padding (level + row.depth : Nat) ++ row.body

/-- The row one level deeper. -/
def deeper (row : Row) : Row := { row with depth := row.depth + 1 }

/-- A deeper row at one level is the row itself at the next. -/
theorem text_deeper (level : Nat) (row : Row) : row.deeper.text level = row.text (level + 1) := by
  have hdepth : level + (row.depth + 1) = level + 1 + row.depth := by omega
  rw [text, deeper, hdepth, text]

/-- The text of a row is two blanks for each level and each step of depth, then its body. -/
theorem toList_text (level : Nat) (row : Row) :
    (row.text level).toList = List.replicate (2 * (level + row.depth)) ' ' ++ row.body.toList := by
  rw [text, padding, String.toList_append, String.toList_ofList, Int.toNat_natCast]

/-- A row at a higher level has the more blanks in front and is otherwise unchanged. -/
theorem toList_text_add (level more : Nat) (row : Row) : (row.text (level + more)).toList =
    List.replicate (2 * more) ' ' ++ (row.text level).toList := by
  have hwidth : 2 * (level + more + row.depth) = 2 * more + 2 * (level + row.depth) := by omega
  rw [toList_text, toList_text, hwidth, List.replicate_add, List.append_assoc]

theorem map_text_deeper (level : Nat) (rows : List Row) :
    (rows.map deeper).map (text level) = rows.map (text (level + 1)) := by
  simp only [List.map_map, Function.comp_def, text_deeper]

end Row

/-- A line, after its padding, that neither begins nor ends a block. -/
structure IsInnerLine (body : String) : Prop where
  isLine : IsLine body
  isEntry : IsEntry body
  not_opensBlock : ¬ OpensBlock body.toList

/-- An inner line stays one when a text without a line break is added that does not end in an
opening brace. -/
theorem IsInnerLine.append {body text : String} (h : IsInnerLine body) (hline : IsLine text)
    (hopens : ¬ OpensBlock text.toList) : IsInnerLine (body ++ text) where
  isLine := isLine_append.2 ⟨h.isLine, hline⟩
  isEntry := h.isEntry.append text
  not_opensBlock := Text.Compositional.not_opensBlock.append h.not_opensBlock hopens

/-- Rows of one line each that leave open the blocks that are open before them, at whatever level
they are read. -/
structure IsLaidOut (rows : List Row) : Prop where
  isLine : ∀ row ∈ rows, IsLine row.body
  nest : ∀ (level : Nat) (columns : List Nat),
    (rows.map fun row => (row.text level).toList).foldlM nest columns = some columns

namespace IsLaidOut

variable {rows others : List Row}

theorem nil : IsLaidOut [] := ⟨nofun, fun _ _ => rfl⟩

/-- Rows that are laid out one after the other: no block of the first list reaches into the
second. -/
theorem append (h : IsLaidOut rows) (hothers : IsLaidOut others) : IsLaidOut (rows ++ others) where
  isLine := List.forall_mem_append.2 ⟨h.isLine, hothers.isLine⟩
  nest level columns := by
    rw [List.map_append, List.foldlM_append, h.nest]
    exact hothers.nest level columns

/-- All rows may go one step deeper together, since only the difference of columns counts. -/
theorem deeper (h : IsLaidOut rows) : IsLaidOut (rows.map Row.deeper) where
  isLine := List.forall_mem_map.2 h.isLine
  nest level columns := by
    simp only [List.map_map, Function.comp_def, Row.text_deeper]
    exact h.nest (level + 1) columns

theorem inner {row : Row} (h : IsInnerLine row.body) : IsLaidOut [row] where
  isLine := List.forall_mem_singleton.2 h.isLine
  nest level columns := by
    rw [List.map_singleton, List.foldlM_cons, Row.toList_text, Text.nest_entry _ _ h.isEntry,
      if_neg h.not_opensBlock]
    rfl

/-- Inner lines that follow each other are laid out, as none of them opens or closes a block. -/
theorem of_forall_inner (h : ∀ row ∈ rows, IsInnerLine row.body) : IsLaidOut rows := by
  induction rows with
  | nil => exact nil
  | cons row rest ih =>
    obtain ⟨hrow, hrest⟩ := List.forall_mem_cons.1 h
    exact (inner hrow).append (ih hrest)

/-- Rows between braces that stand at one depth. -/
theorem block {before : String} (hbefore : IsInnerLine before) (h : IsLaidOut rows) :
    IsLaidOut ((⟨0, before ++ "\x7b"⟩ :: rows) ++ [⟨0, "\x7d"⟩]) where
  isLine := by
    have hopening : IsLine (before ++ "\x7b") := isLine_append.2 ⟨hbefore.isLine, by decide⟩
    rw [List.forall_mem_append, List.forall_mem_cons, List.forall_mem_singleton]
    exact ⟨⟨hopening, h.isLine⟩, by decide⟩
  nest level columns := by
    -- The column of the opening line is on top again when the closing line is read.
    have hopens : OpensBlock (before ++ "\x7b").toList := by
      rw [String.toList_append, Text.opensBlock_append]
      exact .inl (by decide)
    have hopening (columns : List Nat) : Text.nest columns
        (Row.text level ⟨0, before ++ "\x7b"⟩).toList = some (2 * (level + 0) :: columns) := by
      rw [Row.toList_text, Text.nest_entry _ _ (hbefore.isEntry.append _), if_pos hopens]
    have hclosing : Text.nest (2 * (level + 0) :: columns)
        (Row.text level ⟨0, "\x7d"⟩).toList = some columns := by
      rw [Row.toList_text]
      exact Text.nest_closing _ columns
    rw [List.map_append, List.map_cons, List.foldlM_append, List.foldlM_cons, hopening]
    simp only [Option.bind_eq_bind, Option.bind_some, h.nest, List.map_singleton, List.foldlM_cons,
      hclosing]
    rfl

/-- A text that has the lines of the rows is split into them. -/
theorem splitOn_lines (h : IsLaidOut rows) (hne : rows ≠ []) {level : Nat} {parts : List String}
    (heq : ledLines parts = ledLines (rows.map (Row.text level))) :
    (lines parts).toList.splitOn '\n' = rows.map fun row => (row.text level).toList := by
  have hrows : rows.map (Row.text level) ≠ [] := by simpa using hne
  have hparts : parts ≠ [] := by rwa [Ne, ← ledLines_eq_nil_iff, heq, ledLines_eq_nil_iff]
  have hlines : ∀ line ∈ rows.map (Row.text level), IsLine line := by
    rw [List.forall_mem_map]
    intro row hrow
    exact isLine_append.2 ⟨isLine_padding _, h.isLine row hrow⟩
  rw [ledLines_eq_cons hparts, ledLines_eq_cons hrows] at heq
  rw [(List.cons.inj heq).2, Skeleton.splitOn_lines hrows hlines, List.map_map]
  rfl

end IsLaidOut

/-- What is written at a level is the text of the rows at this level. -/
def Renders (written : Nat → Except UnwritableFault (List String)) (rows : List Row) : Prop :=
  ∀ level, ∃ parts, written level = .ok parts ∧
    ledLines parts = ledLines (rows.map (Row.text level))

/-- The text of rows, which is there at every level if it is at one, is aligned, and some levels
deeper it is indented. -/
theorem indented_of_renders {written : Nat → Except UnwritableFault (List String)} {rows : List Row}
    (hrows : IsLaidOut rows) (hrenders : Renders written rows) {level : Nat} (more : Nat)
    {parts : List String} (hne : parts ≠ []) (h : written level = .ok parts) :
    (∃ indented, (written (level + more)).map lines = .ok indented ∧
      IndentedBy (2 * more) (lines parts) indented) ∧ Aligned (lines parts) := by
  obtain ⟨parts', hparts, heq⟩ := hrenders level
  obtain rfl := Except.ok.inj (h.symm.trans hparts)
  have hsome : rows ≠ [] := by
    rintro rfl
    exact hne (ledLines_eq_nil_iff.1 heq)
  obtain ⟨others, hothers, hothersEq⟩ := hrenders (level + more)
  refine ⟨⟨lines others, Outcome.map_eq_ok.2 ⟨others, hothers, rfl⟩, ?_⟩, ?_⟩
  · rw [IndentedBy, hrows.splitOn_lines hsome heq, hrows.splitOn_lines hsome hothersEq,
      List.map_map]
    exact List.map_congr_left fun row _ => row.toList_text_add level more
  · rw [Aligned, hrows.splitOn_lines hsome heq]
    exact hrows.nest level []

/-! ## Methods -/

/-- A key is one entry of a line, whatever it holds. -/
theorem isEntry_propertyKey (key : String) : IsEntry (PropertyKey.text key) := by
  obtain ⟨c, rest, heq, hc⟩ := PropertyKey.exists_encode_eq_cons key.toList
  refine ⟨c, rest, (PropertyKey.toList_text key).trans heq, ?_, ?_⟩
  · rintro rfl
    exact absurd hc (by decide)
  · rintro rfl
    exact absurd hc (by decide)

theorem isInnerLine_key {key : String} (h : IsLine key) :
    IsInnerLine (PropertyKey.text key ++ ": ") where
  isLine := isLine_append.2 ⟨isLine_propertyKey h, by decide⟩
  isEntry := (isEntry_propertyKey key).append ": "
  not_opensBlock := Text.not_opensBlock_append (by decide) (by decide)

/-- A key ends in its quote or in a letter, so it opens no block. -/
theorem not_opensBlock_propertyKey (key : String) : ¬ OpensBlock (PropertyKey.text key).toList := by
  rw [PropertyKey.toList_text, PropertyKey.encode]
  split
  · next h =>
    intro hend
    have hname := (PropertyKey.isNameChar_of_isPlain h).2 _ (List.mem_of_getLast? hend)
    exact absurd hname (by decide)
  · rw [PropertyKey.quote, OpensBlock, List.getLast?_concat]
    decide

/-- The text of a type ends in no opening brace that a later line would have to close. -/
theorem Schema.not_opensBlock_typeText {schema : Schema} {text : String}
    (h : schema.typeText = .ok text) : ¬ OpensBlock text.toList := by
  have hquoted (s : String) : ¬ OpensBlock (Json.quoted s).toList := by
    rw [Json.quoted, String.toList_ofList, OpensBlock, List.getLast?_concat]
    decide
  exact typeText_of_names Text.Compositional.not_opensBlock hquoted schema
    (fun name _ => not_opensBlock_propertyKey name) h

namespace Route

/-- The comment of a route as a row. -/
def commentRows (r : Route) : List Row := (r.commentLines "").map (Row.mk 0)

theorem commentLines_eq_map_commentRows (r : Route) (level : Nat) :
    r.commentLines (padding level) = r.commentRows.map (Row.text level) := by
  rw [commentRows, List.map_map, commentLines_eq_map, commentLines_eq_map, List.map_map]
  apply List.map_congr_left
  intro text _
  simp [Row.text, String.append_assoc]

theorem isInnerLine_commentLines {r : Route} (h : ∀ text ∈ r.texts, IsLine text) :
    ∀ line ∈ r.commentLines "", IsInnerLine line := by
  intro line hline
  have hisLine := isLine_commentLines (by decide) h line hline
  rw [commentLines_eq_map] at hline
  obtain ⟨text, -, rfl⟩ := List.mem_map.1 hline
  have hmark : IsEntry ("" ++ "/** ") := ⟨'/', "** ".toList, by decide, by decide, by decide⟩
  exact ⟨hisLine, (hmark.append text).append " */",
    Text.not_opensBlock_append (by decide) (by decide)⟩

theorem isLaidOut_commentRows {r : Route} (h : ∀ text ∈ r.texts, IsLine text) :
    IsLaidOut r.commentRows :=
  .of_forall_inner (List.forall_mem_map.2 (isInnerLine_commentLines h))

/-- Every field of a descriptor is a label and a type, which is one entry. -/
theorem isEntry_descriptorFields {r : Route} {fields : List String}
    (h : r.descriptorFields = .ok fields) : ∀ field ∈ fields, IsEntry field := by
  have hslot {label : String} (hlabel : IsEntry label) (type : Option String) :
      ∀ field ∈ (type.map (label ++ ·)).toList, IsEntry field := by
    intro field hfield
    obtain ⟨text, -, rfl⟩ := Option.map_eq_some_iff.1 (Option.mem_toList.1 hfield)
    exact hlabel.append text
  have hquery : IsEntry "query: " := ⟨'q', _, rfl, by decide, by decide⟩
  have hbody : IsEntry "body: " := ⟨'b', _, rfl, by decide, by decide⟩
  have hparams : IsEntry "params: " := ⟨'p', _, rfl, by decide, by decide⟩
  have hreturn : IsEntry "return: " := ⟨'r', _, rfl, by decide, by decide⟩
  obtain ⟨query, body, params, result, -, -, -, -, rfl⟩ := descriptorFields_eq_ok_iff.1 h
  simp only [List.forall_mem_append, List.forall_mem_singleton]
  exact ⟨⟨⟨hslot hquery query, hslot hbody body⟩, hslot hparams params⟩, hreturn.append result⟩

/-- Every field of a descriptor may stand on a line of its own within the block. -/
theorem isInnerLine_descriptorFields {r : Route} {fields : List String}
    (htexts : ∀ text ∈ r.texts, IsLine text) (h : r.descriptorFields = .ok fields) :
    ∀ field ∈ fields, IsInnerLine field := by
  intro field hfield
  have hisLine := descriptorFields_of_schemas .isLine (isLine_types htexts) h field hfield
  have hopens := descriptorFields_of_schemas .not_opensBlock
    (fun _ _ _ => Schema.not_opensBlock_typeText) h field hfield
  exact ⟨hisLine, isEntry_descriptorFields h field hfield, hopens⟩

end Route

/-- What is written for a route at any level is a text that stands on the line of its key, and rows
that follow. The text may begin a block; the rows then end it. -/
def IsRows (written : Nat → Except UnwritableFault String) : Prop :=
  ∃ first rest,
    (∀ before, IsInnerLine before → IsLaidOut (⟨0, before ++ first⟩ :: rest)) ∧
    ∀ level, ∃ text, written level = .ok text ∧
      text.toList = first.toList ++ ledLines (rest.map (Row.text level))

/-- A writer lays out the routes whose texts are lines. -/
structure LaysOut (write : RouteWriter) : Prop where
  isRows : ∀ {route : Route} {level : Int} {text : String}, (∀ text ∈ route.texts, IsLine text) →
    write route level = .ok text → IsRows fun other => write route other

theorem laysOut_signature : LaysOut fun route _ => route.signature where
  isRows {route level text} htexts h := by
    have hopens := Route.signature_of_schemas .not_opensBlock
      (fun _ _ _ => Schema.not_opensBlock_typeText) h
    exact ⟨text, [], fun before hbefore =>
      .inner (hbefore.append (isLine_signature htexts h) hopens),
      fun _ => ⟨text, h, (List.append_nil _).symm⟩⟩

/-- Several fields are rows between the braces. -/
theorem isRows_fields {fields : List String} (h : ∀ field ∈ fields, IsInnerLine field) :
    IsRows fun level => .ok (lines
      ("\x7b" :: (fields.map (padding (level + 1) ++ ·) ++ [padding level ++ "\x7d"]))) := by
  have hfields : ∀ row ∈ fields.map (Row.mk 0), IsInnerLine row.body := List.forall_mem_map.2 h
  have hrows := (IsLaidOut.of_forall_inner hfields).deeper
  refine ⟨"\x7b", (fields.map (Row.mk 0)).map Row.deeper ++ [⟨0, "\x7d"⟩], ?_,
    fun level => ⟨_, rfl, ?_⟩⟩
  · exact fun before hbefore => .block hbefore hrows
  · rw [toList_lines_cons, List.map_append, Row.map_text_deeper, List.map_map]
    rfl

/-- A descriptor over several lines closes its brace in the column of the line that opens it. -/
theorem isRows_layOutFields {fields : List String} (h : ∀ field ∈ fields, IsInnerLine field) :
    IsRows fun level => .ok (Route.layOutFields level fields) := by
  match fields with
  | [field] =>
    have hfield := List.forall_mem_singleton.1 h
    have hline : IsLine ("\x7b " ++ field ++ " \x7d") :=
      isLine_append.2 ⟨isLine_append.2 ⟨by decide, hfield.isLine⟩, by decide⟩
    have hopens : ¬ OpensBlock ("\x7b " ++ field ++ " \x7d").toList :=
      Text.not_opensBlock_append (by decide) (by decide)
    exact ⟨_, [], fun before hbefore => .inner (hbefore.append hline hopens),
      fun _ => ⟨_, rfl, (List.append_nil _).symm⟩⟩
  | [] => exact isRows_fields h
  | first :: second :: rest => exact isRows_fields h

theorem laysOut_descriptor : LaysOut Route.descriptor where
  isRows {route level text} htexts h := by
    obtain ⟨fields, hfields, -⟩ := Outcome.map_eq_ok.1 h
    have hwritten : (fun other : Nat => route.descriptor other) =
        fun other : Nat => .ok (Route.layOutFields other fields) :=
      funext fun other => Outcome.map_eq_ok.2 ⟨fields, hfields, rfl⟩
    rw [hwritten]
    exact isRows_layOutFields (Route.isInnerLine_descriptorFields htexts hfields)

/-! ## Forests -/

/-- Two more blanks are the padding of the next level. -/
theorem padding_append_blanks (level : Nat) :
    padding level ++ "  " = padding (level + 1 : Nat) := by
  apply String.toList_injective
  simp [padding, Nat.mul_add, List.replicate_add]

section

variable {write : RouteWriter}

/-- The methods of a node follow the level of the node. -/
theorem exists_rows_methodLines (hwrite : LaysOut write) {level : Int}
    {methods : List (String × Route)} {written : List String}
    (htexts : ∀ text ∈ methodTexts methods, IsLine text)
    (h : methodLines write level methods = .ok written) :
    ∃ rows, IsLaidOut rows ∧ Renders (fun other => methodLines write other methods) rows := by
  induction methods generalizing written with
  | nil => exact ⟨[], .nil, fun _ => ⟨[], rfl, rfl⟩⟩
  | cons entry rest ih =>
    obtain ⟨key, route⟩ := entry
    rw [methodTexts, List.cons_append, List.forall_mem_cons, List.forall_mem_append] at htexts
    obtain ⟨hkey, hroute, hrest⟩ := htexts
    obtain ⟨text, others, htext, hothers, -⟩ := methodLines_cons_eq_ok_iff.1 h
    obtain ⟨first, following, hfirst, hfollowing⟩ := hwrite.isRows hroute htext
    obtain ⟨rows, hrows, hrenders⟩ := ih hrest hothers
    have hentry := hfirst _ (isInnerLine_key hkey)
    -- The comment and the entry stand one level below the block that they are in.
    refine ⟨(route.commentRows ++ ⟨0, PropertyKey.text key ++ ": " ++ first⟩ :: following).map
      Row.deeper ++ rows, ((route.isLaidOut_commentRows hroute).append hentry).deeper.append hrows,
      fun other => ?_⟩
    obtain ⟨text, htext, htextEq⟩ := hfollowing (other + 1)
    obtain ⟨others, hothers, hothersEq⟩ := hrenders other
    refine ⟨_, methodLines_cons_eq_ok_iff.2 ⟨text, others, htext, hothers, rfl⟩, ?_⟩
    have hline : ledLines [padding (other + 1 : Nat) ++ PropertyKey.text key ++ ": " ++ text] =
        ledLines ((⟨0, PropertyKey.text key ++ ": " ++ first⟩ :: following).map
          (Row.text (other + 1))) := by
      simp [ledLines, htextEq, Row.text]
    rw [padding_append_blanks, Route.commentLines_eq_map_commentRows, ledLines_append,
      ledLines_append, hline, hothersEq, List.map_append, Row.map_text_deeper, List.map_append,
      ledLines_append, ledLines_append]

mutual

/-- The lines below a node follow its level, by induction on the tree. -/
theorem RouteTree.exists_rows_innerLines (hwrite : LaysOut write) {level : Int} :
    ∀ (tree : RouteTree) {written : List String}, (∀ text ∈ tree.texts, IsLine text) →
      tree.innerLines write level = .ok written →
        ∃ rows, IsLaidOut rows ∧ Renders (fun other => tree.innerLines write other) rows
  | .node _ methods children, written, htexts, h => by
    rw [RouteTree.texts, List.forall_mem_append] at htexts
    obtain ⟨own, below, hown, hbelow, -⟩ := RouteTree.innerLines_eq_ok_iff.1 h
    obtain ⟨ownRows, hownRows, hownRenders⟩ := exists_rows_methodLines hwrite htexts.1 hown
    obtain ⟨belowRows, hbelowRows, hbelowRenders⟩ :=
      exists_rows_forestLines hwrite children htexts.2 hbelow
    -- The blocks inside a block stand one level below it, as its methods do.
    refine ⟨ownRows ++ belowRows.map Row.deeper, hownRows.append hbelowRows.deeper,
      fun other => ?_⟩
    obtain ⟨own, hown, hownEq⟩ := hownRenders other
    obtain ⟨below, hbelow, hbelowEq⟩ := hbelowRenders (other + 1)
    refine ⟨_, RouteTree.innerLines_eq_ok_iff.2 ⟨own, below, hown, hbelow, rfl⟩, ?_⟩
    rw [ledLines_append, hownEq, hbelowEq, List.map_append, ledLines_append, Row.map_text_deeper]

/-- A forest whose texts are lines is written in rows that do not depend on the level. -/
theorem exists_rows_forestLines (hwrite : LaysOut write) {level : Int} :
    ∀ (forest : List (String × RouteTree)) {written : List String},
      (∀ text ∈ forestTexts forest, IsLine text) → forestLines write level forest = .ok written →
        ∃ rows, IsLaidOut rows ∧ Renders (fun other => forestLines write other forest) rows
  | [], written, _, h => ⟨[], .nil, fun _ => ⟨[], rfl, rfl⟩⟩
  | (key, tree) :: rest, written, htexts, h => by
    rw [forestTexts, List.cons_append, List.forall_mem_cons, List.forall_mem_append] at htexts
    obtain ⟨hkey, htree, hrest⟩ := htexts
    obtain ⟨inner, others, hinner, hothers, -⟩ := forestLines_cons_eq_ok_iff.1 h
    obtain ⟨innerRows, hinnerRows, hinnerRenders⟩ := tree.exists_rows_innerLines hwrite htree hinner
    obtain ⟨otherRows, hotherRows, hotherRenders⟩ :=
      exists_rows_forestLines hwrite rest hrest hothers
    refine ⟨((⟨0, PropertyKey.text key ++ ": " ++ "\x7b"⟩ :: innerRows) ++ [⟨0, "\x7d"⟩]) ++
      otherRows, (IsLaidOut.block (isInnerLine_key hkey) hinnerRows).append hotherRows,
      fun other => ?_⟩
    obtain ⟨inner, hinner, hinnerEq⟩ := hinnerRenders other
    obtain ⟨others, hothers, hothersEq⟩ := hotherRenders other
    refine ⟨_, forestLines_cons_eq_ok_iff.2 ⟨inner, others, hinner, hothers, rfl⟩, ?_⟩
    rw [ledLines_append, ledLines_append, ledLines_append, hinnerEq, hothersEq, List.map_append,
      ledLines_append, List.map_append, ledLines_append, List.map_cons]
    simp [ledLines, Row.text]

end

end

namespace RouteForest

/-- Some levels deeper each declaration is there as well and is indented, and it is aligned. -/
theorem bodies_follow_level {forest : RouteForest} (hne : forest ≠ [])
    (htexts : ∀ text ∈ forest.texts, IsLine text) (level more : Nat) :
    (∀ text, forest.contractType level = .ok text →
      (∃ indented, forest.contractType (level + more : Nat) = .ok indented ∧
        IndentedBy (2 * more) text indented) ∧ Aligned text) ∧
    ∀ text, forest.clientType level = .ok text →
      (∃ indented, forest.clientType (level + more : Nat) = .ok indented ∧
        IndentedBy (2 * more) text indented) ∧ Aligned text := by
  have hwritten {write : RouteWriter} (hwrite : LaysOut write) {parts : List String}
      (h : forestLines write level forest = .ok parts) :
      (∃ indented, (forestLines write (level + more : Nat) forest).map lines = .ok indented ∧
        IndentedBy (2 * more) (lines parts) indented) ∧ Aligned (lines parts) := by
    obtain ⟨rows, hrows, hrenders⟩ := exists_rows_forestLines hwrite forest htexts h
    obtain ⟨first, others, hcons, -⟩ := Skeleton.exists_forestLines_eq_cons hne h
    exact indented_of_renders hrows hrenders more (hcons ▸ List.cons_ne_nil first others) h
  constructor
  · intro text h
    obtain ⟨parts, hparts, rfl⟩ := Outcome.map_eq_ok.1 h
    exact hwritten laysOut_descriptor hparts
  · intro text h
    obtain ⟨parts, hparts, rfl⟩ := Outcome.map_eq_ok.1 h
    exact hwritten laysOut_signature hparts

/-- A forest of two levels, with descriptors of several fields at both. -/
def layeredForest : RouteForest :=
  [("users", .node false
    [("get", ⟨"GET", "/users", none, some "All \x7b", false,
      ⟨none, some (.primitive .string), none, some (.array none)⟩⟩)]
    [(":id", .node true
      [("put", ⟨"PUT", "/users/:id", none, none, false,
        ⟨some (.fields [("it's", .unknown)] []), none, some (.primitive .string), none⟩⟩)] [])])]

/-- Its contract type at the first level. -/
def layeredContract : String :=
  lines ["  users: \x7b",
    "    /** All \x7b */",
    "    get: \x7b",
    "      query: string",
    "      return: unknown[]",
    "    \x7d",
    "    ':id': \x7b",
    "      put: \x7b",
    "        body: \x7b 'it\\'s'?: unknown \x7d",
    "        params: string",
    "        return: any",
    "      \x7d",
    "    \x7d",
    "  \x7d"]

theorem bodies_follow_level_layeredForest :
    layeredForest ≠ [] ∧ (∀ text ∈ layeredForest.texts, IsLine text) ∧
      layeredForest.contractType (1 : Nat) = .ok layeredContract ∧
      (∃ indented, layeredForest.contractType (1 + 2 : Nat) = .ok indented ∧
        IndentedBy (2 * 2) layeredContract indented) ∧ Aligned layeredContract := by
  have hne : layeredForest ≠ [] := List.cons_ne_nil _ _
  have htexts : ∀ text ∈ layeredForest.texts, IsLine text := by decide
  have hcontract : layeredForest.contractType (1 : Nat) = .ok layeredContract := by decide +kernel
  exact ⟨hne, htexts, hcontract, (bodies_follow_level hne htexts 1 2).1 layeredContract hcontract⟩

end RouteForest
end TypedRoutes
