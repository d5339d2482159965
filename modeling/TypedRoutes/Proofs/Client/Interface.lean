import TypedRoutes.Proofs.Client.Line
import TypedRoutes.Proofs.Client.Skeleton

/-!
# Reading interfaces

The text of an interface determines its skeleton (`clientType_determines_skeleton`), if no key,
description or property name of the forest holds a line feed.

Each kind of line is told from the others by its first character or by what follows its key
(`read?_opening`, `read?_method`, `read?_comment`, `read?_closing`). A tree leaves the reader as it
was but for one block more, so the reader goes through a forest block by block
(`foldlM_forestLines`). That the text splits into its lines again needs that each of them is one
line, which is where the condition is used.
-/

set_option autoImplicit false

namespace TypedRoutes

open Text (IsLine Stops)

/-! ## Single lines -/

namespace Skeleton

/-- A text that is nothing but padding. -/
def IsPad (pad : String) : Prop := ∀ c ∈ pad.toList, c = ' '

theorem isPad_padding (level : Int) : IsPad (padding level) := by
  intro c hc
  exact eq_blank_of_mem_padding hc

theorem IsPad.append_blanks {pad : String} (h : IsPad pad) : IsPad (pad ++ "  ") := by
  intro c hc
  rw [String.toList_append, List.mem_append] at hc
  rcases hc with hc | hc
  · exact h c hc
  · have hblank : c ∈ [' ', ' '] := hc
    simpa using hblank

/-- What is left of a padded line without its padding, when the rest begins with no blank. -/
theorem dropWhile_pad {pad : String} (hpad : IsPad pad) {rest : List Char}
    (hrest : ∀ c ∈ rest.head?, c ≠ ' ') :
    (pad.toList ++ rest).dropWhile (· = ' ') = rest := by
  apply Text.dropWhile_append_stops
  · intro c hc
    simpa using hpad c hc
  · intro c hc
    simpa using hrest c hc

/-- A line with nothing but a closing brace closes a block. -/
theorem read?_closing {pad : String} (hpad : IsPad pad) :
    Line.read? (pad ++ "\x7d").toList = some .closing := by
  rw [Line.read?, String.toList_append, dropWhile_pad hpad (by simp)]
  rfl

/-- A comment is read from its line as it was written. -/
theorem read?_comment {pad : String} (hpad : IsPad pad) (text : List Char) :
    Line.read? (pad ++ "/** " ++ String.ofList text ++ " */").toList =
      some (.comment (String.ofList text)) := by
  have hlist : (pad ++ "/** " ++ String.ofList text ++ " */").toList =
      pad.toList ++ ('/' :: '*' :: '*' :: ' ' :: (text ++ [' ', '*', '/'])) := by simp
  rw [hlist, Line.read?, dropWhile_pad hpad (by simp)]
  simp [commentBody?]

/-- A line that begins with a key is read by what follows the key. -/
theorem read?_entry {pad : String} (hpad : IsPad pad) (key : String) (rest : List Char) :
    Line.read? (pad.toList ++ (PropertyKey.text key).toList ++ rest) =
      Line.ofEntry? ((PropertyKey.text key).toList ++ rest) := by
  obtain ⟨c, tail, hencode, hc⟩ := PropertyKey.exists_encode_eq_cons key.toList
  -- Neither a quote nor a name character begins another kind of line.
  have hne (d : Char) (hquote : '\'' ≠ d) (hname : PropertyKey.isNameChar d = false) : c ≠ d := by
    rintro rfl
    rcases hc with rfl | hc
    · exact hquote rfl
    · simp [hname] at hc
  have hblank := hne ' ' (by decide) (by decide)
  have hbrace := hne '\x7d' (by decide) (by decide)
  have hslash := hne '/' (by decide) (by decide)
  rw [PropertyKey.toList_text, hencode, List.append_assoc, Line.read?,
    dropWhile_pad hpad (by simpa using hblank)]
  -- Neither of the first two patterns fits a line that begins with `c`.
  simp only [List.cons_append]
  split
  · next h => exact absurd (List.cons.inj h).1 hbrace
  · next h => exact absurd (List.cons.inj h).1 hslash
  · rfl

/-- A line that opens a block is read with the key of the block. -/
theorem read?_opening {pad : String} (hpad : IsPad pad) (key : String) :
    Line.read? (pad ++ PropertyKey.text key ++ ": \x7b").toList = some (.opening key) := by
  have hstops : Stops PropertyKey.isNameChar [':', ' ', '\x7b'] := Text.stops_cons.2 (by decide)
  have hmark : (": \x7b" : String).toList = [':', ' ', '\x7b'] := by decide
  rw [String.toList_append, String.toList_append, hmark, read?_entry hpad, Line.ofEntry?,
    PropertyKey.scan_text key hstops]
  simp

/-- What follows the key of a method is no opening brace. -/
theorem read?_method {pad : String} (hpad : IsPad pad) (key : String) {signature : String}
    (h : ∃ rest, signature.toList = '(' :: rest) :
    Line.read? (pad ++ PropertyKey.text key ++ ": " ++ signature).toList =
      some (.method key signature) := by
  obtain ⟨rest, hrest⟩ := h
  have hsignature : signature = String.ofList ('(' :: rest) := by rw [← hrest, String.ofList_toList]
  have hstops : Stops PropertyKey.isNameChar (':' :: ' ' :: '(' :: rest) :=
    Text.stops_cons.2 (by decide)
  have hlist : (pad ++ PropertyKey.text key ++ ": " ++ signature).toList =
      pad.toList ++ (PropertyKey.text key).toList ++ (':' :: ' ' :: '(' :: rest) := by
    simp [hrest]
  rw [hlist, read?_entry hpad, Line.ofEntry?, PropertyKey.scan_text key hstops, hsignature]
  simp

/-- Every signature begins with the parenthesis of its parameters, which a block does not. -/
theorem exists_signature_eq_cons {r : Route} {signature : String}
    (h : r.signature = .ok signature) :
    ∃ rest, signature.toList = '(' :: rest := by
  obtain ⟨result, body, query, -, -, -, rfl⟩ := Route.signature_eq_ok_iff.1 h
  simp

/-! ## The lines of one place -/

/-- An opening line puts the current frame aside and begins a new one. -/
theorem next_opening (frame : Frame) (outer : List Frame) {pad : String} (hpad : IsPad pad)
    (key : String) :
    Reader.next ⟨frame, outer, none⟩ (pad ++ PropertyKey.text key ++ ": \x7b").toList =
      some ⟨⟨key, [], []⟩, frame :: outer, none⟩ := by
  rw [Reader.next, read?_opening hpad]
  rfl

/-- A closing line hands the finished block to the frame that was put aside. -/
theorem next_closing (frame parent : Frame) (outer : List Frame) {pad : String} (hpad : IsPad pad) :
    Reader.next ⟨frame, parent :: outer, none⟩ (pad ++ "\x7d").toList =
      some ⟨{ parent with
        blocks := parent.blocks ++ [.block frame.key frame.methods frame.blocks] },
          outer, none⟩ := by
  rw [Reader.next, read?_closing hpad]
  rfl

/-- The line of a method adds the method with the comment before it to the current frame. -/
theorem next_method (frame : Frame) (outer : List Frame) (pending : Option String) {pad : String}
    (hpad : IsPad pad) (key : String) {signature : String}
    (h : ∃ rest, signature.toList = '(' :: rest) :
    Reader.next ⟨frame, outer, pending⟩
        (pad ++ PropertyKey.text key ++ ": " ++ signature).toList =
      some ⟨{ frame with methods := frame.methods ++ [⟨key, pending, signature⟩] },
        outer, none⟩ := by
  rw [Reader.next, read?_method hpad key h]
  rfl

/-- The comment of a route waits for its method. -/
theorem foldlM_commentLines (frame : Frame) (outer : List Frame) {pad : String} (hpad : IsPad pad)
    (r : Route) :
    ((r.commentLines pad).map String.toList).foldlM Reader.next ⟨frame, outer, none⟩ =
      some ⟨frame, outer, r.comment?⟩ := by
  rw [Route.commentLines_eq_map]
  cases r.comment? with
  | none => rfl
  | some text =>
    have hread := read?_comment hpad text.toList
    rw [String.ofList_toList] at hread
    simp only [Option.toList_some, List.map_cons, List.map_nil, List.foldlM_cons, List.foldlM_nil,
      Reader.next, hread]
    rfl

/-- Reading the lines of the methods adds their skeletons to the current frame, in order. -/
theorem foldlM_methodLines {level : Int} {methods : List (String × Route)} {written : List String}
    (h : methodLines (fun route _ => route.signature) level methods = .ok written) :
    ∃ own, methodSkeletons methods = .ok own ∧ ∀ (frame : Frame) (outer : List Frame),
      (written.map String.toList).foldlM Reader.next ⟨frame, outer, none⟩ =
        some ⟨{ frame with methods := frame.methods ++ own }, outer, none⟩ := by
  induction methods generalizing written with
  | nil =>
    obtain rfl := Except.ok.inj h
    refine ⟨[], rfl, ?_⟩
    intro frame outer
    simp
  | cons entry rest ih =>
    obtain ⟨key, route⟩ := entry
    obtain ⟨signature, others, hsignature, hothers, rfl⟩ := methodLines_cons_eq_ok_iff.1 h
    have hsignature : route.signature = .ok signature := hsignature
    obtain ⟨own, hown, hread⟩ := ih hothers
    refine ⟨⟨key, route.comment?, signature⟩ :: own, ?_, fun frame outer => ?_⟩
    · rw [methodSkeletons, hsignature, hown]
      rfl
    -- The comment waits, the method takes it, and the other methods follow.
    · have hpad : IsPad (padding level ++ "  ") := (isPad_padding level).append_blanks
      rw [List.map_append, List.map_append, List.foldlM_append, List.foldlM_append,
        foldlM_commentLines frame outer hpad]
      simp only [Option.bind_eq_bind, Option.bind_some, List.map_cons, List.map_nil,
        List.foldlM_cons, List.foldlM_nil,
        next_method frame outer _ hpad key (exists_signature_eq_cons hsignature), Option.pure_def,
        hread]
      simp

/-! ## Forests -/

mutual

/-- Reading the lines below a node fills a fresh frame with the skeleton of the node, by induction
on the tree. -/
theorem foldlM_innerLines (level : Int) (key : String) :
    ∀ (tree : RouteTree) {written : List String},
    tree.innerLines (fun route _ => route.signature) level = .ok written →
      ∃ own below, tree.skeleton key = .ok (.block key own below) ∧ ∀ (outer : List Frame),
        (written.map String.toList).foldlM Reader.next ⟨⟨key, [], []⟩, outer, none⟩ =
          some ⟨⟨key, own, below⟩, outer, none⟩
  | .node _ methods children, written, h => by
    obtain ⟨ownLines, belowLines, hown, hbelow, rfl⟩ := RouteTree.innerLines_eq_ok_iff.1 h
    obtain ⟨own, hskeleton, hread⟩ := foldlM_methodLines hown
    obtain ⟨below, hbelowSkeleton, hbelowRead⟩ := foldlM_forestLines (level + 1) children hbelow
    refine ⟨own, below, ?_, fun outer => ?_⟩
    · rw [RouteTree.skeleton, hskeleton, hbelowSkeleton]
      rfl
    · rw [List.map_append, List.foldlM_append, hread, Option.bind_eq_bind, Option.bind_some,
        hbelowRead]
      rfl

/-- The lines of a forest add its blocks to the block that is open. -/
theorem foldlM_forestLines (level : Int) : ∀ (forest : List (String × RouteTree))
    {written : List String},
    forestLines (fun route _ => route.signature) level forest = .ok written →
      ∃ blocks, forestSkeleton forest = .ok blocks ∧ ∀ (frame : Frame) (outer : List Frame),
        (written.map String.toList).foldlM Reader.next ⟨frame, outer, none⟩ =
          some ⟨{ frame with blocks := frame.blocks ++ blocks }, outer, none⟩
  | [], written, h => by
    obtain rfl := Except.ok.inj h
    refine ⟨[], rfl, ?_⟩
    intro frame outer
    simp
  | (key, tree) :: rest, written, h => by
    obtain ⟨inner, others, hinner, hothers, rfl⟩ := forestLines_cons_eq_ok_iff.1 h
    obtain ⟨own, below, hskeleton, hread⟩ := foldlM_innerLines level key tree hinner
    obtain ⟨blocks, hblocks, hrest⟩ := foldlM_forestLines level rest hothers
    refine ⟨.block key own below :: blocks, ?_, fun frame outer => ?_⟩
    · rw [forestSkeleton, hskeleton, hblocks]
      rfl
    · -- The opening line, what is inside, the closing line, and the other trees.
      simp only [List.map_append, List.foldlM_append, List.map_cons, List.map_nil,
        List.foldlM_cons, List.foldlM_nil, Option.bind_eq_bind, Option.pure_def,
        next_opening frame outer (isPad_padding level), Option.bind_some, hread,
        next_closing _ frame outer (isPad_padding level), hrest]
      simp

end

/-! ## Whole texts -/

/-- The first line of a forest opens a block, so it is not empty. -/
theorem exists_forestLines_eq_cons {write : RouteWriter} {level : Int} {forest : RouteForest}
    {written : List String} (hne : forest ≠ []) (h : forestLines write level forest = .ok written) :
    ∃ first others, written = first :: others ∧ first.toList ≠ [] := by
  obtain ⟨⟨key, tree⟩, rest, rfl⟩ := List.exists_cons_of_ne_nil hne
  obtain ⟨inner, others, -, -, rfl⟩ := forestLines_cons_eq_ok_iff.1 h
  refine ⟨_, _, rfl, ?_⟩
  simp

/-- A text splits into the lines it was put together from. -/
theorem splitOn_lines {written : List String} (hne : written ≠ [])
    (h : ∀ line ∈ written, IsLine line) :
    (lines written).toList.splitOn '\n' = written.map String.toList := by
  have hmark : ("\n" : String).toList = ['\n'] := by decide
  rw [lines, String.toList_intercalate, hmark]
  refine List.splitOn_intercalate '\n' ?_ (by simpa using hne)
  intro line hline
  obtain ⟨text, htext, rfl⟩ := List.mem_map.1 hline
  exact h text htext

end Skeleton

namespace RouteForest

/-- The text of an interface is read back as the skeleton of its forest. -/
theorem read_clientType {forest : RouteForest} {level : Int} {text : String}
    (htexts : ∀ t ∈ forest.texts, IsLine t) (htext : forest.clientType level = .ok text) :
    ∃ skeleton, forest.skeleton = .ok skeleton ∧ Skeleton.read text = some skeleton := by
  obtain ⟨written, hwritten, rfl⟩ := Outcome.map_eq_ok.1 htext
  obtain ⟨blocks, hblocks, hread⟩ := Skeleton.foldlM_forestLines level forest hwritten
  refine ⟨blocks, hblocks, ?_⟩
  by_cases hne : forest = []
  · subst hne
    obtain rfl := Except.ok.inj hwritten
    obtain rfl := Except.ok.inj hblocks
    rfl
  · have hlines := isLine_forestLines level forest htexts hwritten
    obtain ⟨first, others, hcons, hfirst⟩ := Skeleton.exists_forestLines_eq_cons hne hwritten
    have hsome : written ≠ [] := by simp [hcons]
    have hsplit := Skeleton.splitOn_lines hsome hlines
    -- An empty text would have one line only, and that one empty.
    have hempty : ¬ (lines written).isEmpty = true := by
      intro hempty
      rw [String.isEmpty_iff.1 hempty, hcons] at hsplit
      exact hfirst (List.cons.inj hsplit).1.symm
    rw [Skeleton.read, if_neg hempty, hsplit, Skeleton.Reader.start, hread]
    rfl

/-- The text of an interface determines its skeleton: the reader recovers it, and no forest with
another skeleton is written as the same text, at whatever levels the two are written. -/
theorem clientType_determines_skeleton (forest : RouteForest) (level : Int) {text : String}
    (htexts : ∀ t ∈ forest.texts, IsLine t) (htext : forest.clientType level = .ok text) :
    (∃ skeleton, forest.skeleton = .ok skeleton ∧ Skeleton.read text = some skeleton) ∧
    ∀ (other : RouteForest) (otherLevel : Int), (∀ t ∈ other.texts, IsLine t) →
      other.clientType otherLevel = .ok text → other.skeleton = forest.skeleton := by
  obtain ⟨skeleton, hskeleton, hread⟩ := read_clientType htexts htext
  refine ⟨⟨skeleton, hskeleton, hread⟩, ?_⟩
  intro other otherLevel hothers hother
  obtain ⟨otherSkeleton, hotherSkeleton, hotherRead⟩ := read_clientType hothers hother
  rw [hread] at hotherRead
  -- Both are read from the same text, so they are the same skeleton.
  obtain rfl := Option.some.inj hotherRead
  rw [hskeleton, hotherSkeleton]

/-- A forest whose keys and descriptions look like the lines of an interface. -/
def lookalikes : RouteForest :=
  [("a: \x7b", .node false
    [("get", ⟨"GET", "/a: \x7b", none, some "\x7d */", false, .empty⟩)]
    [("it's", .node false [("sse", ⟨"GET", "/a: \x7b/it's", none, some "", true, .empty⟩)] [])])]

theorem clientType_determines_skeleton_lookalikes :
    ∃ text, lookalikes.clientType 1 = .ok text ∧ Skeleton.read text =
      some [.block "a: \x7b"
        [⟨"get", some "\x7d *\\/", "(config?: RequestConfig) => Promise<ApiResponse<any>>"⟩]
        [.block "it's" [⟨"sse", none,
          "(callbacks: SSECallbacks<any>, options?: SSESubscribeOptions) => " ++
            "SSESubscription<any>"⟩] []]] := by
  -- The skeleton is computed from the inside; the theorem says that it is read from the text.
  have houter : methodSkeletons
      [("get", ⟨"GET", "/a: \x7b", none, some "\x7d */", false, .empty⟩)] =
        .ok [⟨"get", some "\x7d *\\/",
          "(config?: RequestConfig) => Promise<ApiResponse<any>>"⟩] := by
    decide +kernel
  have hinner : methodSkeletons
      [("sse", ⟨"GET", "/a: \x7b/it's", none, some "", true, .empty⟩)] =
        .ok [⟨"sse", none, "(callbacks: SSECallbacks<any>, options?: SSESubscribeOptions) => " ++
          "SSESubscription<any>"⟩] := by
    decide +kernel
  have hchildren : forestSkeleton [("it's", .node false
      [("sse", ⟨"GET", "/a: \x7b/it's", none, some "", true, .empty⟩)] [])] =
        .ok [.block "it's" _ []] :=
    forestSkeleton_singleton (RouteTree.skeleton_node hinner rfl)
  have hwhole : lookalikes.skeleton = .ok [.block "a: \x7b" _ _] :=
    forestSkeleton_singleton (RouteTree.skeleton_node houter hchildren)
  have hwritten : ∃ text, lookalikes.clientType 1 = .ok text := ⟨_, rfl⟩
  obtain ⟨text, htext⟩ := hwritten
  obtain ⟨⟨skeleton, hskeleton, hread⟩, -⟩ :=
    clientType_determines_skeleton lookalikes 1 (by decide) htext
  obtain rfl := Except.ok.inj (hwhole.symm.trans hskeleton)
  exact ⟨text, htext, hread⟩

end RouteForest
end TypedRoutes
