import TypedRoutes.Proofs.Client.Closed
import TypedRoutes.Proofs.Client.Interface
import TypedRoutes.Proofs.Client.Shown
import TypedRoutes.Proofs.RouteTree.Routes
import TypedRoutes.Proofs.Text.Uncommented

/-!
# Declarations without their comments

The lexemes of a body of declarations. Its comments are those of the routes, its strings between
single quotes are the keys and the property names that are no identifiers, and without its comments
it is the body of the forest without descriptions (`exists_uncomments_forestLines`). So a
description is nothing but a comment, whatever its text is
(`RouteForest.descriptions_are_comments`).

A comment ends at the mark after its text, as `commentText` leaves no mark in it
(`read_commentText`). It stands on a line of its own before the line of its method, so the two lines
lose nothing but the comment (`Uncomments.commented`), and lines are put together one after the
other (`Uncomments.append`).
-/

set_option autoImplicit false

namespace TypedRoutes

open Text (Lexeme Reads StartsLine lexemes uncomment)

/-! ## Comments -/

/-- What stands between the marks of a comment with a text. -/
def commentBody (text : String) : List Char := '*' :: ' ' :: text.toList ++ [' ']

theorem head?_commentText (text : List Char) : (commentText text).head? = text.head? := by
  fun_cases commentText text <;> rfl

/-- A comment ends at the mark after its text, as no mark is left in the text. -/
theorem read_commentText (text body rest : List Char) :
    Lexeme.read (.inComment body) (commentText text ++ ' ' :: '*' :: '/' :: rest) =
      (lexemes rest).map (.comment (body ++ commentText text ++ [' ']) :: ·) := by
  have hstep {c : Char} {body tail : List Char} (h : c = '*' → tail.head? ≠ some '/') :
      Lexeme.read (.inComment body) (c :: tail) = Lexeme.read (.inComment (body ++ [c])) tail := by
    rw [Lexeme.read]
    rintro rest rfl rfl
    exact h rfl rfl
  fun_induction commentText text generalizing body with
  | case1 tail ih =>
    -- The backslash stands between the star and the slash of a mark.
    rw [List.cons_append, hstep (by simp), List.cons_append, hstep (by simp), List.cons_append,
      hstep (by simp), ih]
    simp
  | case2 c tail hmark ih =>
    have hhead : c = '*' →
        (commentText tail ++ ' ' :: '*' :: '/' :: rest).head? ≠ some '/' := by
      rintro rfl hslash
      rw [List.head?_append, head?_commentText] at hslash
      cases tail with
      | nil => cases hslash
      | cons d tail =>
        obtain rfl : d = '/' := Option.some.inj hslash
        exact hmark tail rfl rfl
    rw [List.cons_append, hstep hhead, ih]
    simp
  | case3 =>
    rw [List.nil_append, hstep (by simp), List.append_nil, Lexeme.read, lexemes]

/-- A written comment is one lexeme, whatever its text. -/
theorem reads_comment (text : List Char) :
    Reads ("/** " ++ String.ofList (commentText text) ++ " */").toList
      [.comment (commentBody (String.ofList (commentText text)))] := by
  intro rest
  have hlist : ("/** " ++ String.ofList (commentText text) ++ " */").toList ++ rest =
      '/' :: '*' :: '*' :: ' ' :: (commentText text ++ ' ' :: '*' :: '/' :: rest) := by simp
  have hopen (body tail : List Char) : Lexeme.read (.inComment body) ('*' :: ' ' :: tail) =
      Lexeme.read (.inComment (body ++ ['*', ' '])) tail := by
    rw [Lexeme.read, Lexeme.read]
    · simp
    · simp
    · simp
  rw [hlist, lexemes, Lexeme.read, hopen, List.nil_append, read_commentText]
  simp [commentBody]

/-! ## Lines -/

/-- The lines have these comments and show these names. Without its comments the text of the lines
is that of the other lines. -/
def Uncomments (written bare : List String) (comments : List (List Char)) (names : List String) :
    Prop :=
  ∃ tokens bareTokens, Reads (ledLines written) tokens ∧ Reads (ledLines bare) bareTokens ∧
    StartsLine tokens ∧
    tokens.filterMap Lexeme.comment? = comments ∧ bareTokens.filterMap Lexeme.comment? = [] ∧
    tokens.filterMap Lexeme.singleQuoted? = names.filterMap PropertyKey.quotedBody? ∧
    ∀ rest, StartsLine rest → uncomment (tokens ++ rest) = bareTokens ++ uncomment rest

namespace Uncomments

theorem nil : Uncomments [] [] [] [] :=
  ⟨[], [], Text.reads_nil, Text.reads_nil, Text.startsLine_nil, rfl, rfl, rfl, fun _ _ => rfl⟩

variable {written bare others bareOthers : List String} {comments rest : List (List Char)}
  {names otherNames : List String}

/-- Uncommented lines after uncommented lines, with the comments and the names of both in order. -/
theorem append (h : Uncomments written bare comments names)
    (hothers : Uncomments others bareOthers rest otherNames) :
    Uncomments (written ++ others) (bare ++ bareOthers) (comments ++ rest)
      (names ++ otherNames) := by
  obtain ⟨tokens, bareTokens, hread, hbare, hstart, hcomments, hnone, hnames, hstrip⟩ := h
  obtain ⟨tokens', bareTokens', hread', hbare', hstart', hcomments', hnone', hnames', hstrip'⟩ :=
    hothers
  refine ⟨tokens ++ tokens', bareTokens ++ bareTokens', ?_, ?_, hstart.append hstart', ?_, ?_, ?_,
    fun tail htail => ?_⟩
  · rw [ledLines_append]
    exact hread.append hread'
  · rw [ledLines_append]
    exact hbare.append hbare'
  · rw [List.filterMap_append, hcomments, hcomments']
  · rw [List.filterMap_append, hnone, hnone']
    rfl
  · rw [List.filterMap_append, List.filterMap_append, hnames, hnames']
  · rw [List.append_assoc, hstrip _ (hstart'.append htail), hstrip' tail htail, List.append_assoc]

/-- A line without a comment stays. -/
theorem line {line : String} (h : Shows names line) : Uncomments [line] [line] [] names := by
  obtain ⟨tokens, hread, hnone, hnames⟩ := h
  have hfeed : Reads ['\n'] [.plain '\n'] := Text.reads_singleton (by decide)
  have hled : Reads (ledLines [line]) (.plain '\n' :: tokens) := by
    have hlist : ledLines [line] = ['\n'] ++ line.toList := by simp [ledLines]
    rw [hlist]
    exact hfeed.append hread
  exact ⟨_, _, hled, hled, Text.startsLine_cons tokens, hnone, hnone, hnames,
    fun rest hrest => Text.uncomment_append hnone hrest⟩

/-- A comment on the line before goes. -/
theorem commented {pad line : String} (hpad : Skeleton.IsPad pad) (text : List Char)
    (h : Shows names line) :
    Uncomments [pad ++ "/** " ++ String.ofList (commentText text) ++ " */", line] [line]
      [commentBody (String.ofList (commentText text))] names := by
  obtain ⟨tokens, hread, hnone, hnames⟩ := h
  have hfeed : Reads ['\n'] [.plain '\n'] := Text.reads_singleton (by decide)
  have hblanks : ∀ c ∈ pad.toList, c ∉ Text.openers := by
    intro c hc
    rw [hpad c hc]
    decide
  -- Both texts are read lexeme by lexeme; the one with the comment has its padding, the comment and
  -- a line feed more, and these are what goes with the comment.
  have hbare : Reads (ledLines [line]) (.plain '\n' :: tokens) := by
    have hlist : ledLines [line] = ['\n'] ++ line.toList := by simp [ledLines]
    rw [hlist]
    exact hfeed.append hread
  have hled : Reads
      (ledLines [pad ++ "/** " ++ String.ofList (commentText text) ++ " */", line])
      (.plain '\n' :: (pad.toList.map .plain ++
        .comment (commentBody (String.ofList (commentText text))) :: .plain '\n' :: tokens)) := by
    have hlist : ledLines [pad ++ "/** " ++ String.ofList (commentText text) ++ " */", line] =
        ['\n'] ++ (pad.toList ++ (("/** " ++ String.ofList (commentText text) ++ " */").toList ++
          (['\n'] ++ line.toList))) := by simp [ledLines]
    rw [hlist]
    exact hfeed.append ((Text.reads_of_no_openers hblanks).append
      ((reads_comment text).append (hfeed.append hread)))
  have hnoneLine : (Lexeme.plain '\n' :: tokens).filterMap Lexeme.comment? = [] := hnone
  refine ⟨_, _, hled, hbare, Text.startsLine_cons _, ?_, hnoneLine, ?_, fun rest hrest => ?_⟩
  · rw [List.filterMap_cons_none rfl, List.filterMap_append,
      Lexeme.filterMap_comment?_map_plain, List.nil_append]
    exact congrArg (_ :: ·) hnoneLine
  · rw [List.filterMap_cons_none rfl, List.filterMap_append,
      Lexeme.filterMap_singleQuoted?_map_plain, List.filterMap_cons_none rfl,
      List.filterMap_cons_none rfl, List.nil_append, hnames]
  · have hpadding : ∀ token ∈ pad.toList.map Lexeme.plain, token = .plain ' ' := by
      rw [List.forall_mem_map]
      intro c hc
      rw [hpad c hc]
    rw [List.cons_append, List.append_assoc, List.cons_append, List.cons_append,
      Text.uncomment_commentLine hpadding]
    exact Text.uncomment_append hnoneLine hrest

/-- What is said of the lines holds of the text that they make up. -/
theorem exists_lexemes (h : Uncomments written bare comments names) :
    ∃ tokens, lexemes (lines written).toList = some tokens ∧
      (uncomment tokens).flatMap Lexeme.chars = (lines bare).toList ∧
      tokens.filterMap Lexeme.comment? = comments ∧
      tokens.filterMap Lexeme.singleQuoted? = names.filterMap PropertyKey.quotedBody? := by
  obtain ⟨tokens, bareTokens, hread, hbare, -, hcomments, -, hnames, hstrip⟩ := h
  have hled := hread.lexemes_eq
  have hlost := Text.flatMap_chars_lexemes hbare.lexemes_eq
  have hwhole := hstrip [] Text.startsLine_nil
  rw [List.append_nil] at hwhole
  by_cases hne : written = []
  · subst hne
    obtain rfl : [] = tokens := Option.some.inj hled
    have hnil : bareTokens = [] := by simpa using hwhole.symm
    rw [hnil, List.flatMap_nil, eq_comm, ledLines_eq_nil_iff] at hlost
    exact ⟨[], rfl, hlost ▸ rfl, hcomments, hnames⟩
  -- The line feed before the first line is no part of the text.
  · rw [ledLines_eq_cons hne, Text.lexemes_feed] at hled
    obtain ⟨tokens, htokens, rfl⟩ := Option.map_eq_some_iff.1 hled
    have hnil : uncomment [] = [] := rfl
    rw [Text.uncomment_feed, hnil, List.append_nil] at hwhole
    rw [← hwhole, List.flatMap_cons] at hlost
    have hsome : bare ≠ [] := by
      rintro rfl
      cases hlost
    rw [ledLines_eq_cons hsome] at hlost
    exact ⟨tokens, htokens, (List.cons.inj hlost).2, hcomments, hnames⟩

end Uncomments

/-! ## Forests -/

/-- The route without its description. -/
def Route.undescribed (r : Route) : Route := { r with description := none }

mutual

/-- The tree without the descriptions of its routes. -/
def RouteTree.undescribed : RouteTree → RouteTree
  | .node isDynamic methods children =>
    .node isDynamic (methods.map fun (key, route) => (key, route.undescribed))
      (undescribedForest children)

/-- The forest without the descriptions of its routes. -/
def undescribedForest : List (String × RouteTree) → List (String × RouteTree)
  | [] => []
  | (key, tree) :: rest => (key, tree.undescribed) :: undescribedForest rest

end

/-- The forest without the descriptions of its routes. -/
def RouteForest.undescribed (forest : RouteForest) : RouteForest := undescribedForest forest

/-- What stands between the marks of the comment of a route. -/
def Route.commentBody? (r : Route) : Option (List Char) := r.comment?.map commentBody

/-- The comments of a forest: one for each description that is not empty, in the order of the
routes. -/
def RouteForest.comments (forest : RouteForest) : List (List Char) :=
  forest.routes.filterMap Route.commentBody?

section

variable (names : Route → List String)

/-- The method keys at one place, each before the names that its route shows. -/
def methodNames (methods : List (String × Route)) : List String :=
  methods.flatMap fun (key, route) => key :: names route

mutual

/-- The names that the lines of a tree show. -/
def RouteTree.shownNames : RouteTree → List String
  | .node _ methods children => methodNames names methods ++ forestNames children

/-- The names that the lines of a forest show: the key of each block before those inside it. -/
def forestNames : List (String × RouteTree) → List String
  | [] => []
  | (key, tree) :: rest => key :: tree.shownNames ++ forestNames rest

end

/-- A writer of routes shows these names, and nothing of a description. -/
structure IsWriterOf (write : RouteWriter) : Prop where
  shows : ∀ {route : Route} {level : Int} {text : String},
    write route level = .ok text → Shows (names route) text
  undescribed : ∀ (route : Route) (level : Int), write route.undescribed level = write route level

end

theorem isWriterOf_descriptor : IsWriterOf Route.descriptorNames Route.descriptor where
  shows := Route.shows_descriptor
  undescribed _ _ := rfl

theorem isWriterOf_signature :
    IsWriterOf Route.signatureNames fun route _ => route.signature where
  shows := Route.shows_signature
  undescribed _ _ := rfl

section

variable {names : Route → List String} {write : RouteWriter}

/-- An entry shows its key and then what its text shows. -/
theorem shows_entry {pad key text : String} {names : List String} (hpad : Shows [] pad)
    (htext : Shows names text) :
    Shows (key :: names) (pad ++ PropertyKey.text key ++ ": " ++ text) :=
  have hcolon : Shows [] ": " := shows_of_no_openers (by decide)
  ((hpad.append (shows_propertyKey key)).ended hcolon).append htext

/-- The comment of a route is the text of some description made safe. -/
theorem Route.exists_of_comment?_eq_some {r : Route} {text : String} (h : r.comment? = some text) :
    ∃ cs, text = String.ofList (commentText cs) := by
  unfold comment? at h
  split at h
  · cases h
  · next description _ =>
    split at h
    · cases h
    · exact ⟨description.toList, (Option.some.inj h).symm⟩

/-- The lines of a route lose its comment, if it has one. -/
theorem Uncomments.described {pad line : String} {names : List String} (hpad : Skeleton.IsPad pad)
    (r : Route) (h : Shows names line) :
    Uncomments (r.commentLines pad ++ [line]) [line] r.commentBody?.toList names := by
  rw [Route.commentLines_eq_map, Route.commentBody?]
  cases hcomment : r.comment? with
  | none => exact .line h
  | some text =>
    obtain ⟨cs, rfl⟩ := Route.exists_of_comment?_eq_some hcomment
    exact .commented hpad cs h

/-- The methods lose their comments and nothing else, and the comments are those of the described
methods in order. -/
theorem exists_uncomments_methodLines (hwrite : IsWriterOf names write) {level : Int}
    {methods : List (String × Route)} {written : List String}
    (h : methodLines write level methods = .ok written) :
    ∃ bare, methodLines write level (methods.map fun (key, route) => (key, route.undescribed)) =
        .ok bare ∧
      Uncomments written bare ((methods.map Prod.snd).filterMap Route.commentBody?)
        (methodNames names methods) := by
  induction methods generalizing written with
  | nil =>
    obtain rfl := Except.ok.inj h
    exact ⟨[], rfl, .nil⟩
  | cons entry rest ih =>
    obtain ⟨key, route⟩ := entry
    obtain ⟨text, others, htext, hothers, rfl⟩ := methodLines_cons_eq_ok_iff.1 h
    obtain ⟨bare, hbare, hrest⟩ := ih hothers
    have hpad : Shows [] (padding level ++ "  ") :=
      (shows_padding level).append (shows_of_no_openers (by decide))
    -- The entry is the same with and without the description; the comment stands on its own line.
    have hentry : Shows (key :: names route)
        (padding level ++ "  " ++ PropertyKey.text key ++ ": " ++ text) :=
      shows_entry hpad (hwrite.shows htext)
    refine ⟨[padding level ++ "  " ++ PropertyKey.text key ++ ": " ++ text] ++ bare, ?_, ?_⟩
    · exact methodLines_cons_eq_ok_iff.2
        ⟨text, bare, (hwrite.undescribed _ _).trans htext, hbare, rfl⟩
    · have hpadding : Skeleton.IsPad (padding level ++ "  ") :=
        (Skeleton.isPad_padding level).append_blanks
      have hcomments : (((key, route) :: rest).map Prod.snd).filterMap Route.commentBody? =
          route.commentBody?.toList ++ (rest.map Prod.snd).filterMap Route.commentBody? := by
        rw [List.map_cons, List.filterMap_cons]
        cases route.commentBody? <;> rfl
      rw [hcomments]
      exact (Uncomments.described hpadding route hentry).append hrest

mutual

/-- The lines below a node lose their comments and nothing else, by induction on the tree. -/
theorem RouteTree.exists_uncomments_innerLines (hwrite : IsWriterOf names write) (level : Int) :
    ∀ (tree : RouteTree) {written : List String}, tree.innerLines write level = .ok written →
      ∃ bare, tree.undescribed.innerLines write level = .ok bare ∧
        Uncomments written bare (tree.routes.filterMap Route.commentBody?) (tree.shownNames names)
  | .node isDynamic methods children, written, h => by
    obtain ⟨own, below, hown, hbelow, rfl⟩ := RouteTree.innerLines_eq_ok_iff.1 h
    obtain ⟨ownBare, hownBare, hownLines⟩ := exists_uncomments_methodLines hwrite hown
    obtain ⟨belowBare, hbelowBare, hbelowLines⟩ :=
      exists_uncomments_forestLines hwrite (level + 1) children hbelow
    refine ⟨ownBare ++ belowBare, ?_, ?_⟩
    · exact RouteTree.innerLines_eq_ok_iff.2 ⟨ownBare, belowBare, hownBare, hbelowBare, rfl⟩
    · rw [RouteTree.routes, List.filterMap_append]
      exact hownLines.append hbelowLines

/-- The lines of a forest have the comments of its routes and show its keys and names. Without the
comments they are the lines of the forest without descriptions. -/
theorem exists_uncomments_forestLines (hwrite : IsWriterOf names write) (level : Int) :
    ∀ (forest : List (String × RouteTree)) {written : List String},
      forestLines write level forest = .ok written →
        ∃ bare, forestLines write level (undescribedForest forest) = .ok bare ∧
          Uncomments written bare ((forestRoutes forest).filterMap Route.commentBody?)
            (forestNames names forest)
  | [], written, h => by
    obtain rfl := Except.ok.inj h
    exact ⟨[], rfl, .nil⟩
  | (key, tree) :: rest, written, h => by
    obtain ⟨inner, others, hinner, hothers, rfl⟩ := forestLines_cons_eq_ok_iff.1 h
    obtain ⟨innerBare, hinnerBare, hinnerLines⟩ :=
      tree.exists_uncomments_innerLines hwrite level hinner
    obtain ⟨othersBare, hothersBare, hothersLines⟩ :=
      exists_uncomments_forestLines hwrite level rest hothers
    -- The two lines of a block have no comment, so they stay as they are.
    have hbrace : Shows [] ": \x7b" := shows_of_no_openers (by decide)
    have hopening : Shows [key] (padding level ++ PropertyKey.text key ++ ": \x7b") :=
      ((shows_padding level).append (shows_propertyKey key)).ended hbrace
    have hclosing : Shows [] (padding level ++ "\x7d") :=
      (shows_padding level).append (shows_of_no_openers (by decide))
    refine ⟨[padding level ++ PropertyKey.text key ++ ": \x7b"] ++ innerBare ++
      [padding level ++ "\x7d"] ++ othersBare, ?_, ?_⟩
    · exact forestLines_cons_eq_ok_iff.2 ⟨innerBare, othersBare, hinnerBare, hothersBare, rfl⟩
    · have hlines := (((Uncomments.line hopening).append hinnerLines).append
        (.line hclosing)).append hothersLines
      rw [forestRoutes, List.filterMap_append]
      simpa [forestNames] using hlines

end

end

/-! ## Whole texts -/

/-- What is said of the lines of a forest holds of its text. -/
theorem exists_lexemes_of_forestLines {names : Route → List String} {write : RouteWriter}
    (hwrite : IsWriterOf names write) {forest : RouteForest} {level : Int} {text : String}
    (h : (forestLines write level forest).map lines = .ok text) :
    ∃ tokens bare, (forestLines write level forest.undescribed).map lines = .ok bare ∧
      lexemes text.toList = some tokens ∧
      (uncomment tokens).flatMap Lexeme.chars = bare.toList ∧
      tokens.filterMap Lexeme.comment? = forest.comments ∧
      tokens.filterMap Lexeme.singleQuoted? =
        (forestNames names forest).filterMap PropertyKey.quotedBody? := by
  obtain ⟨written, hwritten, rfl⟩ := Outcome.map_eq_ok.1 h
  obtain ⟨bare, hbare, huncomments⟩ := exists_uncomments_forestLines hwrite level forest hwritten
  obtain ⟨tokens, htokens, hrest⟩ := huncomments.exists_lexemes
  exact ⟨tokens, lines bare, Outcome.map_eq_ok.2 ⟨bare, hbare, rfl⟩, htokens, hrest⟩

namespace RouteForest

/-- The text of a body is cut into its lexemes, and without the comments it is that of the other
body. -/
theorem comments_of_exists_lexemes {forest : RouteForest} {text bare : String}
    {tokens : List Lexeme} (htokens : lexemes text.toList = some tokens)
    (hbare : (uncomment tokens).flatMap Lexeme.chars = bare.toList)
    (hcomments : tokens.filterMap Lexeme.comment? = forest.comments) :
    Text.uncommented? text = some bare ∧ Text.comments? text = some forest.comments := by
  rw [Text.uncommented?, Text.comments?, htokens, Option.map_some, Option.map_some, hbare,
    hcomments, String.ofList_toList]
  exact ⟨rfl, rfl⟩

/-- Descriptions are comments and nothing else. Without its comments each declaration is the one of
the forest without descriptions, and the comments are those of the descriptions, one after the
other: whatever a description holds, its comment ends at its own mark. -/
theorem descriptions_are_comments (forest : RouteForest) (level : Int) :
    (∀ text, forest.contractType level = .ok text →
      ∃ bare, forest.undescribed.contractType level = .ok bare ∧
        Text.uncommented? text = some bare ∧ Text.comments? text = some forest.comments) ∧
    ∀ text, forest.clientType level = .ok text →
      ∃ bare, forest.undescribed.clientType level = .ok bare ∧
        Text.uncommented? text = some bare ∧ Text.comments? text = some forest.comments := by
  constructor
  · intro text h
    obtain ⟨tokens, bare, hbare, htokens, hlost, hcomments, -⟩ :=
      exists_lexemes_of_forestLines isWriterOf_descriptor h
    exact ⟨bare, hbare, comments_of_exists_lexemes htokens hlost hcomments⟩
  · intro text h
    obtain ⟨tokens, bare, hbare, htokens, hlost, hcomments, -⟩ :=
      exists_lexemes_of_forestLines isWriterOf_signature h
    exact ⟨bare, hbare, comments_of_exists_lexemes htokens hlost hcomments⟩

/-- A description with marks, quotes and line feeds, among keys that look like marks. -/
def markedForest : RouteForest :=
  [("/*", .node false
    [("get", ⟨"GET", "/x", none, some "/ **/ ' */*\n*", false,
      ⟨none, some (.fields [("*/", .unknown)] []), none, none⟩⟩)] [])]

/-- The comment of its route. -/
def markedComment : List Char := "* / **\\/ ' *\\/*\n* ".toList

/-- Its contract type without the comment. -/
def markedContract : String :=
  lines ["  '/*': \x7b",
    "    get: \x7b",
    "      query: \x7b '*/'?: unknown \x7d",
    "      return: any",
    "    \x7d",
    "  \x7d"]

/-- Its interface without the comment. -/
def markedClient : String :=
  lines ["  '/*': \x7b",
    "    get: (query?: \x7b '*/'?: unknown \x7d, config?: RequestConfig) => " ++
      "Promise<ApiResponse<any>>",
    "  \x7d"]

theorem descriptions_are_comments_markedForest :
    (∃ text, markedForest.contractType 1 = .ok text ∧
      Text.uncommented? text = some markedContract ∧
      Text.comments? text = some [markedComment]) ∧
    ∃ text, markedForest.clientType 1 = .ok text ∧
      Text.uncommented? text = some markedClient ∧
      Text.comments? text = some [markedComment] := by
  obtain ⟨hcontract, hclient⟩ := descriptions_are_comments markedForest 1
  have hcomments : markedForest.comments = [markedComment] := by decide +kernel
  have hbareContract : markedForest.undescribed.contractType 1 = .ok markedContract := by
    decide +kernel
  have hbareClient : markedForest.undescribed.clientType 1 = .ok markedClient := by decide +kernel
  rw [hcomments, hbareContract] at hcontract
  rw [hcomments, hbareClient] at hclient
  constructor
  · obtain ⟨text, htext⟩ := Outcome.exists_of_isOk
      (show (markedForest.contractType 1).isOk = true by decide +kernel)
    obtain ⟨bare, hbare, hfound⟩ := hcontract text htext
    obtain rfl := Except.ok.inj hbare
    exact ⟨text, htext, hfound⟩
  · obtain ⟨text, htext⟩ := Outcome.exists_of_isOk
      (show (markedForest.clientType 1).isOk = true by decide +kernel)
    obtain ⟨bare, hbare, hfound⟩ := hclient text htext
    obtain rfl := Except.ok.inj hbare
    exact ⟨text, htext, hfound⟩

end RouteForest
end TypedRoutes
