import Mathlib.Data.List.Infix
import TypedRoutes.Client.Artifact
import TypedRoutes.Contract.OfDocument
import TypedRoutes.Proofs.Outcome

/-!
# The header comment

The comment at the top of a client module shows the version and the date of the contract as they
are: nothing splits a closing mark in them, as `commentText` does in a description. So the comment
ends at its own mark if and only if neither of the two texts holds one; otherwise it ends inside the
first text that does, and the rest of that text stands outside the comment
(`Artifact.headerComment_ends_iff`).

The first closing mark of a text is found by `Text.closing?`. It is looked for piece by piece: a
piece without a mark is passed over (`Text.closing?_append_of_eq_none`), and a mark in a piece is
the first one whatever follows (`Text.closing?_append_of_eq_some`).
-/

set_option autoImplicit false

namespace TypedRoutes

namespace Text

/-! ## The first closing mark -/

/-- What stands before the first mark that closes a comment, and what follows the mark. -/
def closing? : List Char → Option (List Char × List Char)
  | '*' :: '/' :: rest => some ([], rest)
  | c :: rest => (closing? rest).map fun (before, after) => (c :: before, after)
  | [] => none

/-- Does the text hold a mark that closes a comment? -/
def ClosesComment (text : String) : Prop := ['*', '/'] <:+: text.toList

instance (text : String) : Decidable (ClosesComment text) :=
  inferInstanceAs (Decidable (_ <:+: _))

/-- A character that begins no end of a comment is passed over. -/
theorem closing?_cons {c : Char} {rest : List Char}
    (h : ∀ tail, c = '*' → rest = '/' :: tail → False) :
    closing? (c :: rest) = (closing? rest).map fun (before, after) => (c :: before, after) := by
  rw [closing?]
  exact h

/-- The search for the end of a comment divides the text at the end found. -/
theorem eq_append_of_closing? {cs before after : List Char}
    (h : closing? cs = some (before, after)) : cs = before ++ '*' :: '/' :: after := by
  fun_induction closing? cs generalizing before with
  | case1 rest =>
    obtain ⟨rfl, rfl⟩ := Prod.mk.inj (Option.some.inj h)
    rfl
  | case2 c rest _ ih =>
    obtain ⟨⟨inner, left⟩, hinner, heq⟩ := Option.map_eq_some_iff.1 h
    obtain ⟨rfl, rfl⟩ := Prod.mk.inj heq
    rw [ih hinner, List.cons_append]
  | case3 => cases h

/-- The search fails exactly on the texts that hold no end of a comment. -/
theorem closing?_eq_none_iff {cs : List Char} : closing? cs = none ↔ ¬ ['*', '/'] <:+: cs := by
  fun_induction closing? cs with
  | case1 rest => simp [List.infix_cons_iff]
  | case2 c rest hmark ih =>
    have hfirst : ¬ ['*', '/'] <+: c :: rest := by
      rintro ⟨tail, htail⟩
      obtain ⟨rfl, rfl⟩ := List.cons.inj htail
      exact hmark tail rfl rfl
    rw [Option.map_eq_none_iff, ih, List.infix_cons_iff]
    simp [hfirst]
  | case3 => simp

/-- A mark that closes a comment leaves a shorter text before it. -/
theorem exists_closing?_of_closesComment {text : String} (h : ClosesComment text) :
    ∃ before left, closing? text.toList = some (before, left) ∧
      before.length < text.toList.length := by
  cases hclosing : closing? text.toList with
  | none => exact absurd h (closing?_eq_none_iff.1 hclosing)
  | some cut =>
    obtain ⟨before, left⟩ := cut
    refine ⟨before, left, rfl, ?_⟩
    rw [eq_append_of_closing? hclosing, List.length_append, List.length_cons]
    omega

/-- A text that would be cut at its first mark holds none if the cut is behind it. -/
theorem not_closesComment_of_closing? {text : String} {whole own rest lead : List Char}
    (hown : closing? whole = some (own, rest))
    (hcut : ∀ before left, closing? text.toList = some (before, left) →
      ∃ after, closing? whole = some (lead ++ before, left ++ after))
    (hlength : lead.length + text.toList.length ≤ own.length) : ¬ ClosesComment text := by
  intro hmark
  obtain ⟨before, left, hclosing, hshorter⟩ := exists_closing?_of_closesComment hmark
  obtain ⟨after, hends⟩ := hcut before left hclosing
  rw [hown] at hends
  -- A comment that ends inside the text would be shorter than the whole one.
  have hcomment := congrArg List.length (Prod.mk.inj (Option.some.inj hends)).1
  rw [List.length_append] at hcomment
  omega

/-- An end that is found stays the first one however the text goes on. -/
theorem closing?_append_of_eq_some {cs before after : List Char} (ds : List Char)
    (h : closing? cs = some (before, after)) :
    closing? (cs ++ ds) = some (before, after ++ ds) := by
  fun_induction closing? cs generalizing before with
  | case1 rest =>
    obtain ⟨rfl, rfl⟩ := Prod.mk.inj (Option.some.inj h)
    rfl
  | case2 c rest hmark ih =>
    obtain ⟨⟨inner, left⟩, hinner, heq⟩ := Option.map_eq_some_iff.1 h
    obtain ⟨rfl, rfl⟩ := Prod.mk.inj heq
    have hrest := ih hinner
    rw [List.cons_append, closing?_cons, hrest]
    · rfl
    -- A mark at the front would be one of `cs`, whose rest is not empty.
    · intro tail hc hslash
      cases rest with
      | nil => cases hinner
      | cons d rest => exact hmark rest hc (by rw [(List.cons.inj hslash).1])
  | case3 => cases h

/-- A piece without a mark is passed over, unless a mark begins at its end. -/
theorem closing?_append_of_eq_none {cs : List Char} (ds : List Char) (h : closing? cs = none)
    (hjoint : cs.getLast? ≠ some '*' ∨ ds.head? ≠ some '/') :
    closing? (cs ++ ds) = (closing? ds).map fun (before, after) => (cs ++ before, after) := by
  fun_induction closing? cs with
  | case1 rest => cases h
  | case2 c rest hmark ih =>
    have hrest := Option.map_eq_none_iff.1 h
    have hjoint' : rest.getLast? ≠ some '*' ∨ ds.head? ≠ some '/' := by
      refine hjoint.imp_left ?_
      intro hlast hlast'
      rw [List.getLast?_cons, hlast'] at hlast
      exact hlast rfl
    rw [List.cons_append, closing?_cons, ih hrest hjoint', Option.map_map]
    · rfl
    · intro tail hc hslash
      cases rest with
      | nil =>
        obtain rfl : ds = '/' :: tail := hslash
        rcases hjoint with hlast | hhead
        · exact hlast (congrArg some hc)
        · exact hhead rfl
      | cons d rest => exact hmark rest hc (by rw [(List.cons.inj hslash).1])
  | case3 => simp

end Text

/-! ## The header -/

namespace Artifact

open Text (closing? ClosesComment)

/-- The header comment up to the date of the contract. -/
def headerOpening : String :=
  lines ["/**", " * Auto-generated API type definitions", " * Generated at: "]

/-- The header comment between the date and the version. -/
def headerBetween : String := lines ["", " * Version: "]

/-- The header comment after the version, up to its own closing mark. -/
def headerEnding : String :=
  lines ["", " *", " * Do not edit this file by hand; regenerate it with `api-sync sync`", " "]

/-- The header comment without its own closing mark. -/
def headerComment (c : Contract) : String :=
  headerOpening ++ c.generatedAt ++ headerBetween ++ c.version ++ headerEnding

/-- The header of a module is its comment and the two characters that are meant to end it. -/
theorem lines_header (c : Contract) : lines (header c) = headerComment c ++ "*/\n" := by
  have hmark : " */" = " " ++ "*/" := rfl
  have hfeed : "*/\n" = "*/" ++ "\n" := rfl
  simp only [lines, header, headerComment, headerOpening, headerBetween, headerEnding, hmark, hfeed,
    String.intercalate_cons_cons, String.intercalate_singleton, String.append_assoc,
    String.empty_append, String.append_empty]

/-- The lines of a module after its header. -/
def bodyLines (streaming : Bool) (contractBody clientBody : String) : List String :=
  imports streaming ++ callbacks streaming ++
    declaration "/** API contract type */" "export type Api = \x7b" contractBody ++
    declaration "/** API client type (full IDE completion) */" "export interface ApiClient \x7b"
      clientBody ++
    factory

/-- A module is its header and what follows it. -/
theorem exists_eq_header_append {c : Contract} {mount : Option String} {text : String}
    (h : ofContract c mount = .ok text) :
    ∃ contractBody clientBody,
      (RouteForest.ofRoutes mount c.routes).contractType 1 = .ok contractBody ∧
      (RouteForest.ofRoutes mount c.routes).clientType 1 = .ok clientBody ∧
      text = headerComment c ++ "*/\n\n" ++
        lines (bodyLines c.isStreaming contractBody clientBody) := by
  obtain ⟨contractBody, clientBody, hcontract, hclient, rfl⟩ := Outcome.seq_eq_ok.1 h
  refine ⟨contractBody, clientBody, hcontract, hclient, ?_⟩
  have hsplit : moduleLines c contractBody clientBody =
      header c ++ bodyLines c.isStreaming contractBody clientBody := by
    simp only [moduleLines, bodyLines, List.append_assoc]
  have hheader : header c ≠ [] := List.cons_ne_nil _ _
  have hbody : bodyLines c.isStreaming contractBody clientBody ≠ [] := by
    simp [bodyLines, imports]
  have hmark : "*/\n\n" = "*/\n" ++ "\n" := rfl
  rw [hsplit, lines, String.intercalate_append_of_ne_nil hheader hbody, ← lines,
    lines_header, hmark]
  simp only [lines, String.append_assoc]

/-! ## Where the header comment ends -/

section

variable {c : Contract} (rest : List Char)

/-- The header comment piece by piece: the two values stand between fixed texts. -/
theorem toList_headerComment_append (c : Contract) :
    (headerComment c).toList ++ rest = headerOpening.toList ++ (c.generatedAt.toList ++
      (headerBetween.toList ++ (c.version.toList ++ (headerEnding.toList ++ rest)))) := by
  simp only [headerComment, String.toList_append, List.append_assoc]

/-- The text holds no mark, and none begins at its end. -/
def IsUnmarked (cs : List Char) : Prop := closing? cs = none ∧ cs.getLast? ≠ some '*'

instance (cs : List Char) : Decidable (IsUnmarked cs) := instDecidableAnd

/-- An unmarked text does not end with half a mark, so the search goes on behind it. -/
theorem IsUnmarked.closing?_append {cs : List Char} (h : IsUnmarked cs) (ds : List Char) :
    closing? (cs ++ ds) = (closing? ds).map fun (before, after) => (cs ++ before, after) :=
  Text.closing?_append_of_eq_none ds h.1 (.inl h.2)

theorem isUnmarked_headerOpening : IsUnmarked headerOpening.toList := by
  simp only [headerOpening, lines, String.toList_intercalate, List.map_cons, List.map_nil]
  repeat rw [String.toList_ofList]
  decide +kernel

theorem isUnmarked_headerBetween : IsUnmarked headerBetween.toList := by
  simp only [headerBetween, lines, String.toList_intercalate, List.map_cons, List.map_nil]
  repeat rw [String.toList_ofList]
  decide +kernel

theorem isUnmarked_headerEnding : IsUnmarked headerEnding.toList := by
  simp only [headerEnding, lines, String.toList_intercalate, List.map_cons, List.map_nil]
  repeat rw [String.toList_ofList]
  decide +kernel

/-- A mark in the date ends the comment. -/
theorem closing?_of_generatedAt {before left : List Char}
    (h : closing? c.generatedAt.toList = some (before, left)) :
    ∃ after, closing? ((headerComment c).toList ++ rest) =
      some (headerOpening.toList ++ before, left ++ after) := by
  rw [toList_headerComment_append, isUnmarked_headerOpening.closing?_append,
    Text.closing?_append_of_eq_some _ h]
  exact ⟨_, rfl⟩

/-- Without one in the date, a mark in the version ends it. -/
theorem closing?_of_version (hdate : closing? c.generatedAt.toList = none)
    {before left : List Char} (h : closing? c.version.toList = some (before, left)) :
    ∃ after, closing? ((headerComment c).toList ++ rest) =
      some ((headerOpening ++ c.generatedAt ++ headerBetween).toList ++ before, left ++ after) := by
  rw [toList_headerComment_append, isUnmarked_headerOpening.closing?_append,
    Text.closing?_append_of_eq_none _ hdate (.inr (by simp [headerBetween, lines])),
    isUnmarked_headerBetween.closing?_append, Text.closing?_append_of_eq_some _ h]
  refine ⟨headerEnding.toList ++ rest, ?_⟩
  simp only [Option.map_some, String.toList_append, List.append_assoc]

/-- Without a mark in either, the comment ends at its own. -/
theorem closing?_of_none (hdate : closing? c.generatedAt.toList = none)
    (hversion : closing? c.version.toList = none) :
    closing? ((headerComment c).toList ++ '*' :: '/' :: rest) =
      some ((headerComment c).toList, rest) := by
  have hending : closing? (headerEnding.toList ++ '*' :: '/' :: rest) =
      some (headerEnding.toList, rest) := by
    rw [isUnmarked_headerEnding.closing?_append]
    simp [closing?]
  rw [toList_headerComment_append, isUnmarked_headerOpening.closing?_append,
    Text.closing?_append_of_eq_none _ hdate (.inr (by simp [headerBetween, lines])),
    isUnmarked_headerBetween.closing?_append,
    Text.closing?_append_of_eq_none _ hversion (.inr (by simp [headerEnding, lines])), hending]
  simp only [Option.map_some, headerComment, String.toList_append, List.append_assoc]

end

/-- The header comment of a module ends at its own closing mark if and only if neither the date nor
the version of the contract holds such a mark. If the date holds one, the comment ends there, and
the rest of the date stands outside it; otherwise the same is true of the version. -/
theorem headerComment_ends_iff {c : Contract} {mount : Option String} {text : String}
    (h : ofContract c mount = .ok text) :
    (∃ rest, text.toList = (headerComment c).toList ++ '*' :: '/' :: rest ∧
      (closing? text.toList = some ((headerComment c).toList, rest) ↔
        ¬ ClosesComment c.generatedAt ∧ ¬ ClosesComment c.version)) ∧
    (∀ before left, closing? c.generatedAt.toList = some (before, left) →
      ∃ after, closing? text.toList = some (headerOpening.toList ++ before, left ++ after)) ∧
    (¬ ClosesComment c.generatedAt →
      ∀ before left, closing? c.version.toList = some (before, left) →
        ∃ after, closing? text.toList =
          some ((headerOpening ++ c.generatedAt ++ headerBetween).toList ++ before,
            left ++ after)) := by
  obtain ⟨contractBody, clientBody, -, -, rfl⟩ := exists_eq_header_append h
  obtain ⟨rest, hrest⟩ : ∃ rest, (headerComment c ++ "*/\n\n" ++
      lines (bodyLines c.isStreaming contractBody clientBody)).toList =
        (headerComment c).toList ++ '*' :: '/' :: rest :=
    ⟨_, by simp only [String.toList_append, List.append_assoc]; rfl⟩
  have hdate (before left : List Char) (hd : closing? c.generatedAt.toList = some (before, left)) :=
    closing?_of_generatedAt ('*' :: '/' :: rest) hd
  have hversion (hd : ¬ ClosesComment c.generatedAt) (before left : List Char)
      (hv : closing? c.version.toList = some (before, left)) :=
    closing?_of_version ('*' :: '/' :: rest) (Text.closing?_eq_none_iff.2 hd) hv
  rw [hrest]
  refine ⟨⟨rest, rfl, ?_⟩, hdate, hversion⟩
  constructor
  · intro hown
    -- A mark within a value would end the comment before its own end: the lengths tell them apart.
    have hlength := congrArg List.length (toList_headerComment_append [] c)
    simp only [List.append_nil, List.length_append] at hlength
    have hd : ¬ ClosesComment c.generatedAt := by
      refine Text.not_closesComment_of_closing? hown (hdate · · ·) ?_
      omega
    refine ⟨hd, Text.not_closesComment_of_closing? hown (hversion hd · · ·) ?_⟩
    simp only [String.toList_append, List.length_append]
    omega
  · rintro ⟨hd, hv⟩
    exact closing?_of_none rest (Text.closing?_eq_none_iff.2 hd) (Text.closing?_eq_none_iff.2 hv)

/-- The document of a contract without routes, with a version and a date. -/
def datedDocument (version generatedAt : String) : Document :=
  ⟨#[.list [], .map [(.str "version", .scalar (.str version)),
    (.str "generatedAt", .scalar (.str generatedAt)), (.str "routes", .node 0)]], .node 1⟩

/-- Every two texts are the version and the date of some contract, and its module is generated. -/
theorem exists_ofContract_datedDocument (version generatedAt : String) :
    Contract.ofDocument (datedDocument version generatedAt) = .ok ⟨version, generatedAt, []⟩ ∧
      ∃ text, ofContract ⟨version, generatedAt, []⟩ none = .ok text :=
  ⟨rfl, _, rfl⟩

/-- A date with the parts of a mark, but not the mark. -/
theorem headerComment_ends_iff_separateMarks :
    ∃ text rest, ofContract ⟨"2", "/* 1 * / 2 *", []⟩ none = .ok text ∧
      closing? text.toList = some ((headerComment ⟨"2", "/* 1 * / 2 *", []⟩).toList, rest) := by
  obtain ⟨-, text, htext⟩ := exists_ofContract_datedDocument "2" "/* 1 * / 2 *"
  obtain ⟨⟨rest, -, hends⟩, -⟩ := headerComment_ends_iff htext
  exact ⟨text, rest, htext, hends.2 (by decide)⟩

/-- A version that closes the comment: what follows the mark in it is text of the module. -/
theorem headerComment_closedByVersion :
    ∃ c text before after,
      Contract.ofDocument (datedDocument "1 */ alert() /*" "now") = .ok c ∧
      ofContract c none = .ok text ∧
      closing? text.toList = some (before, " alert() /*".toList ++ after) ∧
      before ≠ (headerComment c).toList := by
  obtain ⟨hcontract, text, htext⟩ := exists_ofContract_datedDocument "1 */ alert() /*" "now"
  obtain ⟨contractBody, clientBody, -, -, rfl⟩ := exists_eq_header_append htext
  have hdate : closing? "now".toList = none := by decide
  have hversion : closing? "1 */ alert() /*".toList = some ("1 ".toList, " alert() /*".toList) := by
    decide
  obtain ⟨after, hends⟩ := closing?_of_version
    ("*/\n\n" ++ lines (bodyLines false contractBody clientBody)).toList
    (c := ⟨"1 */ alert() /*", "now", []⟩) hdate hversion
  rw [← String.toList_append, ← String.append_assoc] at hends
  refine ⟨_, _, _, after, hcontract, htext, hends, ?_⟩
  -- What is left of the comment ends within the version.
  intro heq
  have hlength := congrArg List.length heq
  simp [headerComment] at hlength

end Artifact
end TypedRoutes
