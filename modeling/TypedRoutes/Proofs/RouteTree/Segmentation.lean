import TypedRoutes.Proofs.RouteTree.Mount
import TypedRoutes.Proofs.RouteTree.Spelling

/-!
# Segments and the paths that have them

A path is cut at any separator, whatever stands on either side (`segments_append`). With this, what
is said of the segments of all paths is proved by taking away the first segment or the first
separator (`segment_induction`).

Segments are texts that are not empty and have no separator. Joined with one separator or more
between two of them and with any number at the ends they are the segments of the path
(`segments_joined`, `segments_padded`), and every path is joined in this way
(`exists_eq_padded_joined`). The key of a canonical segment is canonical (`canonical_canonical`).
-/

set_option autoImplicit false

namespace TypedRoutes.RoutePath

/-- A text that is not empty and has no separator. -/
def IsSegment (text : String) : Prop := text ≠ "" ∧ '/' ∉ text.toList

instance : DecidablePred IsSegment := fun _ => inferInstanceAs (Decidable (_ ∧ _))

/-- Texts with separators between them: behind each text but the last one separator, and `extra`
more for its place. -/
def joined (extra : Nat → Nat) : List String → String
  | [] => ""
  | [part] => part
  | part :: next :: rest =>
    part ++ String.ofList (separators (extra 0 + 1)) ++
      joined (fun place => extra (place + 1)) (next :: rest)

example : padded 2 (joined (fun place => 2 * place) ["a", "b", ":c"]) 1 = "//a/b///:c/" := by decide

/-! ## Paths by their segments -/

/-- A path is empty, a single segment, or begins with a separator or with a segment and a separator
behind it. -/
@[elab_as_elim]
theorem segment_induction {motive : String → Prop} (empty : motive "")
    (segment : ∀ text, IsSegment text → motive text)
    (separator : ∀ rest, motive rest → motive ("/" ++ rest))
    (cons : ∀ text rest, IsSegment text → motive rest → motive (text ++ "/" ++ rest))
    (path : String) : motive path := by
  have hlast (text : String) (htext : '/' ∉ text.toList) : motive text := by
    by_cases hne : text = ""
    · exact hne ▸ empty
    · exact segment text ⟨hne, htext⟩
  have hcut (text rest : String) (htext : '/' ∉ text.toList) (hrest : motive rest) :
      motive (text ++ "/" ++ rest) := by
    by_cases hne : text = ""
    · subst hne
      rw [String.empty_append]
      exact separator rest hrest
    · exact cons text rest ⟨hne, htext⟩ hrest
  -- The text in front of the next separator is collected on the way to it.
  have hcollected (cs : List Char) :
      ∀ text : String, '/' ∉ text.toList → motive (text ++ String.ofList cs) := by
    induction cs with
    | nil => simpa using hlast
    | cons c cs ih =>
      intro text htext
      by_cases hc : c = '/'
      · have hrest : motive (String.ofList cs) := by simpa using ih "" (by simp)
        have hsplit : text ++ String.ofList (c :: cs) = text ++ "/" ++ String.ofList cs :=
          String.ext (by simp [hc])
        exact hsplit ▸ hcut text _ htext hrest
      · have hsplit : text ++ String.ofList (c :: cs) = text.push c ++ String.ofList cs :=
          String.ext (by simp)
        exact hsplit ▸ ih (text.push c) (by simp [htext, Ne.symm hc])
  simpa using hcollected path.toList "" (by simp)

/-- A segment is not cut any further. -/
theorem segments_of_isSegment {text : String} (h : IsSegment text) : segments text = [text] :=
  segments_eq_singleton h.1 h.2

/-- A segment in front of a separator is the first of the path. -/
theorem segments_cons {text : String} (h : IsSegment text) (rest : String) :
    segments (text ++ "/" ++ rest) = text :: segments rest := by
  rw [segments_append, segments_of_isSegment h, List.singleton_append]

/-- What a path is cut into are segments: none is empty or holds a separator. -/
theorem isSegment_of_mem_segments {path segment : String} (h : segment ∈ segments path) :
    IsSegment segment := by
  induction path using segment_induction with
  | empty => simp at h
  | segment text htext =>
    rw [segments_of_isSegment htext, List.mem_singleton] at h
    exact h ▸ htext
  | separator rest ih =>
    rw [segments_slash_append] at h
    exact ih h
  | cons text rest htext ih =>
    rw [segments_cons htext, List.mem_cons] at h
    obtain rfl | h := h
    · exact htext
    · exact ih h

/-! ## Joined segments -/

theorem padded_eq (before : Nat) (path : String) (after : Nat) :
    padded before path after =
      String.ofList (separators before) ++ path ++ String.ofList (separators after) := by
  apply String.ext
  simp [padded]

/-- Paths with separators between them are cut one after the other, however many separators there
are. -/
theorem segments_append_separators (a b : String) (n : Nat) :
    segments (a ++ String.ofList (separators (n + 1)) ++ b) = segments a ++ segments b := by
  induction n generalizing a with
  | zero => exact segments_append a b
  | succ n ih =>
    have hcut : a ++ String.ofList (separators (n + 2)) ++ b =
        a ++ "/" ++ String.ofList (separators (n + 1)) ++ b := by
      apply String.ext
      simp [separators, List.replicate_succ]
    rw [hcut, ih, segments_append_slash]

/-- Separators at the ends of a path add no segments. -/
theorem segments_padded (before : Nat) (path : String) (after : Nat) :
    segments (padded before path after) = segments path := by
  have hbefore : segments (String.ofList (separators before) ++ path) = segments path := by
    cases before with
    | zero => simp [separators]
    | succ n => simpa using segments_append_separators "" path n
  rw [padded_eq]
  cases after with
  | zero => simpa [separators] using hbefore
  | succ n =>
    rw [← hbefore]
    simpa using segments_append_separators (String.ofList (separators before) ++ path) "" n

/-- Segments that are joined with any number of separators are cut as they were. -/
theorem segments_joined {parts : List String} (h : ∀ part ∈ parts, IsSegment part)
    (extra : Nat → Nat) : segments (joined extra parts) = parts := by
  induction parts generalizing extra with
  | nil => exact segments_empty
  | cons part rest ih =>
    obtain ⟨hpart, hrest⟩ := List.forall_mem_cons.1 h
    cases rest with
    | nil => exact segments_of_isSegment hpart
    | cons next rest =>
      rw [joined, segments_append_separators, segments_of_isSegment hpart, ih hrest,
        List.singleton_append]

/-- Every path is joined from its segments. -/
theorem exists_eq_padded_joined (path : String) :
    ∃ before extra after, path = padded before (joined extra (segments path)) after := by
  induction path using segment_induction with
  | empty => exact ⟨0, fun _ => 0, 0, by decide⟩
  | segment text htext =>
    refine ⟨0, fun _ => 0, 0, ?_⟩
    rw [segments_of_isSegment htext]
    simp [padded, joined, separators]
  | separator rest ih =>
    obtain ⟨before, extra, after, hrest⟩ := ih
    refine ⟨before + 1, extra, after, ?_⟩
    rw [segments_slash_append]
    nth_rewrite 1 [hrest]
    apply String.ext
    simp [padded, separators, List.replicate_succ]
  | cons text rest htext ih =>
    obtain ⟨before, extra, after, hrest⟩ := ih
    rw [segments_cons htext]
    nth_rewrite 1 [hrest]
    cases segments rest with
    -- All separators stand behind the text, which is the last one.
    | nil =>
      refine ⟨0, extra, before + after + 1, String.ext ?_⟩
      simp [padded, joined, separators, List.replicate_succ]
    | cons next parts =>
      -- What stood in front of the rest now stands behind the text.
      refine ⟨0, fun place => if place = 0 then before else extra (place - 1), after,
        String.ext ?_⟩
      simp [padded, joined, separators, List.replicate_succ]

/-! ## Canonical segments -/

/-- A segment is dynamic and has the common key, or it is its own key. -/
theorem canonical_eq_or (segment : String) :
    canonical segment = (dynamicKey, true) ∨ canonical segment = (segment, false) := by
  unfold canonical
  split
  · exact .inl rfl
  · exact .inr rfl

/-- The key of a segment stays as it is. -/
theorem canonical_canonical (segment : String) :
    canonical (canonical segment).1 = canonical segment := by
  obtain h | h := canonical_eq_or segment
  · rw [h]
    decide
  · rw [h]
    exact h

/-- A path is cut at every separator: the segments in front of it and those behind it do not depend
on each other. Segments are not empty and have no separator. Any such texts are the segments of the
paths that are joined from them with one separator or more between two and any number at the ends,
and every path is joined in this way from its own. The key of a canonical segment is canonical, and
the segment is dynamic exactly if this key is the dynamic one. -/
theorem segments_joined_canonical :
    (∀ a b : String, segments (a ++ "/" ++ b) = segments a ++ segments b) ∧
    (∀ path, ∀ segment ∈ segments path, IsSegment segment) ∧
    (∀ parts, (∀ part ∈ parts, IsSegment part) →
      ∀ before extra after, segments (padded before (joined extra parts) after) = parts) ∧
    (∀ path, ∃ before extra after, path = padded before (joined extra (segments path)) after) ∧
    ∀ segment, canonical (canonical segment).1 = canonical segment ∧
      ((canonical segment).2 = true ↔ (canonical segment).1 = dynamicKey) := by
  refine ⟨segments_append, fun path segment => isSegment_of_mem_segments, ?_,
    exists_eq_padded_joined, fun segment => ⟨canonical_canonical segment, ?_⟩⟩
  · intro parts hparts before extra after
    rw [segments_padded, segments_joined hparts]
  · rw [canonical_snd, decide_eq_true_iff]

/-- Three segments with three separators and with one between them. -/
theorem segments_joined_canonical_uneven :
    (∀ part ∈ ["users", ":userId", "posts"], IsSegment part) ∧
      segments "//users///:userId/posts/" = ["users", ":userId", "posts"] := by
  have hparts : ∀ part ∈ ["users", ":userId", "posts"], IsSegment part := by decide
  have hpath : padded 2 (joined (fun place => if place = 0 then 2 else 0)
      ["users", ":userId", "posts"]) 1 = "//users///:userId/posts/" := by decide
  obtain ⟨-, -, hjoined, -, -⟩ := segments_joined_canonical
  exact ⟨hparts, hpath ▸ hjoined _ hparts _ _ _⟩

end TypedRoutes.RoutePath
