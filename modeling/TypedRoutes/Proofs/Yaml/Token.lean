import Mathlib.Data.List.InsertIdx
import TypedRoutes.Proofs.Outcome
import TypedRoutes.Yaml.Scalar
import TypedRoutes.Yaml.Token.Stream

/-!
# The faults of tokens

Where the faults of YAML documents come from. `Fault.Arises` lists the origins: a breach of the
format, nesting beyond the limits, an escape beyond the last code point or for half of a pair, a
version that is no number within the limit, and a value that its tag does not fit. No part that
makes tokens fails in another way, so the fault that can stand in the place of a token is one of
these (`Token.arises_of_mem_ofText`).
-/

set_option autoImplicit false

namespace TypedRoutes.Yaml

open Outcome

/-- Where a fault comes from. -/
inductive Fault.Arises : Fault → Prop
  | malformed : Arises .malformed
  | nesting : Arises .nesting
  | codePoint {code : Nat} : 0x10FFFF < code → Arises (.codePoint code)
  | unpaired {half : Nat} : 0xD800 ≤ half → half ≤ 0xDFFF → Arises (.unpaired half)
  | version {text : String} {fault : Numeral.Fault} :
      Numeral.readInteger 10 text = .error fault → Arises (.integer fault)
  | scalar {tag : Tag} {text : String} {fault : Fault} :
      tag.read? text = some (.error fault) → Arises fault
  | timestampMapping : Arises .timestampMapping

attribute [simp] Fault.Arises.malformed Fault.Arises.nesting Fault.Arises.timestampMapping

/-! ## Block scalars -/

namespace Block

@[simp] theorem failsOnly_increment? (c : Cursor) : FailsOnly Fault.Arises (increment? c) := by
  unfold increment?
  split <;> simp

@[simp] theorem failsOnly_lineEnd (c : Cursor) : FailsOnly Fault.Arises (lineEnd c) := by
  unfold lineEnd
  dsimp only
  split <;> simp

@[simp] theorem failsOnly_header (c : Cursor) : FailsOnly Fault.Arises (header c) := by
  unfold header
  split
  · simp
  · simp only [bind_pure_comp, pure_bind, failsOnly_bind, failsOnly_increment?, Prod.forall,
      true_and]
    intro increment _ _
    split <;> simp

@[simp] theorem failsOnly_read (folded : Bool) (parent : Int) (c : Cursor) :
    FailsOnly Fault.Arises (read folded parent c) := by
  simp [read]

end Block

/-! ## Names -/

namespace Name

@[simp] theorem failsOnly_anchor (c : Cursor) : FailsOnly Fault.Arises (anchor c) := by
  simp [anchor]

@[simp] theorem failsOnly_escapedBytes (cs : List Char) :
    FailsOnly Fault.Arises (escapedBytes cs) := by
  fun_induction escapedBytes cs <;> simp_all

@[simp] theorem failsOnly_unescape (fuel : Nat) (cs : List Char) :
    FailsOnly Fault.Arises (unescape fuel cs) := by
  fun_induction unescape fuel cs with
  | case3 fuel tail ih =>
    simp only [failsOnly_bind, failsOnly_escapedBytes, true_and]
    intro _ _
    split <;> simp_all
  | _ => simp_all

@[simp] theorem failsOnly_tagSuffix (c : Cursor) : FailsOnly Fault.Arises (tagSuffix c) := by
  simp [tagSuffix]

@[simp] theorem failsOnly_handle (c : Cursor) : FailsOnly Fault.Arises (handle c) := by
  simp [handle]

@[simp] theorem failsOnly_tag (c : Cursor) : FailsOnly Fault.Arises (tag c) := by
  simp [tag]

@[simp] theorem failsOnly_versionNumber (c : Cursor) :
    FailsOnly Fault.Arises (versionNumber c) := by
  unfold versionNumber
  dsimp only
  split
  · simp
  · split
    · simp
    · next hfault => exact failsOnly_error.2 (.version hfault)

@[simp] theorem failsOnly_directiveValue (name : List Char) (c : Cursor) :
    FailsOnly Fault.Arises (directiveValue name c) := by
  simp [directiveValue]

@[simp] theorem failsOnly_directive (c : Cursor) : FailsOnly Fault.Arises (directive c) := by
  unfold directive
  refine failsOnly_ite.2 ⟨fun _ => by simp, fun _ => failsOnly_bind.2 ⟨by simp, fun r _ => ?_⟩⟩
  dsimp only
  split <;> simp

end Name

/-! ## Quoted scalars -/

namespace Quoted

/-- A character is made from its code, or fails when the code is beyond the last one or half of a
pair. -/
@[simp] theorem failsOnly_character (code : Nat) : FailsOnly Fault.Arises (character code) := by
  unfold character
  split
  · next hcode => exact failsOnly_error.2 (.codePoint hcode)
  · split
    · next hhalf => exact failsOnly_error.2 (.unpaired hhalf.1 hhalf.2)
    · simp

@[simp] theorem failsOnly_emptyLines (fuel : List Char) (c : Cursor) :
    FailsOnly Fault.Arises (emptyLines fuel c) := by
  fun_induction emptyLines fuel c <;> simp_all

@[simp] theorem failsOnly_gap (c : Cursor) : FailsOnly Fault.Arises (gap c) := by
  unfold gap
  refine failsOnly_ite.2 ⟨fun _ => by simp, fun _ => ?_⟩
  dsimp only
  split <;> simp

@[simp] theorem failsOnly_escape (c : Cursor) : FailsOnly Fault.Arises (escape c) := by
  fun_cases escape c <;> simp_all

@[simp] theorem failsOnly_word (double : Bool) (fuel : List Char) (c : Cursor) :
    FailsOnly Fault.Arises (word double fuel c) := by
  induction fuel generalizing c with
  | nil => simp [word]
  | cons _ fuel ih =>
    rw [word]
    dsimp only
    split <;> simp [ih]

@[simp] theorem failsOnly_readOn (double : Bool) (fuel : List Char) (c : Cursor) :
    FailsOnly Fault.Arises (readOn double fuel c) := by
  fun_induction readOn double fuel c <;> simp_all

@[simp] theorem failsOnly_read (double : Bool) (c : Cursor) :
    FailsOnly Fault.Arises (read double c) := by
  simp [read]

end Quoted

/-! ## Streams -/

/-- The fault in the place of a token. -/
def Token.fault? : Token → Option Fault
  | .broken fault => some fault
  | _ => none

namespace TokenStream

/-- No fault stands among the tokens so far. -/
def IsWhole (s : TokenStream) : Prop := ∀ t ∈ s.tokens, t.fault? = none

variable {s : TokenStream}

theorem isWhole_start (text : List Char) : (start text).IsWhole := nofun

theorem IsWhole.moveTo (h : s.IsWhole) (c : Cursor) : (s.moveTo c).IsWhole := h

theorem IsWhole.allowKey (h : s.IsWhole) (allowed : Bool) : (s.allowKey allowed).IsWhole := h

theorem IsWhole.push {t : Token} (h : s.IsWhole) (ht : t.fault? = none) : (s.push t).IsWhole :=
  List.forall_mem_cons.2 ⟨ht, h⟩

theorem IsWhole.insert {t : Token} (h : s.IsWhole) (place : Nat) (ht : t.fault? = none) :
    (s.insert place t).IsWhole := by
  intro t' ht'
  rcases List.eq_or_mem_of_mem_insertIdx ht' with rfl | ht'
  · exact ht
  · exact h t' ht'

theorem IsWhole.openBlock {t : Token} (h : s.IsWhole) (column place : Nat) (ht : t.fault? = none) :
    (s.openBlock column place t).IsWhole := by
  unfold TokenStream.openBlock
  split
  · exact h.insert place ht
  · exact h

/-- Closing blocks adds tokens that are not broken. -/
theorem IsWhole.unwind (h : s.IsWhole) (column : Int) : (s.unwind column).IsWhole := by
  unfold TokenStream.unwind
  split
  · exact h
  · intro t ht
    rcases List.mem_append.1 ht with ht | ht
    · obtain rfl := List.eq_of_mem_replicate ht
      rfl
    · exact h t ht

/-- A step keeps the stream whole or fails for one of the reasons. -/
def Steps (x : Except Fault TokenStream) : Prop := Ends Fault.Arises IsWhole x

theorem IsWhole.dropStale (h : s.IsWhole) : Steps s.dropStale := by
  unfold TokenStream.dropStale
  exact ends_ite (ends_error .malformed) (ends_ok h)

theorem IsWhole.dropCandidate (h : s.IsWhole) : Steps s.dropCandidate := by
  unfold TokenStream.dropCandidate
  exact ends_ite (ends_error .malformed) (ends_ok h)

theorem IsWhole.saveCandidate (h : s.IsWhole) : Steps s.saveCandidate := by
  unfold TokenStream.saveCandidate
  exact ends_ite (h.dropCandidate.bind fun _ hs => ends_ok hs) (ends_ok h)

theorem IsWhole.endBlocks (h : s.IsWhole) : Steps s.endBlocks :=
  (h.unwind (-1)).dropCandidate.map fun _ hs => hs.allowKey false

theorem IsWhole.readDirective (h : s.IsWhole) : Steps s.readDirective := by
  refine h.endBlocks.bind fun s hs => ?_
  refine (Name.failsOnly_directive s.cursor.step).ends.bind fun r _ => ?_
  exact ends_ok ((hs.push rfl).moveTo r.2)

theorem IsWhole.readDocumentMark {t : Token} (h : s.IsWhole) (ht : t.fault? = none) :
    Steps (s.readDocumentMark t) :=
  h.endBlocks.bind fun s hs => ends_ok ((hs.push ht).moveTo (s.cursor.skip 3))

theorem IsWhole.readOpening {t : Token} (h : s.IsWhole) (ht : t.fault? = none) :
    Steps (s.readOpening t) :=
  h.saveCandidate.bind fun _ hs => ends_ok (hs.push ht)

theorem IsWhole.readClosing {t : Token} (h : s.IsWhole) (ht : t.fault? = none) :
    Steps (s.readClosing t) :=
  h.dropCandidate.bind fun _ hs => ends_ite (ends_error .malformed) (ends_ok (hs.push ht))

theorem IsWhole.readFlowEntry (h : s.IsWhole) : Steps s.readFlowEntry :=
  h.dropCandidate.bind fun s hs => ends_ok (((hs.push rfl).moveTo s.cursor.step).allowKey true)

theorem IsWhole.readBlockIndicator {opening t : Token} (h : s.IsWhole)
    (hopening : opening.fault? = none) (ht : t.fault? = none) (keyAfter : Bool) :
    Steps (s.readBlockIndicator opening t keyAfter) := by
  have hopened :
      (if s.inFlow then s else s.openBlock s.cursor.column s.count opening).IsWhole := by
    split
    · exact h
    · exact h.openBlock _ _ hopening
  refine ends_ite (ends_error .malformed) (hopened.dropCandidate.bind fun s hs => ?_)
  exact ends_ok (((hs.push ht).moveTo s.cursor.step).allowKey keyAfter)

theorem IsWhole.readValue (h : s.IsWhole) : Steps s.readValue := by
  unfold TokenStream.readValue
  split
  · next k _ =>
    have hkey : (s.withoutCandidate.insert k.tokenNumber .key).IsWhole :=
      IsWhole.insert (s := s.withoutCandidate) h k.tokenNumber rfl
    refine ends_ok (((IsWhole.push ?_ rfl).moveTo _).allowKey false)
    split
    · exact hkey
    · exact hkey.openBlock _ _ rfl
  · exact h.readBlockIndicator rfl rfl _

/-- Content is read to a token, or fails by a fault that can arise. -/
theorem IsWhole.readContent {α : Type} {read : Cursor → Except Fault (α × Cursor)}
    {token : α → Token} (h : s.IsWhole) (hread : ∀ c, FailsOnly Fault.Arises (read c))
    (htoken : ∀ content, (token content).fault? = none) : Steps (s.readContent read token) := by
  refine h.saveCandidate.bind fun s hs => ?_
  refine (hread s.cursor).ends.bind fun r _ => ?_
  exact ends_ok (((hs.push (htoken r.1)).moveTo r.2).allowKey false)

theorem IsWhole.readBlockScalar (h : s.IsWhole) (folded : Bool) :
    Steps (s.readBlockScalar folded) := by
  refine h.dropCandidate.bind fun s hs => ?_
  refine (Block.failsOnly_read folded s.indent s.cursor.step).ends.bind fun r _ => ?_
  exact ends_ok (((hs.push rfl).moveTo r.2).allowKey true)

theorem IsWhole.readPlain (h : s.IsWhole) : Steps s.readPlain :=
  h.saveCandidate.bind fun _ hs => ends_ok (((hs.push rfl).moveTo _).allowKey _)

/-- Each kind of token is read, or fails by a fault that can arise. -/
theorem IsWhole.readToken (h : s.IsWhole) (c : Char) : Steps (s.readToken c) := by
  have hanchor (c : Cursor) := Name.failsOnly_anchor c.step
  -- One line for each kind of token, in the order in which they are tried.
  refine ends_ite h.readDirective ?_
  refine ends_ite (h.readDocumentMark rfl) (ends_ite (h.readDocumentMark rfl) ?_)
  refine ends_ite (h.readOpening rfl) (ends_ite (h.readOpening rfl) ?_)
  refine ends_ite (h.readClosing rfl) (ends_ite (h.readClosing rfl) ?_)
  refine ends_ite h.readFlowEntry ?_
  refine ends_ite (h.readBlockIndicator rfl rfl _) (ends_ite (h.readBlockIndicator rfl rfl _) ?_)
  refine ends_ite h.readValue ?_
  refine ends_ite (h.readContent hanchor fun _ => rfl) ?_
  refine ends_ite (h.readContent hanchor fun _ => rfl) ?_
  refine ends_ite (h.readContent Name.failsOnly_tag fun _ => rfl) ?_
  refine ends_ite (h.readBlockScalar false) (ends_ite (h.readBlockScalar true) ?_)
  refine ends_ite (h.readContent (fun c => Quoted.failsOnly_read _ c.step) fun _ => rfl) ?_
  exact ends_ite h.readPlain (ends_error .malformed)

/-- One step of the scanner leaves the tokens whole, or fails by a fault that can arise. -/
theorem IsWhole.readNext (h : s.IsWhole) : Steps s.readNext := by
  have hskipped : s.skipToNext.IsWhole := h
  refine hskipped.dropStale.bind fun s hs => ?_
  have hunwound := hs.unwind s.cursor.column
  dsimp only
  split
  · exact hunwound.endBlocks.map fun _ hs => hs.push rfl
  · exact hunwound.readToken _

/-- No token that is made is broken. -/
theorem IsWhole.not_mem_tokens (h : s.IsWhole) (fault : Fault) : .broken fault ∉ s.tokens :=
  fun hmem => nomatch h _ hmem

/-- The fault that ends the tokens is the one that the last step fails with. -/
theorem IsWhole.arises_of_mem_readAll (h : s.IsWhole) {fuel : Nat} {fault : Fault}
    (hmem : .broken fault ∈ readAll fuel s) : fault.Arises := by
  induction fuel generalizing s with
  | zero => exact absurd (List.mem_reverse.1 hmem) (h.not_mem_tokens fault)
  | succ fuel ih =>
    rw [readAll] at hmem
    split at hmem
    -- The step fails, and its fault is put behind the tokens that are settled.
    · next met hmet =>
      rcases List.mem_append.1 hmem with hmem | hmem
      · exact absurd (List.mem_of_mem_drop (List.mem_reverse.1 hmem)) (h.not_mem_tokens fault)
      · obtain rfl := Token.broken.inj (List.mem_singleton.1 hmem)
        exact h.readNext.fails _ hmet
    · next next hnext =>
      have hwhole := h.readNext.gives _ hnext
      split at hmem
      · exact absurd (List.mem_reverse.1 hmem) (hwhole.not_mem_tokens fault)
      · exact ih hwhole hmem

end TokenStream

/-- The fault in the place of a token is one of those that can arise. -/
theorem Token.arises_of_mem_ofText {text : String} {fault : Fault}
    (h : .broken fault ∈ Token.ofText text) : fault.Arises := by
  unfold Token.ofText at h
  dsimp only at h
  split at h
  · exact (TokenStream.isWhole_start text.toList).arises_of_mem_readAll h
  · obtain rfl := Token.broken.inj (List.mem_singleton.1 h)
    exact .malformed

end TypedRoutes.Yaml
