import TypedRoutes.Proofs.Yaml.Token
import TypedRoutes.Yaml.Node

/-!
# The faults of nodes

The reader of nodes fails with a breach of the format or with the fault that stands in the place of
a token, so it fails only with faults that can arise (`Node.failsOnly_ofTokens`). A part of the
reader leaves tokens that it has found, so what it leaves is as good as what it was given; the parts
call each other, and all of them are followed by induction on the fuel (`Node.reads`).
-/

set_option autoImplicit false

namespace TypedRoutes.Yaml

open Outcome

/-- The fault among some tokens, if there is one, is one that can arise. -/
def TokensArise (ts : List Token) : Prop := ∀ fault, .broken fault ∈ ts → fault.Arises

/-- The tokens behind the first can only break as all of them can. -/
theorem TokensArise.tail {t : Token} {ts : List Token} (h : TokensArise (t :: ts)) :
    TokensArise ts :=
  fun fault hfault => h fault (List.mem_cons_of_mem t hfault)

theorem TokensArise.head {fault : Fault} {ts : List Token} (h : TokensArise (.broken fault :: ts)) :
    fault.Arises :=
  h fault List.mem_cons_self

namespace Source

/-- The tokens that are left hold no other fault than one that can arise. -/
def Arises (s : Source) : Prop := TokensArise s.tokens

variable {s : Source}

theorem arises_goOn (s : Source) {ts : List Token} (h : TokensArise ts) : (s.goOn ts).Arises := h

theorem Arises.tail {t : Token} {ts : List Token} (h : s.Arises) (hts : s.tokens = t :: ts) :
    TokensArise ts := by
  rw [Source.Arises, hts] at h
  exact TokensArise.tail h

theorem Arises.head {fault : Fault} {ts : List Token} (h : s.Arises)
    (hts : s.tokens = .broken fault :: ts) : fault.Arises := by
  rw [Source.Arises, hts] at h
  exact TokensArise.head h

theorem Arises.refusal (h : s.Arises) : s.refusal.Arises := by
  unfold Source.refusal
  split
  · next hts => exact h.head hts
  · exact .malformed

/-- Properties are declared for a node, or fail by a fault that can arise. -/
theorem Arises.declare (h : s.Arises) (properties : Properties) :
    Ends Fault.Arises Arises (s.declare properties) := by
  unfold Source.declare
  split
  · next hts => exact ends_error (h.head hts)
  · exact ends_ok h
  · exact ends_ite (ends_error .malformed) (ends_ok h)

theorem Arises.separated (h : s.Arises) (first : Bool) :
    Ends Fault.Arises Arises (s.separated first) := by
  refine ends_ite (ends_ok h) ?_
  split
  · next hts => exact ends_ok (h.tail hts)
  · exact ends_error h.refusal

end Source

namespace Node

theorem failsOnly_expand (handles : Handles) (t : TagName) :
    FailsOnly Fault.Arises (expand handles t) := by
  unfold expand
  split
  · simp
  · split <;> simp

theorem ends_properties (handles : Handles) {ts : List Token} (h : TokensArise ts) :
    Ends Fault.Arises (fun r => TokensArise r.2) (properties handles ts) := by
  unfold properties
  split
  · exact (failsOnly_expand handles _).ends.map fun _ _ => h.tail.tail
  · exact (failsOnly_expand handles _).ends.map fun _ _ => h.tail.tail
  · exact ends_error h.tail.head
  · exact ends_ok h.tail
  · exact (failsOnly_expand handles _).ends.map fun _ _ => h.tail
  · exact ends_ok h

/-! ## Reading -/

/-- A part of the reader fails with what can arise, and so does what it leaves. -/
def Parses {α : Type} (x : Except Fault (α × Source)) : Prop :=
  Ends Fault.Arises (fun r => r.2.Arises) x

/-- All parts of the reader do so within some fuel. -/
structure Reads (fuel : Nat) : Prop where
  node : ∀ {handles levels block indentless s}, s.Arises →
    Parses (read handles levels block indentless fuel s)
  orEmpty : ∀ {handles levels block indentless stops s}, s.Arises →
    Parses (readUnless handles levels block indentless stops fuel s)
  blockItems : ∀ {handles levels s}, s.Arises → Parses (blockItems handles levels fuel s)
  indentlessItems : ∀ {handles levels s}, s.Arises →
    Parses (indentlessItems handles levels fuel s)
  blockEntries : ∀ {handles levels s}, s.Arises → Parses (blockEntries handles levels fuel s)
  valuePart : ∀ {handles levels block stops s}, s.Arises →
    Parses (valuePart handles levels block stops fuel s)
  flowItems : ∀ {handles levels first s}, s.Arises →
    Parses (flowItems handles levels first fuel s)
  flowEntries : ∀ {handles levels first s}, s.Arises →
    Parses (flowEntries handles levels first fuel s)
  flowEntry : ∀ {handles levels close s}, s.Arises →
    Parses (flowEntry handles levels close fuel s)

section

variable {fuel levels : Nat} {handles : Handles} {s : Source}

/-- What is left after the tokens of a part. -/
theorem Parses.bind {α β : Type} {x : Except Fault (α × Source)}
    {f : α × Source → Except Fault (β × Source)} (hx : Parses x)
    (hf : ∀ a s, s.Arises → Parses (f (a, s))) : Parses (x >>= f) :=
  Ends.bind hx fun r hr => hf r.1 r.2 hr

/-- What a collection holds is read where it may be opened. -/
theorem parses_enter {α : Type} {f : Nat → Except Fault (α × Source)}
    (hf : ∀ inner, Parses (f inner)) : Parses (enter levels >>= f) := by
  cases levels with
  | zero => exact ends_error .nesting
  | succ inner => exact hf inner

theorem Parses.pure {α : Type} {a : α} (h : s.Arises) :
    Parses (Pure.pure (a, s) : Except Fault (α × Source)) :=
  ends_ok h

/-- One step of a node: its properties, then its content by induction. -/
theorem Reads.node_succ (ih : Reads fuel) (block indentless : Bool) (h : s.Arises) :
    Parses (read handles levels block indentless (fuel + 1) s) := by
  rw [read]
  split
  · next hts => exact ends_ite (ends_ok (h.tail hts)) (ends_error .malformed)
  · refine Ends.bind (ends_properties handles h) fun r hr => ?_
    obtain ⟨props, ts⟩ := r
    refine ((s.arises_goOn hr).declare props).bind fun s hs => ?_
    dsimp only at hr ⊢
    split
    · exact parses_enter fun _ => (ih.indentlessItems hs).bind fun _ _ => Parses.pure
    · exact Parses.pure hr.tail
    · exact parses_enter fun _ =>
        (ih.flowItems (s.arises_goOn hr.tail)).bind fun _ _ => Parses.pure
    · exact parses_enter fun _ =>
        (ih.flowEntries (s.arises_goOn hr.tail)).bind fun _ _ => Parses.pure
    · exact parses_enter fun _ =>
        (ih.blockItems (s.arises_goOn hr.tail)).bind fun _ _ => Parses.pure
    · exact parses_enter fun _ =>
        (ih.blockEntries (s.arises_goOn hr.tail)).bind fun _ _ => Parses.pure
    · exact ends_ite (ends_error hs.refusal) (ends_ok hs)

theorem Reads.orEmpty_succ (ih : Reads fuel) (block indentless : Bool) (stops : List Token)
    (h : s.Arises) : Parses (readUnless handles levels block indentless stops (fuel + 1) s) :=
  ends_ite (ends_ok h) (ih.node h)

theorem Reads.blockItems_succ (ih : Reads fuel) (h : s.Arises) :
    Parses (Node.blockItems handles levels (fuel + 1) s) := by
  rw [Node.blockItems]
  split
  · next hts =>
    refine (ih.orEmpty (h.tail hts)).bind fun _ _ hs => ?_
    exact (ih.blockItems hs).bind fun _ _ => Parses.pure
  · next hts => exact ends_ok (h.tail hts)
  · exact ends_error h.refusal

theorem Reads.indentlessItems_succ (ih : Reads fuel) (h : s.Arises) :
    Parses (Node.indentlessItems handles levels (fuel + 1) s) := by
  rw [Node.indentlessItems]
  split
  · next hts =>
    refine (ih.orEmpty (h.tail hts)).bind fun _ _ hs => ?_
    exact (ih.indentlessItems hs).bind fun _ _ => Parses.pure
  · exact ends_ok h

theorem Reads.blockEntries_succ (ih : Reads fuel) (h : s.Arises) :
    Parses (Node.blockEntries handles levels (fuel + 1) s) := by
  rw [Node.blockEntries]
  split
  · next hts =>
    refine (ih.orEmpty (h.tail hts)).bind fun _ _ hs => ?_
    refine (ih.valuePart hs).bind fun _ _ hs => ?_
    exact (ih.blockEntries hs).bind fun _ _ => Parses.pure
  · next hts => exact ends_ok (h.tail hts)
  · exact ends_error h.refusal

theorem Reads.valuePart_succ (ih : Reads fuel) (block : Bool) (stops : List Token)
    (h : s.Arises) : Parses (Node.valuePart handles levels block stops (fuel + 1) s) := by
  rw [Node.valuePart]
  split
  · next hts => exact ih.orEmpty (h.tail hts)
  · exact ends_ok h

theorem Reads.flowItems_succ (ih : Reads fuel) (first : Bool) (h : s.Arises) :
    Parses (Node.flowItems handles levels first (fuel + 1) s) := by
  rw [Node.flowItems]
  split
  · next hts => exact ends_ok (h.tail hts)
  · refine (h.separated first).bind fun s hs => ?_
    split
    · next hts => exact Parses.pure (hs.tail hts)
    · next hts =>
      refine parses_enter fun inner => ?_
      refine (ih.flowEntry (hs.tail hts)).bind fun _ _ hs => ?_
      exact (ih.flowItems hs).bind fun _ _ => Parses.pure
    · refine (ih.node hs).bind fun _ _ hs => ?_
      exact (ih.flowItems hs).bind fun _ _ => Parses.pure

theorem Reads.flowEntries_succ (ih : Reads fuel) (first : Bool) (h : s.Arises) :
    Parses (Node.flowEntries handles levels first (fuel + 1) s) := by
  rw [Node.flowEntries]
  split
  · next hts => exact ends_ok (h.tail hts)
  · refine (h.separated first).bind fun s hs => ?_
    split
    · next hts => exact Parses.pure (hs.tail hts)
    · next hts =>
      refine (ih.flowEntry (hs.tail hts)).bind fun _ _ hs => ?_
      exact (ih.flowEntries hs).bind fun _ _ => Parses.pure
    · refine (ih.node hs).bind fun _ _ hs => ?_
      exact (ih.flowEntries hs).bind fun _ _ => Parses.pure

theorem Reads.flowEntry_succ (ih : Reads fuel) (close : Token) (h : s.Arises) :
    Parses (Node.flowEntry handles levels close (fuel + 1) s) := by
  rw [Node.flowEntry]
  refine (ih.orEmpty h).bind fun _ _ hs => ?_
  exact (ih.valuePart hs).bind fun _ _ => Parses.pure

end

/-- Every part of the parser fails only by a fault that can arise, by induction on the fuel. -/
theorem reads (fuel : Nat) : Reads fuel := by
  induction fuel with
  -- Without fuel each part is a breach of the format.
  | zero =>
    constructor
    all_goals
      intros
      exact ends_error .malformed
  | succ fuel ih =>
    exact ⟨ih.node_succ _ _, ih.orEmpty_succ _ _ _, ih.blockItems_succ, ih.indentlessItems_succ,
      ih.blockEntries_succ, ih.valuePart_succ _ _, ih.flowItems_succ _, ih.flowEntries_succ _,
      ih.flowEntry_succ _⟩

/-! ## Documents -/

theorem ends_directives (versioned : Bool) (handles : Handles) {ts : List Token}
    (h : TokensArise ts) :
    Ends Fault.Arises (fun r => TokensArise r.2) (directives versioned handles ts) := by
  fun_induction directives versioned handles ts with
  | case1 => exact ends_error .malformed
  | case2 _ _ _ _ _ ih => exact ih h.tail
  | case3 => exact ends_error .malformed
  | case4 _ _ _ _ _ _ ih => exact ih h.tail
  | case5 _ _ _ ih => exact ih h.tail
  | case6 => exact ends_ok h

/-- A document is read from tokens that can only break by faults that can arise. -/
theorem ends_document (levels fuel : Nat) {ts : List Token} (h : TokensArise ts) :
    Ends Fault.Arises (fun r => TokensArise r.2) (document levels fuel ts) := by
  have hread {handles : Handles} {ts : List Token} (h : TokensArise ts) :
      Parses (read handles levels true false fuel ⟨ts, []⟩) := (reads fuel).node h
  refine ends_ite ?_ (Ends.bind (hread h) fun _ hs => ends_ok hs)
  refine (ends_directives false [] h).bind fun r hr => ?_
  obtain ⟨defined, ts⟩ := r
  dsimp only at hr ⊢
  split
  · exact ends_ite (ends_ok hr.tail) (Ends.bind (hread hr.tail) fun _ hs => ends_ok hs)
  · exact ends_error (Source.Arises.refusal hr)

theorem failsOnly_checkEnd {ts : List Token} (h : TokensArise ts) :
    FailsOnly Fault.Arises (checkEnd ts) := by
  -- The tokens after the marks of the end are still some of the tokens.
  have hrest : TokensArise (ts.dropWhile (· = .documentEnd)) := fun fault hfault =>
    h fault ((List.dropWhile_suffix _).subset hfault)
  unfold checkEnd
  split
  · exact failsOnly_ok _
  · refine (Ends.bind (R := fun _ => True) (ends_directives false [] hrest) fun r hr => ?_).fails
    exact ends_error (Source.Arises.refusal hr)

/-- The reader of nodes fails only with what can arise. -/
theorem failsOnly_ofTokens (levels : Nat) {ts : List Token} (h : TokensArise ts) :
    FailsOnly Fault.Arises (ofTokens levels ts) := by
  refine failsOnly_ite.2 ⟨fun _ => failsOnly_ok _, fun _ => ?_⟩
  refine (Ends.bind (R := fun _ => True) (ends_document _ _ h) fun r hr => ?_).fails
  exact (failsOnly_checkEnd hr).ends.bind fun _ _ => ends_ok trivial

end Node
end TypedRoutes.Yaml
