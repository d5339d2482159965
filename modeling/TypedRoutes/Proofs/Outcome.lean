import Mathlib.Logic.Basic

/-!
# Outcomes

When a computation that may fail succeeds, which is when each of its steps does, and with what it
fails otherwise. `FailsOnly` states a property of everything that it can fail with, and `Ends` one
of what it can give besides.
-/

set_option autoImplicit false

namespace TypedRoutes.Outcome

variable {ε α β : Type}

theorem ok_bind (a : α) (f : α → Except ε β) : Except.ok a >>= f = f a := rfl

theorem error_bind (e : ε) (f : α → Except ε β) : Except.error e >>= f = .error e := rfl

/-- A sequence succeeds exactly when both parts do. -/
theorem bind_eq_ok {x : Except ε α} {f : α → Except ε β} {b : β} :
    x >>= f = .ok b ↔ ∃ a, x = .ok a ∧ f a = .ok b := by
  cases x with
  | error e =>
    constructor
    · intro h
      cases h
    · rintro ⟨a, h, -⟩
      cases h
  | ok a =>
    constructor
    · intro h
      exact ⟨a, rfl, h⟩
    · rintro ⟨a', h, hf⟩
      cases h
      exact hf

theorem map_eq_ok {x : Except ε α} {f : α → β} {b : β} :
    x.map f = .ok b ↔ ∃ a, x = .ok a ∧ f a = b := by
  cases x with
  | error e =>
    constructor
    · intro h
      cases h
    · rintro ⟨a, h, -⟩
      cases h
  | ok a =>
    constructor
    · intro h
      exact ⟨a, rfl, Except.ok.inj h⟩
    · rintro ⟨a', h, rfl⟩
      cases h
      rfl

theorem mapError_eq_ok {ε' : Type} {x : Except ε α} {f : ε → ε'} {a : α} :
    x.mapError f = .ok a ↔ x = .ok a := by
  cases x with
  | error e =>
    constructor
    · intro h
      cases h
    · intro h
      cases h
  | ok a' =>
    constructor
    · intro h
      exact congrArg _ (Except.ok.inj h)
    · intro h
      exact congrArg _ (Except.ok.inj h)

/-- A sequence fails exactly when the first part fails, or the second does after it. -/
theorem bind_eq_error {x : Except ε α} {f : α → Except ε β} {e : ε} :
    x >>= f = .error e ↔ x = .error e ∨ ∃ a, x = .ok a ∧ f a = .error e := by
  cases x with
  | error e' =>
    constructor
    · intro h
      exact .inl (congrArg _ (Except.error.inj h))
    · rintro (h | ⟨a, h, -⟩)
      · exact congrArg _ (Except.error.inj h)
      · cases h
  | ok a =>
    constructor
    · intro h
      exact .inr ⟨a, rfl, h⟩
    · rintro (h | ⟨a', h, hf⟩)
      · cases h
      · cases h
        exact hf

/-- A renamed error comes from an error with that name. -/
theorem mapError_eq_error {ε' : Type} {x : Except ε α} {f : ε → ε'} {e : ε'} :
    x.mapError f = .error e ↔ ∃ cause, x = .error cause ∧ f cause = e := by
  cases x with
  | error cause =>
    constructor
    · intro h
      exact ⟨cause, rfl, Except.error.inj h⟩
    · rintro ⟨cause', h, rfl⟩
      exact congrArg _ (congrArg f (Except.error.inj h))
  | ok a =>
    constructor
    · intro h
      cases h
    · rintro ⟨cause, h, -⟩
      cases h

variable {γ : Type}

/-- Two steps whose results are put together give what comes of both results. -/
theorem seq_eq_ok {x : Except ε α} {y : Except ε β} {f : α → β → γ} {c : γ} :
    (do let a ← x; let b ← y; return f a b) = .ok c ↔
      ∃ a b, x = .ok a ∧ y = .ok b ∧ f a b = c := by
  constructor
  · intro h
    obtain ⟨a, ha, h⟩ := bind_eq_ok.1 h
    obtain ⟨b, hb, h⟩ := bind_eq_ok.1 h
    exact ⟨a, b, ha, hb, Except.ok.inj h⟩
  · rintro ⟨a, b, rfl, rfl, rfl⟩
    rfl

theorem exists_map_iff {x : Except ε α} {f : α → β} :
    (∃ b, x.map f = .ok b) ↔ ∃ a, x = .ok a := by
  constructor
  · rintro ⟨b, h⟩
    obtain ⟨a, ha, -⟩ := map_eq_ok.1 h
    exact ⟨a, ha⟩
  · rintro ⟨a, ha⟩
    exact ⟨f a, map_eq_ok.2 ⟨a, ha, rfl⟩⟩

/-- A step whose result does not decide whether the next one succeeds. -/
theorem exists_bind_iff {x : Except ε α} {f : α → Except ε β} {q : Prop}
    (h : ∀ a, (∃ b, f a = .ok b) ↔ q) : (∃ b, x >>= f = .ok b) ↔ (∃ a, x = .ok a) ∧ q := by
  constructor
  · rintro ⟨b, hb⟩
    obtain ⟨a, ha, hf⟩ := bind_eq_ok.1 hb
    exact ⟨⟨a, ha⟩, (h a).1 ⟨b, hf⟩⟩
  · rintro ⟨⟨a, ha⟩, hq⟩
    obtain ⟨b, hf⟩ := (h a).2 hq
    exact ⟨b, bind_eq_ok.2 ⟨a, ha, hf⟩⟩

/-- Two steps whose results are put together succeed if and only if both do. -/
theorem exists_seq_iff {x : Except ε α} {y : Except ε β} {f : α → β → γ} :
    (∃ c, (do let a ← x; let b ← y; return f a b) = .ok c) ↔
      (∃ a, x = .ok a) ∧ ∃ b, y = .ok b :=
  exists_bind_iff fun _ => exists_map_iff

theorem map_ne_error {x : Except ε α} {f : α → β} {e : ε} (h : x ≠ .error e) :
    x.map f ≠ .error e := by
  cases x with
  | error e' => exact fun heq => h (congrArg _ (Except.error.inj heq))
  | ok a => exact nofun

theorem bind_ne_error {x : Except ε α} {f : α → Except ε β} {e : ε} (h : x ≠ .error e)
    (hf : ∀ a, f a ≠ .error e) : x >>= f ≠ .error e := by
  cases x with
  | error e' => exact fun heq => h (congrArg _ (Except.error.inj heq))
  | ok a => exact hf a

/-- A list of outcomes has no error that none of the elements has. -/
theorem mapM_ne_error {f : α → Except ε β} {e : ε} {as : List α} (hf : ∀ a ∈ as, f a ≠ .error e) :
    as.mapM f ≠ .error e := by
  induction as with
  | nil => exact nofun
  | cons a rest ih =>
    obtain ⟨hfirst, hrest⟩ := List.forall_mem_cons.1 hf
    rw [List.mapM_cons]
    exact bind_ne_error hfirst fun _ => bind_ne_error (ih hrest) fun _ => nofun

theorem exists_error_iff {x : Except ε α} : (∃ e, x = .error e) ↔ ¬ ∃ a, x = .ok a := by
  cases x with
  | error e => simp
  | ok a => simp

theorem exists_of_isOk {x : Except ε α} (h : x.isOk = true) : ∃ a, x = .ok a := by
  cases x with
  | error e => cases h
  | ok a => exact ⟨a, rfl⟩

/-- A list of steps succeeds if and only if each of them does. -/
theorem exists_mapM_iff {f : α → Except ε β} {as : List α} :
    (∃ bs, as.mapM f = .ok bs) ↔ ∀ a ∈ as, ∃ b, f a = .ok b := by
  induction as with
  | nil => exact ⟨fun _ => nofun, fun _ => ⟨[], rfl⟩⟩
  | cons a rest ih =>
    rw [List.forall_mem_cons, ← ih, List.mapM_cons]
    exact exists_seq_iff

/-- A list of outcomes depends on the function at its elements only. -/
theorem mapM_congr {f g : α → Except ε β} {as : List α} (h : ∀ a ∈ as, f a = g a) :
    as.mapM f = as.mapM g := by
  induction as with
  | nil => rfl
  | cons a rest ih =>
    rw [List.forall_mem_cons] at h
    rw [List.mapM_cons, List.mapM_cons, h.1, ih h.2]

/-- Every result of a list of steps is the result of one of them. -/
theorem exists_mem_of_mapM {f : α → Except ε β} {as : List α} {bs : List β}
    (h : as.mapM f = .ok bs) : ∀ b ∈ bs, ∃ a ∈ as, f a = .ok b := by
  induction as generalizing bs with
  | nil =>
    obtain rfl := Except.ok.inj h
    intro b hb
    cases hb
  | cons a rest ih =>
    rw [List.mapM_cons] at h
    obtain ⟨first, others, hfirst, hothers, rfl⟩ := seq_eq_ok.1 h
    refine List.forall_mem_cons.2 ⟨⟨a, List.mem_cons_self, hfirst⟩, ?_⟩
    intro b hb
    obtain ⟨a', ha', hb'⟩ := ih hothers b hb
    exact ⟨a', List.mem_cons_of_mem a ha', hb'⟩

/-! ## Failures -/

/-- Whatever a computation fails with has a property. -/
def FailsOnly (P : ε → Prop) (x : Except ε α) : Prop := ∀ e, x = .error e → P e

section FailsOnly

variable {P : ε → Prop}

@[simp] theorem failsOnly_ok (a : α) : FailsOnly P (.ok a) := nofun

@[simp] theorem failsOnly_pure (a : α) : FailsOnly P (pure a) := nofun

@[simp] theorem failsOnly_error {e : ε} : FailsOnly P (.error e : Except ε α) ↔ P e := by
  constructor
  · intro h
    exact h e rfl
  · rintro h e' he
    obtain rfl := Except.error.inj he
    exact h

@[simp] theorem failsOnly_throw {e : ε} : FailsOnly P (throw e : Except ε α) ↔ P e :=
  failsOnly_error

/-- A sequence has only the failures of its parts, the second taken after a success of the first. -/
@[simp] theorem failsOnly_bind {x : Except ε α} {f : α → Except ε β} :
    FailsOnly P (x >>= f) ↔ FailsOnly P x ∧ ∀ a, x = .ok a → FailsOnly P (f a) := by
  constructor
  · intro h
    refine ⟨fun e he => h e (bind_eq_error.2 (.inl he)), fun a ha e he => ?_⟩
    exact h e (bind_eq_error.2 (.inr ⟨a, ha, he⟩))
  · rintro ⟨hx, hf⟩ e he
    rcases bind_eq_error.1 he with he | ⟨a, ha, he⟩
    · exact hx e he
    · exact hf a ha e he

@[simp] theorem failsOnly_map {x : Except ε α} {f : α → β} :
    FailsOnly P (x.map f) ↔ FailsOnly P x := by
  cases x with
  | error e => exact failsOnly_error.trans failsOnly_error.symm
  | ok a => exact iff_of_true (failsOnly_ok (f a)) (failsOnly_ok a)

@[simp] theorem failsOnly_functor_map {x : Except ε α} {f : α → β} :
    FailsOnly P (f <$> x) ↔ FailsOnly P x :=
  failsOnly_map

/-- A branching has only the failures of the branch that is taken. -/
@[simp] theorem failsOnly_ite {c : Prop} [Decidable c] {x y : Except ε α} :
    FailsOnly P (if c then x else y) ↔ (c → FailsOnly P x) ∧ (¬ c → FailsOnly P y) := by
  split <;> simp_all

end FailsOnly

/-- What a computation fails with has one property, and what it gives has another one. -/
structure Ends (P : ε → Prop) (Q : α → Prop) (x : Except ε α) : Prop where
  fails : FailsOnly P x
  gives : ∀ a, x = .ok a → Q a

section Ends

variable {P : ε → Prop} {Q : α → Prop} {R : β → Prop}

/-- Failures that are limited say nothing of the successes. -/
theorem FailsOnly.ends {x : Except ε α} (h : FailsOnly P x) : Ends P (fun _ => True) x :=
  ⟨h, fun _ _ => trivial⟩

theorem ends_ok {a : α} (h : Q a) : Ends P Q (.ok a) where
  fails := failsOnly_ok a
  gives _ ha := Except.ok.inj ha ▸ h

theorem ends_error {e : ε} (h : P e) : Ends P Q (.error e : Except ε α) where
  fails := failsOnly_error.2 h
  gives := nofun

theorem ends_ite {c : Prop} [Decidable c] {x y : Except ε α} (hx : Ends P Q x) (hy : Ends P Q y) :
    Ends P Q (if c then x else y) := by
  split
  · exact hx
  · exact hy

/-- A sequence ends as its second part does, given that the first ends in what the second needs. -/
theorem Ends.bind {x : Except ε α} {f : α → Except ε β} (hx : Ends P Q x)
    (hf : ∀ a, Q a → Ends P R (f a)) : Ends P R (x >>= f) where
  fails := failsOnly_bind.2 ⟨hx.fails, fun a ha => (hf a (hx.gives a ha)).fails⟩
  gives b hb := by
    obtain ⟨a, ha, hb⟩ := bind_eq_ok.1 hb
    exact (hf a (hx.gives a ha)).gives b hb

/-- A mapped outcome ends in the images. -/
theorem Ends.map {x : Except ε α} {f : α → β} (hx : Ends P Q x) (hf : ∀ a, Q a → R (f a)) :
    Ends P R (x.map f) where
  fails := failsOnly_map.2 hx.fails
  gives b hb := by
    obtain ⟨a, ha, rfl⟩ := map_eq_ok.1 hb
    exact hf a (hx.gives a ha)

end Ends

end TypedRoutes.Outcome
