import Mathlib.Data.List.Basic
import TypedRoutes.FileTree

/-!
# Where paths lead

The location of a path (`FilePath.location`) and the locations that are passed on the way to it
(`FilePath.passed`) are the same in every tree. Whether a path leads there depends on two things
only: the system takes the path (`FilePath.IsNameable`), and all that is passed are directories
(`FileTree.locate_eq_ok_iff`). The files of a tree have no part in it.
-/

set_option autoImplicit false

namespace TypedRoutes

/-! ## Locations -/

namespace Location

/-- The location that names lead to. -/
def descend (l : Location) (names : List String) : Location := names.foldl enter l

/-- The locations from which names lead on, in order. -/
def passed (l : Location) : List String → List Location
  | [] => []
  | name :: rest => l :: passed (l.enter name) rest

/-- On the way to a name in a place all the places before it are passed, and the place itself. -/
theorem passed_append_singleton (l : Location) (names : List String) (name : String) :
    l.passed (names ++ [name]) = l.passed names ++ [l.descend names] := by
  induction names generalizing l with
  | nil => rfl
  | cons first rest ih =>
    rw [List.cons_append, passed, ih]
    rfl

/-- One location is on the way down to another one. -/
def IsAbove (l k : Location) : Prop := l.origin = k.origin ∧ l.names <+: k.names ∧ l ≠ k

end Location

namespace FilePath

/-- Where a path is counted from. -/
def base (p : FilePath) : Location := if p.slashes = 0 then .working else ⟨.root, []⟩

/-- The location that a path leads to, if it leads anywhere. -/
def location (p : FilePath) : Location := p.base.descend p.names

/-- The locations that are passed on the way. -/
def passed (p : FilePath) : List Location := p.base.passed p.names

/-- The locations that are passed, and the one that the path leads to. -/
def reached (p : FilePath) : List Location := p.passed ++ [p.location]

/-- The system takes the path: it holds no null character and is not too long, and no name in it is
too long. -/
structure IsNameable (p : FilePath) : Prop where
  null : p.text.toList.contains '\x00' = false
  length : p.text.utf8ByteSize < FileTree.pathLimit
  names : ∀ name ∈ p.names, name.utf8ByteSize ≤ FileTree.nameLimit

/-! ## Parents -/

/-- The parent of a path is the path without its last name. -/
theorem parent_append_singleton (slashes : Nat) (names : List String) (name : String) :
    parent ⟨slashes, names ++ [name]⟩ = ⟨slashes, names⟩ := by
  simp [parent]

/-- On the way to a path everything is passed that is reached with its parent. -/
theorem passed_append_singleton (slashes : Nat) (names : List String) (name : String) :
    passed ⟨slashes, names ++ [name]⟩ = reached ⟨slashes, names⟩ :=
  Location.passed_append_singleton _ _ _

/-- The text of the parent is a part of the text of the path, unless it is the point. -/
theorem text_parent (slashes : Nat) (names : List String) (name : String) :
    text ⟨slashes, names⟩ = "." ∨
      ∃ rest, text ⟨slashes, names ++ [name]⟩ = text ⟨slashes, names⟩ ++ rest := by
  by_cases hroot : slashes = 0 ∧ names = []
  · obtain ⟨rfl, rfl⟩ := hroot
    exact .inl rfl
  · refine .inr ?_
    have htext : text ⟨slashes, names⟩ =
        String.ofList (List.replicate slashes '/') ++ "/".intercalate names := by
      unfold text
      rw [if_neg (by simpa using hroot)]
    have htextName : text ⟨slashes, names ++ [name]⟩ =
        String.ofList (List.replicate slashes '/') ++ "/".intercalate (names ++ [name]) := by
      unfold text
      rw [if_neg (by simp)]
    rw [htext, htextName]
    cases names with
    | nil => exact ⟨name, by simp [String.intercalate_nil, String.intercalate_singleton]⟩
    | cons first others =>
      refine ⟨"/" ++ name, ?_⟩
      rw [String.intercalate_append_of_ne_nil (List.cons_ne_nil _ _) (List.cons_ne_nil _ _),
        String.intercalate_singleton]
      simp only [String.append_assoc]

theorem IsNameable.parent {slashes : Nat} {names : List String} {name : String}
    (h : IsNameable ⟨slashes, names ++ [name]⟩) : IsNameable ⟨slashes, names⟩ := by
  obtain ⟨hnull, hlength, hnames⟩ := h
  have hnamesParent : ∀ other ∈ names, other.utf8ByteSize ≤ FileTree.nameLimit :=
    fun other hother => hnames other (List.mem_append_left _ hother)
  rcases text_parent slashes names name with hpoint | ⟨rest, hrest⟩
  · exact ⟨by rw [hpoint]; decide, by rw [hpoint]; decide, hnamesParent⟩
  · rw [hrest, String.toList_append, List.contains_append] at hnull
    rw [hrest, String.utf8ByteSize_append] at hlength
    exact ⟨(Bool.or_eq_false_iff.1 hnull).1, by omega, hnamesParent⟩

end FilePath

/-! ## Following paths -/

namespace FileTree

variable {tree : FileTree} {l k : Location} {p : FilePath}

/-- Names are followed to where they lead when every place passed is a directory and no name is too
long. -/
theorem follow_eq_ok_iff {names : List String} :
    tree.follow l names = .ok k ↔
      k = l.descend names ∧ (∀ m ∈ l.passed names, tree.isDirectory m = true) ∧
        ∀ name ∈ names, name.utf8ByteSize ≤ nameLimit := by
  induction names generalizing l with
  | nil =>
    constructor
    · intro h
      exact ⟨(Except.ok.inj h).symm, nofun, nofun⟩
    · rintro ⟨rfl, -, -⟩
      rfl
  | cons name rest ih =>
    rw [follow, Location.passed, List.forall_mem_cons, List.forall_mem_cons]
    -- A name is followed from a directory only, and only if it is not too long.
    by_cases hdirectory : tree.isDirectory l = true
    · rw [if_pos hdirectory]
      by_cases hname : nameLimit < name.utf8ByteSize
      · rw [if_pos hname]
        constructor
        · intro h
          cases h
        · rintro ⟨-, -, hle, -⟩
          omega
      · rw [if_neg hname, ih]
        have hle := Nat.not_lt.1 hname
        simp [hdirectory, hle, Location.descend]
    · rw [if_neg hdirectory]
      constructor
      · split <;> exact nofun
      · rintro ⟨-, ⟨h, -⟩, -⟩
        exact absurd h hdirectory

/-- The way through names ends early only at what is missing, if every place on it is a directory or
free. -/
theorem eq_missing_of_follow_eq_error {names : List String} {reason : FileFault.Reason}
    (h : tree.follow l names = .error reason)
    (hopen : ∀ m ∈ l.passed names, tree.isDirectory m = true ∨ tree.content? m = none)
    (hnames : ∀ name ∈ names, name.utf8ByteSize ≤ nameLimit) : reason = .missing := by
  induction names generalizing l with
  | nil => cases h
  | cons name rest ih =>
    rw [Location.passed, List.forall_mem_cons] at hopen
    rw [List.forall_mem_cons] at hnames
    rw [follow] at h
    split at h
    · rw [if_neg (Nat.not_lt.2 hnames.1)] at h
      exact ih h hopen.2 hnames.2
    · next hdirectory =>
      have hfree : tree.content? l = none := hopen.1.resolve_left hdirectory
      rw [hfree] at h
      exact (Except.error.inj h).symm

/-- Nothing is missing on the way through names if every place on it is a directory. -/
theorem ne_missing_of_follow_eq_error {names : List String} {reason : FileFault.Reason}
    (h : tree.follow l names = .error reason)
    (hpassed : ∀ m ∈ l.passed names, tree.isDirectory m = true) : reason ≠ .missing := by
  induction names generalizing l with
  | nil => cases h
  | cons name rest ih =>
    rw [Location.passed, List.forall_mem_cons] at hpassed
    rw [follow, if_pos hpassed.1] at h
    split at h
    · obtain rfl := Except.error.inj h
      exact nofun
    · exact ih h hpassed.2

/-- A path is located when its names are proper and every place on the way is a directory. -/
theorem locate_eq_ok_iff :
    tree.locate p = .ok l ↔
      l = p.location ∧ p.IsNameable ∧ ∀ m ∈ p.passed, tree.isDirectory m = true := by
  -- The checks come in this order: the null character, the length of the path, then name by name.
  unfold locate
  split
  · next hnull =>
    constructor
    · intro h
      cases h
    · rintro ⟨-, ⟨hnone, -, -⟩, -⟩
      rw [hnull] at hnone
      cases hnone
  · next hnull =>
    split
    · next hlength =>
      constructor
      · intro h
        cases h
      · rintro ⟨-, ⟨-, hless, -⟩, -⟩
        omega
    · next hlength =>
      change tree.follow p.base p.names = .ok l ↔ _
      rw [follow_eq_ok_iff]
      constructor
      · rintro ⟨hl, hpassed, hnames⟩
        exact ⟨hl, ⟨by simpa using hnull, Nat.not_le.1 hlength, hnames⟩, hpassed⟩
      · rintro ⟨hl, hnameable, hpassed⟩
        exact ⟨hl, hpassed, hnameable.names⟩

/-- A path with proper names is missing when nothing but directories and gaps lie on the way. -/
theorem eq_missing_of_locate_eq_error {reason : FileFault.Reason}
    (h : tree.locate p = .error reason) (hnameable : p.IsNameable)
    (hopen : ∀ m ∈ p.passed, tree.isDirectory m = true ∨ tree.content? m = none) :
    reason = .missing := by
  unfold locate at h
  rw [hnameable.null, if_neg Bool.false_ne_true, if_neg (Nat.not_le.2 hnameable.length)] at h
  exact eq_missing_of_follow_eq_error h hopen hnameable.names

/-- A path is not missing when every place on the way is a directory. -/
theorem ne_missing_of_locate_eq_error {reason : FileFault.Reason}
    (h : tree.locate p = .error reason) (hpassed : ∀ m ∈ p.passed, tree.isDirectory m = true) :
    reason ≠ .missing := by
  unfold locate at h
  split at h
  · obtain rfl := Except.error.inj h
    exact nofun
  · split at h
    · obtain rfl := Except.error.inj h
      exact nofun
    · exact ne_missing_of_follow_eq_error h hpassed

/-- An action at a path succeeds where the path leads. -/
theorem atPath_eq_ok_iff {α : Type} {action : Location → Except FileFault.Reason α} {a : α} :
    tree.atPath p action = .ok a ↔ tree.locate p = .ok p.location ∧ action p.location = .ok a := by
  unfold atPath
  cases hlocate : tree.locate p with
  | error reason => simp [Except.bind, Except.mapError]
  | ok l =>
    obtain ⟨rfl, -⟩ := locate_eq_ok_iff.1 hlocate
    cases haction : action p.location <;> simp [Except.bind, Except.mapError, haction]

/-- An action at a path fails because the path cannot be located, or by itself. -/
theorem atPath_eq_error {α : Type} {action : Location → Except FileFault.Reason α}
    {fault : FileFault} (h : tree.atPath p action = .error fault) :
    tree.locate p = .error fault.reason ∨
      tree.locate p = .ok p.location ∧ action p.location = .error fault.reason := by
  unfold atPath at h
  cases hlocate : tree.locate p with
  | error reason =>
    rw [hlocate] at h
    obtain rfl := Except.error.inj h
    exact .inl rfl
  | ok l =>
    obtain ⟨rfl, -⟩ := locate_eq_ok_iff.1 hlocate
    rw [hlocate] at h
    cases haction : action p.location with
    | error reason =>
      simp only [Except.bind, Except.mapError, haction] at h
      obtain rfl := Except.error.inj h
      exact .inr ⟨rfl, rfl⟩
    | ok a => simp [Except.bind, Except.mapError, haction] at h

/-! ## Null characters -/

theorem follow_ne_nullCharacter {names : List String} :
    tree.follow l names ≠ .error .nullCharacter := by
  induction names generalizing l with
  | nil => exact nofun
  | cons name rest ih =>
    rw [follow]
    split
    · split
      · exact nofun
      · exact ih
    · split <;> exact nofun

/-- A path with a null character is not followed at all. -/
theorem locate_eq_nullCharacter_iff :
    tree.locate p = .error .nullCharacter ↔ p.text.toList.contains '\x00' = true := by
  unfold locate
  split
  · next hnull => exact iff_of_true rfl hnull
  · next hnull =>
    refine iff_of_false ?_ hnull
    split
    · exact nofun
    · exact follow_ne_nullCharacter

/-- No file is read at a path with a null character. -/
theorem read_of_null (h : p.text.toList.contains '\x00' = true) :
    tree.read p = .error ⟨.nullCharacter, p⟩ := by
  rw [read, atPath, locate_eq_nullCharacter_iff.2 h]
  rfl

/-- A null character is the fault of the path alone. -/
theorem ne_nullCharacter_of_read {fault : FileFault} (h : tree.read p = .error fault)
    (hnull : p.text.toList.contains '\x00' = false) : fault.reason ≠ .nullCharacter := by
  intro hreason
  rcases atPath_eq_error h with hlocate | ⟨-, haction⟩
  · have hcontains := locate_eq_nullCharacter_iff.1 (hreason ▸ hlocate)
    rw [hnull] at hcontains
    cases hcontains
  · rw [hreason] at haction
    split at haction
    · cases haction
    · split at haction <;> cases haction

end FileTree
end TypedRoutes
