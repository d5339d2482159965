import TypedRoutes.Proofs.FileTree.Publish

/-!
# Trees that differ in one place

Two trees agree beside a location if they hold the same files and directories, but for that location
and the directories on the way down to it. What can be done with a path that stays apart from the
location is then the same in both (`FileTree.AgreesBeside.canHold_iff`).
-/

set_option autoImplicit false

namespace TypedRoutes

/-- A path leads neither to a location nor through it, nor to anything above it. -/
structure FilePath.IsApartFrom (p : FilePath) (l : Location) : Prop where
  location : p.location ≠ l
  passed : l ∉ p.passed
  above : ¬ p.location.IsAbove l

namespace FileTree

/-- Two trees are the same, but for a location and the directories above it, where no file is. -/
structure AgreesBeside (l : Location) (tree other : FileTree) : Prop where
  content : ∀ k, k ≠ l → tree.content? k = other.content? k
  isDirectory : ∀ k, k ≠ l → ¬ k.IsAbove l → tree.isDirectory k = other.isDirectory k
  above : ∀ k, k.IsAbove l → tree.content? k = none

variable {l : Location} {tree other : FileTree}

theorem AgreesBeside.symm (h : AgreesBeside l tree other) : AgreesBeside l other tree where
  content k hk := (h.content k hk).symm
  isDirectory k hk habove := (h.isDirectory k hk habove).symm
  above k habove := by
    obtain ⟨-, -, hne⟩ := id habove
    rw [← h.content k hne]
    exact h.above k habove

/-- A path apart from the place can be held by the other tree when it can be held by one. -/
theorem AgreesBeside.canHold {p : FilePath} (h : AgreesBeside l tree other)
    (hp : p.IsApartFrom l) (hcan : tree.CanHold p) : other.CanHold p where
  nameable := hcan.nameable
  isFree k hk := by
    have hne : k ≠ l := by
      rintro rfl
      exact hp.passed hk
    by_cases habove : k.IsAbove l
    · exact .inr (h.symm.above k habove)
    · rw [← h.isDirectory k hne habove, ← h.content k hne]
      exact hcan.isFree k hk
  notDirectory := by
    rw [← h.isDirectory _ hp.location hp.above]
    exact hcan.notDirectory
  notPassed := hcan.notPassed

/-- What path can hold a file does not depend on a place that it is apart from. -/
theorem AgreesBeside.canHold_iff {p : FilePath} (h : AgreesBeside l tree other)
    (hp : p.IsApartFrom l) : tree.CanHold p ↔ other.CanHold p :=
  ⟨h.canHold hp, h.symm.canHold hp⟩

end FileTree
end TypedRoutes
