import TypedRoutes.Proofs.Entries
import TypedRoutes.Proofs.FileTree.Path

/-!
# Publishing files

What `FileTree.publish` does to a tree, and when it can do it (`FileTree.publish_spec`). If the path
can be reached and nothing stands in its place but perhaps a file, the file is there afterwards and
no other one has changed; otherwise all files are as before, and at most directories have been made.

Directories are made from the top down, and each of these steps has one lemma for whatever becomes
of it: `makeDirectory_eq_ok_iff` and `makeDirectoriesWithin_spec`, which carries the invariant of
the recursion, and `write_eq_ok_iff`.
-/

set_option autoImplicit false

namespace TypedRoutes.FileTree

/-! ## What is done -/

/-- Everything on the way to a path is a directory now, and nothing else has changed. -/
structure HasMade (tree : FileTree) (p : FilePath) (after : FileTree) : Prop where
  files : after.files = tree.files
  isDirectory : ∀ l, after.isDirectory l = true ↔ tree.isDirectory l = true ∨ l ∈ p.reached

/-- A file is where a path leads now, and all other files are as they were. -/
structure HasWritten (tree : FileTree) (p : FilePath) (content : List UInt8) (after : FileTree) :
    Prop where
  located : after.locate p = .ok p.location
  written : after.content? p.location = some content
  others : ∀ l, l ≠ p.location → after.content? l = tree.content? l

/-- A path leads to a directory, or directories can be made where it leads: everything on the way is
a directory or free. -/
structure CanReach (tree : FileTree) (p : FilePath) : Prop where
  nameable : p.IsNameable
  isFree : ∀ l ∈ p.reached, tree.isDirectory l = true ∨ tree.content? l = none

/-- A file can be put where a path leads: everything on the way is a directory or free, and there is
and will be no directory in its place. -/
structure CanHold (tree : FileTree) (p : FilePath) : Prop where
  nameable : p.IsNameable
  isFree : ∀ l ∈ p.passed, tree.isDirectory l = true ∨ tree.content? l = none
  notDirectory : tree.isDirectory p.location = false
  notPassed : p.location ∉ p.passed

/-! ## One step -/

variable {tree after : FileTree} {p : FilePath} {content : List UInt8}

/-- Setting the content of a file is an assignment among the files. -/
theorem setFile_eq_put (l : Location) (content : List UInt8)
    (files : List (Location × List UInt8)) :
    setFile l content files = Entries.put l content files := by
  induction files with
  | nil => rfl
  | cons entry rest ih =>
    obtain ⟨k, old⟩ := entry
    by_cases h : k = l
    · subst h
      rw [setFile, if_pos rfl, Entries.put, Entries.alter_cons_self]
    · rw [setFile, if_neg h, ih, Entries.put, Entries.put, Entries.alter_cons_of_ne h]

/-- A file is written when its path can be located and leads to no directory; nothing else
changes. -/
theorem write_eq_ok_iff :
    tree.write p content = .ok after ↔
      tree.locate p = .ok p.location ∧ tree.isDirectory p.location = false ∧
        after = { tree with files := setFile p.location content tree.files } := by
  rw [write, atPath_eq_ok_iff]
  cases tree.isDirectory p.location <;> simp [eq_comm]

/-- The way to a path does not depend on the files. -/
theorem locate_withFiles {l : Location} (h : tree.locate p = .ok l)
    (files : List (Location × List UInt8)) : { tree with files }.locate p = .ok l := by
  rw [locate_eq_ok_iff] at h ⊢
  exact h

/-- After a successful write the tree has the content under the path. -/
theorem hasWritten_of_write (h : tree.write p content = .ok after) :
    tree.HasWritten p content after := by
  obtain ⟨hlocate, -, rfl⟩ := write_eq_ok_iff.1 h
  refine ⟨locate_withFiles hlocate _, ?_, fun l hl => ?_⟩
  · rw [content?, setFile_eq_put, Entries.put, Entries.lookup_alter_self]
  · rw [content?, setFile_eq_put, Entries.put, Entries.lookup_alter_of_ne hl, content?]

/-- A directory is made when its path can be located and nothing is there; nothing else changes. -/
theorem makeDirectory_eq_ok_iff :
    tree.makeDirectory p = .ok after ↔
      tree.locate p = .ok p.location ∧ tree.isDirectory p.location = false ∧
        tree.content? p.location = none ∧
          after = { tree with directories := tree.directories ++ [p.location] } := by
  rw [makeDirectory, atPath_eq_ok_iff]
  cases tree.isDirectory p.location <;> cases tree.content? p.location <;> simp [eq_comm]

/-- A path leads to a directory when it can be located and one is there. -/
theorem leadsToDirectory_iff :
    tree.leadsToDirectory p = true ↔
      tree.locate p = .ok p.location ∧ tree.isDirectory p.location = true := by
  unfold leadsToDirectory
  cases hlocate : tree.locate p with
  | error reason => simp
  | ok l =>
    obtain ⟨rfl, -⟩ := locate_eq_ok_iff.1 hlocate
    simp

/-- A directory more is one directory more, and the others stay. -/
theorem isDirectory_append {l k : Location} {files : List (Location × List UInt8)} :
    isDirectory ⟨files, tree.directories ++ [l]⟩ k = true ↔ tree.isDirectory k = true ∨ k = l := by
  simp [isDirectory, or_assoc]

/-! ## Making directories -/

/-- What becomes of making a directory with all that are missing above it. -/
inductive MakesDirectories (tree : FileTree) (p : FilePath) : Except Breach FileTree → Prop
  | made {after : FileTree} :
      tree.CanReach p → tree.HasMade p after → MakesDirectories tree p (.ok after)
  | failed {breach : Breach} :
      ¬ tree.CanReach p → breach.left.files = tree.files → MakesDirectories tree p (.error breach)

/-- A single directory that is made is all that its path needs. -/
theorem makesDirectories_of_makeDirectory (h : tree.makeDirectory p = .ok after) :
    tree.MakesDirectories p (.ok after) := by
  obtain ⟨hlocate, -, hfree, rfl⟩ := makeDirectory_eq_ok_iff.1 h
  obtain ⟨-, hnameable, hpassed⟩ := locate_eq_ok_iff.1 hlocate
  refine .made ⟨hnameable, ?_⟩ ⟨rfl, fun l => ?_⟩
  · rw [FilePath.reached, List.forall_mem_append, List.forall_mem_singleton]
    exact ⟨fun l hl => .inl (hpassed l hl), .inr hfree⟩
  · rw [isDirectory_append, FilePath.reached, List.mem_append, List.mem_singleton]
    constructor
    · exact fun h => h.imp_right .inr
    · rintro (h | h | h)
      · exact .inl h
      · exact .inl (hpassed l h)
      · exact .inr h

/-- A directory cannot be made where one is already, or where a file or the path is in the way. -/
theorem makesDirectories_acceptDirectory {fault : FileFault}
    (h : tree.makeDirectory p = .error fault) (hreason : fault.reason ≠ .missing) :
    tree.MakesDirectories p (tree.acceptDirectory p fault) := by
  unfold acceptDirectory
  split
  · next hleads =>
    obtain ⟨hlocate, hdirectory⟩ := leadsToDirectory_iff.1 hleads
    obtain ⟨-, hnameable, hpassed⟩ := locate_eq_ok_iff.1 hlocate
    have hreached : ∀ l ∈ p.reached, tree.isDirectory l = true := by
      rw [FilePath.reached, List.forall_mem_append, List.forall_mem_singleton]
      exact ⟨hpassed, hdirectory⟩
    refine .made ⟨hnameable, fun l hl => .inl (hreached l hl)⟩ ⟨rfl, fun l => ?_⟩
    exact ⟨.inl, fun h => h.elim id (hreached l)⟩
  · next hleads =>
    refine .failed ?_ rfl
    rintro ⟨hnameable, hfree⟩
    rw [FilePath.reached, List.forall_mem_append, List.forall_mem_singleton] at hfree
    rcases atPath_eq_error h with hlocate | ⟨hlocate, -⟩
    · exact hreason (eq_missing_of_locate_eq_error hlocate hnameable hfree.1)
    -- The location is neither a directory nor taken, so the directory is made.
    · have hdirectory : tree.isDirectory p.location = false := by
        rw [← Bool.not_eq_true]
        exact fun h => hleads (leadsToDirectory_iff.2 ⟨hlocate, h⟩)
      have hcontent := hfree.2.resolve_left (by rw [hdirectory]; exact Bool.false_ne_true)
      have hmade := makeDirectory_eq_ok_iff.2 ⟨hlocate, hdirectory, hcontent, rfl⟩
      cases h.symm.trans hmade

/-- Below a directory that has been made, making one more is all that is left. -/
theorem MakesDirectories.of_hasMade {parent : FilePath} {middle : FileTree}
    {result : Except Breach FileTree} (hsubset : parent.reached ⊆ p.reached)
    (hparent : tree.CanReach parent) (hmade : tree.HasMade parent middle)
    (h : middle.MakesDirectories p result) : tree.MakesDirectories p result := by
  have hcontent (l : Location) : middle.content? l = tree.content? l := by
    rw [content?, hmade.files, content?]
  have hreach : middle.CanReach p ↔ tree.CanReach p := by
    constructor
    · rintro ⟨hnameable, hfree⟩
      refine ⟨hnameable, fun l hl => ?_⟩
      rcases hfree l hl with hdirectory | hnone
      · exact ((hmade.isDirectory l).1 hdirectory).elim .inl (hparent.isFree l)
      · exact .inr (hcontent l ▸ hnone)
    · rintro ⟨hnameable, hfree⟩
      refine ⟨hnameable, fun l hl => ?_⟩
      exact (hfree l hl).imp (fun h => (hmade.isDirectory l).2 (.inl h)) (hcontent l).trans
  cases h with
  | made hcan hafter =>
    refine .made (hreach.1 hcan) ⟨hafter.files.trans hmade.files, fun l => ?_⟩
    rw [hafter.isDirectory, hmade.isDirectory, or_assoc]
    exact or_congr_right (or_iff_right_of_imp fun hl => hsubset hl)
  | failed hcan hfiles => exact .failed (mt hreach.2 hcan) (hfiles.trans hmade.files)

theorem reached_subset (slashes : Nat) (names : List String) (name : String) :
    FilePath.reached ⟨slashes, names⟩ ⊆ FilePath.reached ⟨slashes, names ++ [name]⟩ := by
  rw [← FilePath.passed_append_singleton slashes names name]
  exact List.subset_append_left _ _

theorem CanReach.parent {slashes : Nat} {names : List String} {name : String}
    (h : tree.CanReach ⟨slashes, names ++ [name]⟩) : tree.CanReach ⟨slashes, names⟩ :=
  ⟨h.nameable.parent, fun l hl => h.isFree l (reached_subset slashes names name hl)⟩

/-- Nothing is missing for the last directory if all those above it are there. -/
theorem ne_missing_of_makeDirectory {fault : FileFault} (h : tree.makeDirectory p = .error fault)
    (hpassed : ∀ l ∈ p.passed, tree.isDirectory l = true) : fault.reason ≠ .missing := by
  rcases atPath_eq_error h with hlocate | ⟨-, haction⟩
  · exact ne_missing_of_locate_eq_error hlocate hpassed
  · split at haction
    · rw [← Except.error.inj haction]
      exact nofun
    · cases haction

/-- One attempt is enough unless something is missing. -/
theorem makeDirectoriesWithin_of_ne_missing
    (h : ∀ fault, tree.makeDirectory p = .error fault → fault.reason ≠ .missing) (depth : Nat) :
    tree.MakesDirectories p (makeDirectoriesWithin depth tree p) := by
  unfold makeDirectoriesWithin
  cases hmake : tree.makeDirectory p with
  | ok after => exact makesDirectories_of_makeDirectory hmake
  | error fault =>
    simp only [if_neg (h fault hmake)]
    exact makesDirectories_acceptDirectory hmake (h fault hmake)

/-- The directory is made if and only if it can be. -/
theorem makeDirectoriesWithin_spec {slashes : Nat} {names : List String} {depth : Nat}
    (hdepth : names.length ≤ depth) :
    tree.MakesDirectories ⟨slashes, names⟩ (makeDirectoriesWithin depth tree ⟨slashes, names⟩) := by
  induction names using List.reverseRecOn generalizing depth with
  | nil =>
    exact makeDirectoriesWithin_of_ne_missing
      (fun fault hfault => ne_missing_of_makeDirectory hfault (List.forall_mem_nil _)) depth
  | append_singleton names name ih =>
    obtain ⟨below, rfl⟩ := Nat.exists_eq_add_of_le' (show 1 ≤ depth by simp at hdepth; omega)
    have hbelow : names.length ≤ below := by simpa using hdepth
    by_cases hmissing : ∃ fault, tree.makeDirectory ⟨slashes, names ++ [name]⟩ = .error fault ∧
        fault.reason = .missing
    · obtain ⟨fault, hmake, hreason⟩ := hmissing
      rw [makeDirectoriesWithin, hmake]
      simp only [if_pos hreason, FilePath.parent_append_singleton]
      have hparent := ih hbelow
      cases hmiddle : makeDirectoriesWithin below tree ⟨slashes, names⟩ with
      | error breach =>
        rw [hmiddle] at hparent
        obtain - | ⟨hcan, hfiles⟩ := hparent
        exact .failed (fun h => hcan h.parent) hfiles
      | ok middle =>
        rw [hmiddle] at hparent
        obtain ⟨hcan, hmade⟩ := hparent
        refine .of_hasMade (reached_subset slashes names name) hcan hmade ?_
        -- Now everything above is there, so the second attempt decides.
        have hpassed : ∀ l ∈ FilePath.passed ⟨slashes, names ++ [name]⟩,
            middle.isDirectory l = true := by
          rw [FilePath.passed_append_singleton]
          exact fun l hl => (hmade.isDirectory l).2 (.inr hl)
        dsimp only
        cases hagain : middle.makeDirectory ⟨slashes, names ++ [name]⟩ with
        | ok after => exact makesDirectories_of_makeDirectory hagain
        | error fault =>
          exact makesDirectories_acceptDirectory hagain (ne_missing_of_makeDirectory hagain hpassed)
    · refine makeDirectoriesWithin_of_ne_missing (fun fault hfault hreason => ?_) _
      exact hmissing ⟨fault, hfault, hreason⟩

/-- Making the directories of a path gives all that the path needs, or fails when it cannot be
reached. -/
theorem makeDirectories_spec (tree : FileTree) (p : FilePath) :
    tree.MakesDirectories p (tree.makeDirectories p) :=
  makeDirectoriesWithin_spec (Nat.le_refl _)

/-! ## Publishing -/

/-- What becomes of publishing a file. -/
inductive Publishes (tree : FileTree) (p : FilePath) (content : List UInt8) :
    Except Breach FileTree → Prop
  | written {after : FileTree} :
      tree.CanHold p → tree.HasWritten p content after → Publishes tree p content (.ok after)
  | failed {breach : Breach} :
      ¬ tree.CanHold p → breach.left.files = tree.files → Publishes tree p content (.error breach)

/-- What is passed on the way to a path is what leads to its parent, unless the path has no name and
leads to an origin, which is a directory. -/
theorem passed_eq_reached_parent (h : tree.isDirectory p.location = false) :
    p.passed = p.parent.reached := by
  obtain ⟨slashes, names⟩ := p
  induction names using List.reverseRecOn with
  | nil =>
    have horigin : tree.isDirectory (FilePath.location ⟨slashes, []⟩) = true := by
      rw [isDirectory, FilePath.location, FilePath.base]
      split <;> rfl
    rw [h] at horigin
    cases horigin
  | append_singleton names name _ =>
    rw [FilePath.passed_append_singleton, FilePath.parent_append_singleton]

theorem CanHold.canReach_parent (h : tree.CanHold p) : tree.CanReach p.parent := by
  have hpassed := passed_eq_reached_parent h.notDirectory
  refine ⟨?_, fun l hl => h.isFree l (hpassed ▸ hl)⟩
  obtain ⟨slashes, names⟩ := p
  induction names using List.reverseRecOn with
  | nil => exact h.nameable
  | append_singleton names name _ =>
    rw [FilePath.parent_append_singleton]
    exact h.nameable.parent

/-- A file is published if and only if its path can hold one. -/
theorem publish_spec (tree : FileTree) (p : FilePath) (content : List UInt8) :
    tree.Publishes p content (tree.publish p content) := by
  unfold publish
  have hparent := tree.makeDirectories_spec p.parent
  cases hmiddle : tree.makeDirectories p.parent with
  | error breach =>
    rw [hmiddle] at hparent
    obtain - | ⟨hcan, hfiles⟩ := hparent
    exact .failed (fun h => hcan h.canReach_parent) hfiles
  | ok middle =>
    rw [hmiddle] at hparent
    obtain ⟨hcan, hmade⟩ := hparent
    have hdirectory (l : Location) : middle.isDirectory l = true ↔
      tree.isDirectory l = true ∨ l ∈ p.parent.reached := hmade.isDirectory l
    simp only [Except.bind]
    cases hwrite : middle.write p content with
    | ok after =>
      obtain ⟨hlocate, hplace, -⟩ := write_eq_ok_iff.1 hwrite
      have hpassed := passed_eq_reached_parent hplace
      obtain ⟨hlocated, hwritten, hothers⟩ := hasWritten_of_write hwrite
      rw [← Bool.not_eq_true, hdirectory, not_or, ← hpassed] at hplace
      refine .written ⟨(locate_eq_ok_iff.1 hlocate).2.1, fun l hl => ?_, by simpa using hplace.1,
        hplace.2⟩ ⟨hlocated, hwritten, fun l hl => ?_⟩
      · exact hcan.isFree l (hpassed ▸ hl)
      · rw [hothers l hl, content?, hmade.files, content?]
    -- With the directories made, nothing is left that could stop a path that can hold a file.
    | error fault =>
      refine .failed (fun h => ?_) hmade.files
      have hpassed := passed_eq_reached_parent h.notDirectory
      have hlocate : middle.locate p = .ok p.location := by
        refine locate_eq_ok_iff.2 ⟨rfl, h.nameable, fun l hl => (hdirectory l).2 (.inr ?_)⟩
        exact hpassed ▸ hl
      have hplace : middle.isDirectory p.location = false := by
        rw [← Bool.not_eq_true, hdirectory, not_or, ← hpassed, h.notDirectory]
        exact ⟨Bool.false_ne_true, h.notPassed⟩
      cases hwrite.symm.trans (write_eq_ok_iff.2 ⟨hlocate, hplace, rfl⟩)

end TypedRoutes.FileTree
