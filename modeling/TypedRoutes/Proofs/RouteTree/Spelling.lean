import Mathlib.Logic.Relation
import TypedRoutes.Proofs.RouteTree.Alike

/-!
# Spellings of routes

What may be changed in a route without a trace in the forest: its name, the case of the letters of
its method, the method altogether if the route streams, and in its path, as it is below the mount
point, the number of slashes in a place and the names of parameters (`Route.Respelling`). The mount
point itself is compared letter by letter, so a slash more within it is no such change.

All that is to be known of paths is that they can be cut at any slash (`segments_append`).
-/

set_option autoImplicit false

namespace TypedRoutes

/-- A text that is cut in front of a separator and behind it has no other parts than before. -/
theorem Text.splitAt_append_cons (separator : Char) (a b : List Char) :
    splitAt separator (a ++ separator :: b) = splitAt separator a ++ splitAt separator b := by
  induction a with
  | nil => simp [splitAt]
  | cons c rest ih =>
    rw [List.cons_append, splitAt, splitAt, ih]
    split
    · rfl
    · obtain ⟨part, parts, hrest⟩ := List.exists_cons_of_ne_nil (splitAt_ne_nil separator rest)
      rw [hrest]
      rfl

/-- A text without the separator is one piece. -/
theorem Text.splitAt_of_not_mem {separator : Char} {cs : List Char} (h : separator ∉ cs) :
    splitAt separator cs = [cs] := by
  induction cs with
  | nil => rfl
  | cons c rest ih =>
    rw [List.mem_cons, not_or] at h
    rw [splitAt, if_neg (Ne.symm h.1), ih h.2]

namespace RoutePath

/-! ## Paths -/

/-- One path is another one with a slash more in front, at the end or beside another slash, or with
another name for a parameter. -/
inductive Respelling : String → String → Prop
  | leading (path : String) : Respelling path ("/" ++ path)
  | trailing (path : String) : Respelling path (path ++ "/")
  | repeated (a b : String) : Respelling (a ++ "/" ++ b) (a ++ "//" ++ b)
  | parameter (a b : String) {name name' : String} :
      '/' ∉ name.toList → '/' ∉ name'.toList →
        Respelling (a ++ "/" ++ ":" ++ name ++ "/" ++ b) (a ++ "/" ++ ":" ++ name' ++ "/" ++ b)

@[simp] theorem segments_empty : segments "" = [] := by decide

/-- The segments of a path are those in front of a slash and those behind it. -/
theorem segments_append (a b : String) :
    segments (a ++ "/" ++ b) = segments a ++ segments b := by
  have hcut : (a ++ "/" ++ b).toList = a.toList ++ '/' :: b.toList := by simp
  rw [segments, hcut, Text.splitAt_append_cons, List.filter_append, List.map_append]
  rfl

/-- A separator in front of a path adds no segment. -/
theorem segments_slash_append (path : String) : segments ("/" ++ path) = segments path := by
  have happend := segments_append "" path
  rwa [String.empty_append, segments_empty, List.nil_append] at happend

theorem segments_append_slash (path : String) : segments (path ++ "/") = segments path := by
  have happend := segments_append path ""
  rwa [String.append_empty, segments_empty, List.append_nil] at happend

/-- A path that is not empty and has no slash is one segment. -/
theorem segments_eq_singleton {path : String} (hne : path ≠ "") (h : '/' ∉ path.toList) :
    segments path = [path] := by
  rw [segments, Text.splitAt_of_not_mem h]
  simp [hne]

/-- A parameter is one dynamic segment, whatever its name. -/
theorem segments_parameter {name : String} (h : '/' ∉ name.toList) :
    (segments (":" ++ name)).map canonical = [(dynamicKey, true)] := by
  have hslash : '/' ∉ (":" ++ name).toList := by simpa using h
  rw [segments_eq_singleton (by simp) hslash]
  simp [canonical]

/-- The canonical segments of a path do not depend on how it is spelt. -/
theorem Respelling.segments_eq {path path' : String} (h : Respelling path path') :
    (segments path).map canonical = (segments path').map canonical := by
  cases h with
  | leading => rw [segments_slash_append]
  | trailing => rw [segments_append_slash]
  | repeated a b =>
    have hcut : a ++ "//" ++ b = a ++ "/" ++ ("/" ++ b) := by
      apply String.ext
      simp
    rw [hcut, segments_append, segments_append a, segments_slash_append]
  | parameter a b hname hname' =>
    have hcut (name : String) :
        a ++ "/" ++ ":" ++ name ++ "/" ++ b = a ++ "/" ++ (":" ++ name ++ "/" ++ b) := by
      apply String.ext
      simp
    simp only [hcut, segments_append, List.map_append, segments_parameter hname,
      segments_parameter hname']

end RoutePath

/-! ## Routes -/

/-- One route is another one below a mount point, spelt in another way. -/
inductive Route.Respelling (mount : Option String) : Route → Route → Prop
  | name (r : Route) (name : Option String) : Respelling mount r { r with name }
  | letterCase (r : Route) {method : String} :
      Text.lowerCase r.method = Text.lowerCase method → Respelling mount r { r with method }
  | verb {r : Route} (method : String) :
      r.streaming = true → Respelling mount r { r with method }
  | path (r : Route) {path : String} :
      RoutePath.Respelling (RoutePath.unmount (RoutePath.normalizeMount mount) r.path)
          (RoutePath.unmount (RoutePath.normalizeMount mount) path) →
        Respelling mount r { r with path }

namespace Route

theorem SameEntry.refl (mount : Option String) (r : Route) : r.SameEntry mount mount r :=
  ⟨rfl, rfl, fun _ => rfl, rfl, rfl⟩

theorem SameEntry.symm {mount mount' : Option String} {r s : Route}
    (h : r.SameEntry mount mount' s) : s.SameEntry mount' mount r :=
  ⟨h.path.symm, h.streaming.symm, fun hs => (h.method (h.streaming.trans hs)).symm,
    h.description.symm, h.slots.symm⟩

theorem SameEntry.trans {mount₁ mount₂ mount₃ : Option String} {r s t : Route}
    (h : r.SameEntry mount₁ mount₂ s) (h' : s.SameEntry mount₂ mount₃ t) :
    r.SameEntry mount₁ mount₃ t :=
  ⟨h.path.trans h'.path, h.streaming.trans h'.streaming,
    fun hr => (h.method hr).trans (h'.method (h.streaming.symm.trans hr)),
    h.description.trans h'.description, h.slots.trans h'.slots⟩

theorem Respelling.sameEntry {mount : Option String} {r s : Route} (h : Respelling mount r s) :
    r.SameEntry mount mount s := by
  cases h with
  | name name => exact ⟨rfl, rfl, fun _ => rfl, rfl, rfl⟩
  | letterCase hmethod => exact ⟨rfl, rfl, fun _ => hmethod, rfl, rfl⟩
  | verb method hstreaming =>
    refine ⟨rfl, rfl, fun hplain => ?_, rfl, rfl⟩
    rw [hstreaming] at hplain
    cases hplain
  | path hpath =>
    exact ⟨congrArg Entries.keys hpath.segments_eq, rfl, fun _ => rfl, rfl, rfl⟩

/-- Any number of changes of the spelling leaves an entry the same. -/
theorem sameEntry_of_eqvGen {mount : Option String} {r s : Route}
    (h : Relation.EqvGen (Respelling mount) r s) : r.SameEntry mount mount s := by
  induction h with
  | rel r s h => exact h.sameEntry
  | refl r => exact .refl mount r
  | symm r s _ ih => exact ih.symm
  | trans r s t _ _ ih ih' => exact ih.trans ih'

end Route
end TypedRoutes
