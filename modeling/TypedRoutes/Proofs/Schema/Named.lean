import Mathlib.Data.List.Basic
import TypedRoutes.Proofs.Outcome
import TypedRoutes.Schema

/-!
# Names of properties

Decoding one level of a schema meets an error only in the name of a property or in a part of the
level (`Layer.decoded_ne_error`). The names of a level (`Layer.names`) are keys of a mapping that
stands under `properties` (`forall_names_ofEntries`).
-/

set_option autoImplicit false

namespace TypedRoutes.Schema

variable {α : Type}

/-- The keys that become names of properties. -/
def Branch.names : Branch α → List Scalar
  | .fields properties _ => properties.map Prod.fst
  | _ => []

/-- The keys that become names of properties, in every alternative. -/
def Layer.names : Layer α → List Scalar
  | .branch alternative => alternative.names
  | .branches alternatives => alternatives.flatMap Branch.names
  | _ => []

/-! ## Errors of a level -/

section Decoding

variable {ε : Type} {literal : α → Literal} {name : Scalar → Except ε String}
  {decode : α → Except ε Schema} {e : ε} (hdecode : ∀ value, decode value ≠ .error e)

include hdecode

/-- Decoding properties fails in no way in which the name of no key fails. -/
theorem decodeProperties_ne_error {properties : List (Scalar × α)}
    (hname : ∀ key ∈ properties.map Prod.fst, name key ≠ .error e) :
    decodeProperties name decode properties ≠ .error e := by
  induction properties with
  | nil => exact nofun
  | cons entry rest ih =>
    obtain ⟨hfirst, hrest⟩ := List.forall_mem_cons.1 hname
    exact Outcome.bind_ne_error hfirst fun _ => Outcome.bind_ne_error (hdecode entry.2) fun _ =>
      Outcome.bind_ne_error (ih hrest) fun _ => nofun

/-- Decoding a branch fails in no way in which the name of no key in it fails. -/
theorem Branch.decoded_ne_error {branch : Branch α}
    (hname : ∀ key ∈ branch.names, name key ≠ .error e) :
    branch.decoded name decode ≠ .error e := by
  cases branch with
  | array items =>
    cases items with
    | none => exact nofun
    | some items => exact Outcome.map_ne_error (hdecode items)
  | fields properties required =>
    exact Outcome.map_ne_error (decodeProperties_ne_error hdecode hname)
  | record value =>
    cases value with
    | none => exact nofun
    | some value => exact Outcome.map_ne_error (hdecode value)
  | _ => exact nofun

/-- A level meets an error only in a name or in a part. -/
theorem Layer.decoded_ne_error {layer : Layer α}
    (hname : ∀ key ∈ layer.names, name key ≠ .error e) :
    layer.decoded literal name decode ≠ .error e := by
  cases layer with
  | union _ members | intersection members =>
    exact Outcome.map_ne_error (Outcome.mapM_ne_error fun member _ => hdecode member)
  | branch alternative => exact Branch.decoded_ne_error hdecode hname
  | branches alternatives =>
    refine Outcome.map_ne_error (Outcome.mapM_ne_error fun alternative halternative => ?_)
    apply Branch.decoded_ne_error hdecode
    intro key hkey
    exact hname key (List.mem_flatMap_of_mem halternative hkey)
  | _ => exact nofun

end Decoding

/-! ## Where the names stand -/

section Selection

variable {shape : α → Shape α} {entries : List (Scalar × α)} {P : Scalar → Prop}

theorem exists_shape_of_mapAt? {keyword : String} {inner : List (Scalar × α)}
    (h : mapAt? shape keyword entries = some inner) : ∃ value, shape value = .map inner := by
  unfold mapAt? at h
  split at h
  · next hfield =>
    obtain rfl := Option.some.inj h
    obtain ⟨value, -, hshape⟩ := Option.map_eq_some_iff.1 hfield
    exact ⟨value, hshape⟩
  · cases h

variable (hkeys : ∀ value inner, shape value = .map inner → ∀ entry ∈ inner, P entry.1)

include hkeys

/-- What holds of every key of the document holds of the names of an object. -/
theorem Branch.forall_names_object : ∀ key ∈ (Branch.object shape entries).names, P key := by
  unfold Branch.object
  split
  · exact nofun
  · split
    · next hproperties =>
      obtain ⟨value, hshape⟩ := exists_shape_of_mapAt? hproperties
      exact List.forall_mem_map.2 (hkeys value _ hshape)
    · split
      · exact nofun
      · exact nofun

/-- What holds of every key holds of the names that a type name leads to. -/
theorem Branch.forall_names_ofTypeName (typeName : String) :
    ∀ key ∈ (Branch.ofTypeName shape typeName entries).names, P key := by
  unfold Branch.ofTypeName
  split
  · exact nofun
  · split
    · exact Branch.forall_names_object hkeys
    · split
      · exact nofun
      · exact nofun

/-- What holds of every key holds of the names that a member of a list of types leads to. -/
theorem Branch.forall_names_ofTypeMember (member : α) :
    ∀ key ∈ (Branch.ofTypeMember shape entries member).names, P key := by
  unfold Branch.ofTypeMember
  split
  · exact Branch.forall_names_ofTypeName hkeys _
  · exact nofun

/-- What holds of every key holds of the names that a mapping without a type leads to. -/
theorem Branch.forall_names_undeclared :
    ∀ key ∈ (Branch.undeclared shape entries).names, P key := by
  unfold Branch.undeclared
  split
  · exact Branch.forall_names_object hkeys
  · exact nofun

/-- What holds of every key holds of the names that the declared types lead to. -/
theorem Layer.forall_names_declared : ∀ key ∈ (Layer.declared shape entries).names, P key := by
  unfold Layer.declared
  split
  · next first rest _ =>
    intro key hkey
    obtain ⟨alternative, halternative, hkey⟩ := List.mem_flatMap.1 hkey
    obtain ⟨member, -, rfl⟩ := List.mem_map.1 halternative
    exact Branch.forall_names_ofTypeMember hkeys member key hkey
  · split
    · exact Branch.forall_names_ofTypeName hkeys _
    · exact Branch.forall_names_undeclared hkeys
  · exact Branch.forall_names_undeclared hkeys

/-- The names of the level of a mapping are keys of mappings. -/
theorem Layer.forall_names_ofEntries : ∀ key ∈ (Layer.ofEntries shape entries).names, P key := by
  unfold Layer.ofEntries
  -- Only the declared type, which is looked at last, gives names.
  split
  · exact nofun
  · split
    · exact nofun
    · split
      · exact nofun
      · split
        · exact nofun
        · split
          · exact nofun
          · exact Layer.forall_names_declared hkeys

end Selection

end TypedRoutes.Schema
