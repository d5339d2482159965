import TypedRoutes.Proofs.Datum.Display
import TypedRoutes.Proofs.Outcome
import TypedRoutes.Yaml.Scalar

/-!
# Scalars that are read

Whatever a tag asks for, the floats that are read have their canonical shape
(`Tag.isCanonical_of_read?`), because every way of reading one ends in rounding.
-/

set_option autoImplicit false

namespace TypedRoutes

open Binary64 (IsCanonical)

/-- A number that is rounded from its numeral is canonical. -/
theorem Numeral.isCanonical_of_readBinary64 {text : String} {x : Binary64}
    (h : readBinary64 text = some x) : x.IsCanonical := by
  unfold readBinary64 at h
  dsimp only at h
  split at h
  · obtain rfl := Option.some.inj h
    trivial
  · split at h
    · obtain rfl := Option.some.inj h
      trivial
    · split at h
      · obtain rfl := Option.some.inj h
        exact Binary64.isCanonical_ofDecimal _ _ _
      · cases h

namespace Yaml

theorem isCanonical_of_readPart {cs : List Char} {x : Binary64} (h : readPart cs = .ok x) :
    x.IsCanonical := by
  unfold readPart at h
  dsimp only at h
  split at h
  · next hread =>
    obtain rfl := Except.ok.inj h
    exact Numeral.isCanonical_of_readBinary64 hread
  · cases h

/-- A sum to the base of sixty has its canonical shape if what it starts from has. -/
theorem isCanonical_of_sexagesimalSum {sum x : Binary64} {place : Int} {digits : List Binary64}
    (hsum : sum.IsCanonical) (h : sexagesimalSum sum place digits = .ok x) : x.IsCanonical := by
  induction digits generalizing sum place with
  | nil =>
    obtain rfl := Except.ok.inj h
    exact hsum
  | cons digit rest ih =>
    rw [sexagesimalSum] at h
    split at h
    · cases h
    · exact ih (Binary64.isCanonical_add _ _) h

/-- A number without its sign is canonical: read as a whole, or summed up from its parts. -/
theorem isCanonical_of_readUnsignedFloat {cs : List Char} {x : Binary64}
    (h : readUnsignedFloat cs = .ok x) : x.IsCanonical := by
  unfold readUnsignedFloat at h
  split at h
  · obtain rfl := Except.ok.inj h
    trivial
  · split at h
    · obtain rfl := Except.ok.inj h
      trivial
    · split at h
      · obtain ⟨digits, -, h⟩ := Outcome.bind_eq_ok.1 h
        exact isCanonical_of_sexagesimalSum (Binary64.isCanonical_zero false) h
      · exact isCanonical_of_readPart h

/-- A scalar that is read as a number is canonical. -/
theorem isCanonical_of_readFloat {text : String} {s : Scalar} (h : readFloat text = .ok s) :
    s.IsCanonical := by
  unfold readFloat at h
  split at h
  · cases h
  · obtain ⟨x, hx, rfl⟩ := Outcome.map_eq_ok.1 h
    have hcanonical := isCanonical_of_readUnsignedFloat hx
    split
    · exact hcanonical.neg
    · exact hcanonical

/-- What is read is either a float that has been rounded or no float at all. -/
theorem Tag.isCanonical_of_read? {tag : Tag} {text : String} {s : Scalar}
    (h : tag.read? text = some (.ok s)) : s.IsCanonical := by
  -- Only the tag of floats leads to a float; the scalars of the others are canonical as they are.
  cases tag with
  | float => exact isCanonical_of_readFloat (Option.some.inj h)
  | null =>
    obtain rfl := Except.ok.inj (Option.some.inj h)
    trivial
  | str =>
    obtain rfl := Except.ok.inj (Option.some.inj h)
    trivial
  | bool =>
    have hread : readBoolean text = .ok s := Option.some.inj h
    unfold readBoolean at hread
    dsimp only at hread
    split at hread
    · obtain rfl := Except.ok.inj hread
      trivial
    · cases hread
  | int =>
    have hread : readInt text = .ok s := Option.some.inj h
    unfold readInt at hread
    split at hread
    · cases hread
    · split at hread
      · obtain ⟨n, -, rfl⟩ := Outcome.map_eq_ok.1 hread
        trivial
      · obtain ⟨n, -, rfl⟩ := Outcome.map_eq_ok.1 hread
        trivial
  | binary =>
    have hread : readBinary text = .ok s := Option.some.inj h
    unfold readBinary at hread
    dsimp only at hread
    split at hread
    · split at hread
      · obtain rfl := Except.ok.inj hread
        trivial
      · cases hread
    · cases hread
  | timestamp =>
    have hread : readTimestamp text = .ok s := Option.some.inj h
    unfold readTimestamp at hread
    split at hread
    · cases hread
    · obtain ⟨d, -, rfl⟩ := Outcome.map_eq_ok.1 hread
      trivial
    · obtain ⟨t, -, rfl⟩ := Outcome.map_eq_ok.1 hread
      trivial
  | _ => cases h

end Yaml
end TypedRoutes
