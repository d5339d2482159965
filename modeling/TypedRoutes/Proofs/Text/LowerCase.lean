import Mathlib.Data.List.Basic
import TypedRoutes.Text.LowerCase

/-!
# Words in any letter case

Beyond ASCII there are capitals whose lower-case form is an ASCII letter: the Kelvin sign becomes
`k`, and the dotted capital I becomes `i` with a mark behind it. These are all of them
(`lowerChar_of_not_ascii`), so a word of ASCII letters other than `k` is the lower-case form of
nothing but its own spellings in ASCII letters (`lowerCase_eq_iff`).
-/

set_option autoImplicit false

namespace TypedRoutes.Text

/-! ## Characters -/

/-- Only the run of the Kelvin sign leads into ASCII. -/
theorem not_ascii_of_mem_lowerCaseRuns : ∀ run ∈ lowerCaseRuns,
    128 ≤ (run.1 : Int) + run.2.2.2 ∨ run = (8490, 8490, 1, -8383) := by
  decide +kernel

theorem lowerChar_of_ascii {c : Char} (h : c.toNat < 128) : lowerChar c = c.toLower := by
  rw [lowerChar, if_pos h]

theorem not_ascii_or_eq_nul (n : Nat) (h : 128 ≤ n) :
    128 ≤ (Char.ofNat n).toNat ∨ Char.ofNat n = '\x00' := by
  by_cases hvalid : n.isValidChar
  · left
    rw [Char.ofNat, dif_pos hvalid]
    exact h
  · right
    rw [Char.ofNat, dif_neg hvalid]
    rfl

/-- The lower-case form of a character beyond ASCII is beyond ASCII too, but for the Kelvin sign. -/
theorem lowerChar_of_not_ascii {c : Char} (h : ¬ c.toNat < 128) :
    128 ≤ (lowerChar c).toNat ∨ lowerChar c = 'k' ∨ lowerChar c = '\x00' := by
  rw [lowerChar, if_neg h]
  dsimp only
  cases hfound : List.findSome? _ lowerCaseRuns with
  | none => exact .inl (Nat.not_lt.1 h)
  | some d =>
    obtain ⟨⟨first, last, step, distance⟩, hrun, hd⟩ := List.exists_of_findSome?_eq_some hfound
    obtain ⟨⟨hfirst, hlast, -⟩, rfl⟩ := Option.ite_some_none_eq_some.1 hd
    rw [Option.getD_some]
    rcases not_ascii_of_mem_lowerCaseRuns _ hrun with hbeyond | hkelvin
    · have hplace : 128 ≤ ((c.toNat : Int) + distance).toNat := by
        dsimp only at hbeyond
        omega
      rcases not_ascii_or_eq_nul _ hplace with hcode | hnul
      · exact .inl hcode
      · exact .inr (.inr hnul)
    · simp only [Prod.mk.injEq] at hkelvin
      obtain ⟨rfl, rfl, -, rfl⟩ := hkelvin
      have hcode : c.toNat = 8490 := Nat.le_antisymm hlast hfirst
      rw [hcode]
      exact .inr (.inl rfl)

theorem toNat_lt_of_isLower {c : Char} (h : c.isLower = true) : c.toNat < 128 := by
  obtain ⟨-, hlast⟩ := (Bool.and_eq_true _ _).mp h
  have hcode : c.toNat ≤ 122 := UInt32.le_iff_toNat_le.1 (of_decide_eq_true hlast)
  omega

/-- Letters of ASCII that no other character has as its lower-case form. -/
def IsUnshared (c : Char) : Prop := c.isLower = true ∧ c ≠ 'k'

theorem toLower_of_not_ascii {c : Char} (h : ¬ c.toNat < 128) : c.toLower = c := by
  refine dif_neg ?_
  rintro ⟨-, hlast⟩
  have hcode : c.toNat ≤ 90 := UInt32.le_iff_toNat_le.1 hlast
  omega

/-- A character that no character beyond ASCII becomes is the lower case of ASCII letters only. -/
theorem lowerChar_eq_iff {c d : Char} (hd : IsUnshared d) : lowerChar c = d ↔ c.toLower = d := by
  by_cases hc : c.toNat < 128
  · rw [lowerChar_of_ascii hc]
  · have hascii := toNat_lt_of_isLower hd.1
    have hlower : lowerChar c ≠ d := by
      rintro rfl
      rcases lowerChar_of_not_ascii hc with hcode | hk | hnul
      · exact absurd hascii (Nat.not_lt.2 hcode)
      · exact hd.2 hk
      · rw [hnul] at hd
        exact absurd hd.1 (by decide)
    have hsame : c.toLower ≠ d := by
      rw [toLower_of_not_ascii hc]
      rintro rfl
      exact hc hascii
    exact iff_of_false hlower hsame

/-! ## Words -/

/-- The lower-case form of a character is one character, or it holds one that is no letter of
ASCII. -/
theorem lowerWithin_cases (before : List Char) (c : Char) (after : List Char) :
    lowerWithin before c after = [lowerChar c] ∨
      ¬ c.toNat < 128 ∧ ∃ d ∈ lowerWithin before c after, d.isLower = false := by
  unfold lowerWithin
  split
  · next hdotted =>
    rw [hdotted]
    exact .inr ⟨by decide, '\u0307', by simp, by decide⟩
  · split
    · next hsigma =>
      rw [hsigma]
      refine .inr ⟨by decide, _, List.mem_singleton_self _, ?_⟩
      split
      · decide
      · decide
    · exact .inl rfl

/-- A word of such characters is the lower case of ASCII words only. -/
theorem lowerFrom_eq_iff {word : List Char} (hword : ∀ d ∈ word, IsUnshared d)
    (before cs : List Char) : lowerFrom before cs = word ↔ cs.map Char.toLower = word := by
  induction cs generalizing before word with
  | nil => rfl
  | cons c rest ih =>
    rw [lowerFrom, List.map_cons]
    rcases lowerWithin_cases before c rest with hsingle | ⟨hc, d, hd, hlower⟩
    · rw [hsingle, List.singleton_append]
      cases word with
      | nil => simp
      | cons d word =>
        obtain ⟨hd, hrest⟩ := List.forall_mem_cons.1 hword
        rw [List.cons.injEq, List.cons.injEq, lowerChar_eq_iff hd, ih hrest]
    -- What is no letter of ASCII is in no such word, neither changed nor as it is.
    · refine iff_of_false ?_ ?_
      · rintro rfl
        have hletter := (hword d (List.mem_append_left _ hd)).1
        rw [hlower] at hletter
        cases hletter
      · rintro rfl
        have hletter := (hword _ List.mem_cons_self).1
        rw [toLower_of_not_ascii hc] at hletter
        exact hc (toNat_lt_of_isLower hletter)

/-- A word of letters of ASCII other than `k` is the lower-case form of its spellings in ASCII
letters alone. -/
theorem lowerCase_eq_iff {s word : String} (hword : ∀ c ∈ word.toList, IsUnshared c) :
    lowerCase s = word ↔ s.toLower = word := by
  have hmap : s.toLower.toList = s.toList.map Char.toLower := String.toList_map
  rw [← String.toList_inj, ← String.toList_inj, lowerCase, String.toList_ofList, hmap]
  exact lowerFrom_eq_iff hword [] s.toList

end TypedRoutes.Text
