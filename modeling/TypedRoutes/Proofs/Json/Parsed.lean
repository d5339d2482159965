import TypedRoutes.Proofs.Json.ReadBack

/-!
# JSON values that come from texts

Every value that is read from a text is well-formed (`Json.wellFormed_of_parse`): its integers are
within the limit on digits, its other numbers have their canonical shape, and no object has a name
twice. So its text is read back as the same value (`Json.parse_write`).
-/

set_option autoImplicit false

namespace TypedRoutes.Json

/-- A value as a text can give it. -/
structure WellFormed (j : Json) : Prop where
  within : j.Within
  canonical : j.Canonical

theorem wellFormed_null : WellFormed .null := ⟨.null, .null⟩

theorem wellFormed_str (text : String) : WellFormed (.str text) := ⟨.str text, .str text⟩

theorem wellFormed_array {items : List Json} :
    WellFormed (.array items) ↔ ∀ item ∈ items, WellFormed item := by
  constructor
  · rintro ⟨⟨⟩, ⟨⟩⟩
    next hwithin hcanonical => exact fun item hitem => ⟨hwithin item hitem, hcanonical item hitem⟩
  · intro h
    exact ⟨.array fun item hitem => (h item hitem).within,
      .array fun item hitem => (h item hitem).canonical⟩

/-- An object is well-formed when its names are different and its members are well-formed. -/
theorem wellFormed_object {members : List (String × Json)} :
    WellFormed (.object members) ↔
      (Entries.keys members).Nodup ∧ ∀ m ∈ members, WellFormed m.2 := by
  constructor
  · rintro ⟨⟨⟩, ⟨⟩⟩
    next hwithin hnames hcanonical => exact ⟨hnames, fun m hm => ⟨hwithin m hm, hcanonical m hm⟩⟩
  · rintro ⟨hnames, h⟩
    exact ⟨.object fun m hm => (h m hm).within, .object hnames fun m hm => (h m hm).canonical⟩

namespace Reader

/-! ## Atoms -/

/-- What is cut off as a whole number consists of digits. -/
theorem isDigits_whole (cs : List Char) : IsDigits (whole cs).1 := by
  rw [whole.eq_def]
  split
  · intro c hc
    obtain rfl := List.mem_singleton.1 hc
    decide
  · exact fun c hc => List.mem_takeWhile_imp hc

/-- A number that is read is well-formed: an integer within the limit or a canonical float. -/
theorem wellFormed_of_unsigned {negative : Bool} {cs rest : List Char} {j : Json}
    (h : unsigned negative cs = .ok (some (j, rest))) : WellFormed j := by
  have hdigits := isDigits_whole cs
  unfold unsigned at h
  generalize whole cs = front at h hdigits
  dsimp only at h
  split at h
  · cases h
  · split at h
    -- Without fraction and exponent it is an integer, which has been checked for its length.
    · split at h
      · cases h
      · next hlimit =>
        obtain ⟨rfl, -⟩ := Prod.mk.inj (Option.some.inj (Except.ok.inj h))
        have hvalue := digitsNumber_lt hdigits
        have hbound : digitsNumber front.1 < tenTo digitLimit := by
          -- The limit is generalized, so that no power of ten is computed.
          generalize digitLimit = limit at hlimit
          rw [tenTo, Nat.pow_eq]
          exact hvalue.trans_le (Nat.pow_le_pow_right (by decide) (not_lt.1 hlimit))
        refine ⟨.int ?_, .int _⟩
        rw [ofDigits_digitValues]
        split
        · rw [Int.natAbs_neg, Int.natAbs_natCast]
          exact hbound
        · rw [Int.natAbs_natCast]
          exact hbound
    · obtain ⟨rfl, -⟩ := Prod.mk.inj (Option.some.inj (Except.ok.inj h))
      exact ⟨.float _, .float (Binary64.isCanonical_ofDecimal _ _ _)⟩

/-- The words of JSON stand for well-formed values. -/
theorem wellFormed_words : ∀ entry ∈ words, WellFormed entry.2 := by
  simp only [words, List.forall_mem_cons]
  refine ⟨wellFormed_null, ⟨.bool true, .bool true⟩, ⟨.bool false, .bool false⟩,
    ⟨.float _, .float trivial⟩, ⟨.float _, .float trivial⟩, ⟨.float _, .float trivial⟩, ?_⟩
  intro entry hentry
  cases hentry

/-- An atom that is read is well-formed. -/
theorem wellFormed_of_atom {cs rest : List Char} {j : Json} (h : atom cs = .ok (j, rest)) :
    WellFormed j := by
  unfold atom at h
  split at h
  · next reading hfound =>
    obtain rfl := Except.ok.inj h
    obtain ⟨entry, hentry, hword⟩ := List.exists_of_findSome?_eq_some hfound
    obtain ⟨left, -, hleft⟩ := Option.map_eq_some_iff.1 hword
    obtain ⟨rfl, -⟩ := Prod.mk.inj hleft
    exact wellFormed_words entry hentry
  · dsimp only at h
    split at h
    · next hunsigned =>
      obtain rfl := Except.ok.inj h
      exact wellFormed_of_unsigned hunsigned
    · cases h
    · cases h

/-! ## Values -/

/-- What the reader gives within some depth is well-formed. -/
structure Sound (depth : Nat) : Prop where
  value : ∀ {cs rest j}, value none depth cs = .ok (j, rest) → WellFormed j
  items : ∀ {cs rest js}, items none depth cs = .ok (js, rest) → ∀ j ∈ js, WellFormed j
  members : ∀ {cs rest ms}, members none depth cs = .ok (ms, rest) → ∀ m ∈ ms, WellFormed m.2

section

variable {depth : Nat} {cs rest : List Char}

/-- One step of a value: a container that is read is well-formed when what is in it is. -/
theorem Sound.value_succ (ih : Sound depth) {j : Json}
    (h : Reader.value none (depth + 1) cs = .ok (j, rest)) : WellFormed j := by
  cases value_eq_ok_iff.1 h with
  | string _ => exact wellFormed_str _
  | noItems _ _ => exact wellFormed_array.2 (by simp)
  | items henter _ hitems =>
    cases henter
    exact wellFormed_array.2 (ih.items hitems)
  | noMembers _ _ => exact wellFormed_object.2 ⟨List.nodup_nil, by simp⟩
  -- A later member of the same name has replaced the earlier ones.
  | members henter _ hmembers =>
    cases henter
    exact wellFormed_object.2 ⟨Entries.nodup_keys_ofAssignments _,
      Entries.forall_mem_ofAssignments (ih.members hmembers)⟩
  | atom _ _ _ hatom => exact wellFormed_of_atom hatom

theorem Sound.items_succ (ih : Sound depth) {js : List Json}
    (h : Reader.items none (depth + 1) cs = .ok (js, rest)) : ∀ j ∈ js, WellFormed j := by
  cases items_eq_ok_iff.1 h with
  | last hitem _ => exact List.forall_mem_singleton.2 (ih.value hitem)
  | more hitem _ hothers => exact List.forall_mem_cons.2 ⟨ih.value hitem, ih.items hothers⟩

theorem Sound.members_succ (ih : Sound depth) {ms : List (String × Json)}
    (h : Reader.members none (depth + 1) cs = .ok (ms, rest)) : ∀ m ∈ ms, WellFormed m.2 := by
  cases members_eq_ok_iff.1 h with
  | last _ _ hitem _ => exact List.forall_mem_singleton.2 (ih.value hitem)
  | more _ _ hitem _ hothers =>
    exact List.forall_mem_cons.2 ⟨ih.value hitem, ih.members hothers⟩

end

/-- Everything that is read is well-formed, by induction on the fuel. -/
theorem sound (depth : Nat) : Sound depth := by
  induction depth with
  | zero => exact ⟨nofun, nofun, nofun⟩
  | succ depth ih => exact ⟨ih.value_succ, ih.items_succ, ih.members_succ⟩

end Reader

/-- What a text is read as is well-formed. -/
theorem wellFormed_of_parse {text : String} {j : Json} (h : parse text = .ok j) :
    WellFormed j := by
  obtain ⟨-, rest, hvalue, -⟩ := parseWithin_eq_ok_iff.1 h
  exact (Reader.sound _).value hvalue

/-- The text of a well-formed value is read as the value. -/
theorem parse_write {j : Json} (h : WellFormed j) : parse j.write = .ok j := by
  obtain ⟨k, hk, hreads⟩ := Reader.value_write j h.within
  -- The value is read from the whole text, with nothing left.
  obtain rfl := hk h.canonical
  have hvalue : Reader.value none (2 * k.write.toList.length + 2) (k.write.toList ++ []) =
      .ok (k, []) :=
    hreads Text.stops_nil (by omega)
  rw [List.append_nil] at hvalue
  have hblank : Reader.skipBlanks k.write.toList = k.write.toList := by
    simpa using Reader.skipBlanks_write k []
  -- No value begins with a byte order mark, which the reader refuses.
  have hmark : k.write.toList.head? ≠ some '\ufeff' := by
    obtain ⟨c, tail, htext, hc, -⟩ := exists_write_eq_cons k
    rw [htext, List.head?_cons]
    rintro heq
    obtain rfl := Option.some.inj heq
    exact absurd hc (by decide)
  exact parseWithin_eq_ok_iff.2 ⟨hmark, [], by rw [hblank, hvalue], rfl⟩

end TypedRoutes.Json
