import TypedRoutes.Proofs.Json.Stop

/-!
# Nesting of JSON texts

A limit on the arrays and objects that may be open at a time matters only where it is reached: a
text is read as without the limit, or it is refused for its nesting (`Json.parseWithin_agrees`). So
what holds of every text that is read holds within every limit (`Json.parse_of_parseWithin`). There
is a text beyond each of them (`Json.parseWithin_brackets`).
-/

set_option autoImplicit false

namespace TypedRoutes.Json

namespace Reader

/-! ## Limited and unlimited readings -/

/-- A reading is the same as another one, or it is refused for its nesting. -/
def AgreesWith {α : Type} (x y : Except Stop α) : Prop :=
  x = y ∨ ∃ opened, x = .error (.nesting opened)

section

variable {α β : Type} {x y : Except Stop α}

theorem AgreesWith.refl (x : Except Stop α) : AgreesWith x x := .inl rfl

/-- Readings agree in sequence: an excess of the first ends the sequence, otherwise both go on with
the same value. -/
theorem AgreesWith.bind {f g : α → Except Stop β} (h : AgreesWith x y)
    (hf : ∀ a, AgreesWith (f a) (g a)) : AgreesWith (x >>= f) (y >>= g) := by
  rcases h with rfl | ⟨opened, rfl⟩
  · cases x with
    | error stop => exact .refl _
    | ok a => exact hf a
  · exact .inr ⟨opened, rfl⟩

/-- Agreement is kept by a map of the values. -/
theorem AgreesWith.map (f : α → β) (h : AgreesWith x y) : AgreesWith (x.map f) (y.map f) := by
  rcases h with rfl | ⟨opened, rfl⟩
  · exact .refl _
  · exact .inr ⟨opened, rfl⟩

/-- An array or an object is opened, or it is refused. -/
theorem AgreesWith.enter (opened : Enclosure) (levels : Option Nat)
    {f : Option Nat → Except Stop α} (hf : ∀ inner, AgreesWith (f inner) y) :
    AgreesWith (enter opened levels >>= f) y := by
  match levels with
  | none => exact hf none
  | some 0 => exact .inr ⟨opened, rfl⟩
  | some (limit + 1) => exact hf (some limit)

end

/-- Within some depth a limit matters only where it is reached. -/
structure Agree (depth : Nat) : Prop where
  value : ∀ levels cs, AgreesWith (value levels depth cs) (value none depth cs)
  items : ∀ levels cs, AgreesWith (items levels depth cs) (items none depth cs)
  members : ∀ levels cs, AgreesWith (members levels depth cs) (members none depth cs)

section

variable {depth : Nat}

/-- One step of a value: the level that is entered may be one too many, which is an excess. -/
theorem Agree.value_succ (ih : Agree depth) (levels : Option Nat) (cs : List Char) :
    AgreesWith (Reader.value levels (depth + 1) cs) (Reader.value none (depth + 1) cs) := by
  rw [Reader.value.eq_def, Reader.value.eq_def none]
  dsimp only
  split
  · next heq => cases heq
  · exact .refl _
  · next heq =>
    obtain rfl := Nat.succ.inj heq
    -- A bracket opens a level, which only the reading under a limit can refuse.
    refine .enter _ _ fun inner => ?_
    rw [enter_none, Outcome.ok_bind]
    split
    · exact .refl _
    · exact (ih.items _ _).map _
  · next heq =>
    obtain rfl := Nat.succ.inj heq
    refine .enter _ _ fun inner => ?_
    rw [enter_none, Outcome.ok_bind]
    split
    · exact .refl _
    · exact (ih.members _ _).map _
  · exact .refl _

theorem Agree.items_succ (ih : Agree depth) (levels : Option Nat) (cs : List Char) :
    AgreesWith (Reader.items levels (depth + 1) cs) (Reader.items none (depth + 1) cs) := by
  refine (ih.value levels cs).bind fun r => ?_
  obtain ⟨item, rest⟩ := r
  dsimp only
  split
  · exact .refl _
  · exact (ih.items _ _).bind fun _ => .refl _
  · exact .refl _

theorem Agree.members_succ (ih : Agree depth) (levels : Option Nat) (cs : List Char) :
    AgreesWith (Reader.members levels (depth + 1) cs) (Reader.members none (depth + 1) cs) := by
  rw [Reader.members.eq_def, Reader.members.eq_def none]
  dsimp only
  split
  · next heq => cases heq
  · next heq =>
    obtain rfl := Nat.succ.inj heq
    refine AgreesWith.bind (.refl _) fun r => ?_
    obtain ⟨name, named⟩ := r
    dsimp only
    split
    · refine (ih.value _ _).bind fun r => ?_
      obtain ⟨item, left⟩ := r
      dsimp only
      split
      · exact .refl _
      · exact (ih.members _ _).bind fun _ => .refl _
      · exact .refl _
    · exact .refl _
  · exact .refl _

end

/-- Reading under a limit agrees with reading without one, by induction on the fuel. -/
theorem agree (depth : Nat) : Agree depth := by
  induction depth with
  | zero => exact ⟨fun _ _ => .refl _, fun _ _ => .refl _, fun _ _ => .refl _⟩
  | succ depth ih => exact ⟨ih.value_succ, ih.items_succ, ih.members_succ⟩

/-- A whole text is read under a limit as without one, up to an excess. -/
theorem whole?_agrees (levels : Option Nat) (cs : List Char) :
    AgreesWith (whole? levels cs) (whole? none cs) := by
  unfold whole?
  split
  · exact .refl _
  · exact ((agree _).value _ _).bind fun _ => .refl _

/-! ## Brackets in brackets -/

/-- One bracket more than may be open is refused, whatever follows it. -/
theorem value_brackets {limit count depth : Nat} (hcount : limit < count)
    (hdepth : 2 * count ≤ depth) (rest : List Char) :
    value (some limit) depth (List.replicate count '[' ++ rest) =
      .error (.nesting .array) := by
  induction limit generalizing count depth with
  | zero =>
    obtain ⟨count, rfl⟩ := Nat.exists_eq_add_of_le' hcount
    obtain ⟨depth, rfl⟩ := Nat.exists_eq_add_of_le' (show 1 ≤ depth by omega)
    rfl
  | succ limit ih =>
    obtain ⟨count, rfl⟩ := Nat.exists_eq_add_of_le' (show 2 ≤ count by omega)
    obtain ⟨depth, rfl⟩ := Nat.exists_eq_add_of_le' (show 2 ≤ depth by omega)
    -- Behind the first bracket there is another one, which is read as the first item.
    have hskip : skipBlanks (List.replicate (count + 1) '[' ++ rest) =
        List.replicate (count + 1) '[' ++ rest := by
      rw [List.replicate_succ, List.cons_append]
      rfl
    have hinner : items (some limit) (depth + 1) (List.replicate (count + 1) '[' ++ rest) =
        .error (.nesting .array) := by
      rw [items, ih (by omega) (by omega)]
      rfl
    rw [List.replicate_succ, List.cons_append, value, enter, Outcome.ok_bind, hskip]
    split
    · next heq =>
      rw [List.replicate_succ, List.cons_append] at heq
      cases heq
    · rw [hinner]
      rfl

end Reader

/-! ## Texts -/

section

variable {limit : Nat} {text : String}

/-- A text is read within a limit as without it, or it is refused for its nesting. -/
theorem parseWithin_agrees (levels : Option Nat) (text : String) :
    parseWithin levels text = parse text ∨
      ∃ opened, parseWithin levels text = .error (.nesting opened) := by
  unfold parse parseWithin
  rcases Reader.whole?_agrees levels text.toList with h | ⟨opened, h⟩
  · exact .inl (by rw [h])
  · exact .inr ⟨opened, by rw [h]; rfl⟩

/-- What is read within a limit is read without one. -/
theorem parse_of_parseWithin {levels : Option Nat} {j : Json}
    (h : parseWithin levels text = .ok j) : parse text = .ok j := by
  rcases parseWithin_agrees levels text with hparse | ⟨opened, hopened⟩
  · rw [← hparse, h]
  · cases h.symm.trans hopened

/-- Brackets in brackets go beyond every limit. -/
theorem parseWithin_brackets {count : Nat} (hcount : limit < count) :
    parseWithin (some limit) (String.ofList (List.replicate count '[')) =
      .error (.nesting .array) := by
  have hvalue : Reader.value (some limit) (2 * count + 2) (List.replicate count '[' ++ []) = _ :=
    Reader.value_brackets hcount (by omega) []
  rw [List.append_nil] at hvalue
  obtain ⟨count, rfl⟩ := Nat.exists_eq_add_of_le' (show 1 ≤ count by omega)
  have hskip : Reader.skipBlanks (List.replicate (count + 1) '[') =
      List.replicate (count + 1) '[' := rfl
  rw [parseWithin, String.toList_ofList, Reader.whole?, if_neg (by simp [List.replicate_succ]),
    List.length_replicate, hskip, hvalue]
  rfl

end

end TypedRoutes.Json
