import Mathlib.Data.List.Basic
import TypedRoutes.Json.Reader
import TypedRoutes.Proofs.Outcome

/-!
# One step of the JSON reader

What the reader accepts as a value, as the items of an array and as the members of an object, one
level at a time (`Reader.value_eq_ok_iff`, `Reader.items_eq_ok_iff`, `Reader.members_eq_ok_iff`).
Facts about whatever is read follow from these by induction on the depth.
-/

set_option autoImplicit false

namespace TypedRoutes.Json

namespace Reader

theorem enter_none (opened : Enclosure) : enter opened none = .ok none := rfl

/-- How a value at the front of a text is read, with some depth left for what it holds. -/
inductive ValueStep (levels : Option Nat) (depth : Nat) (rest : List Char) : List Char → Json → Prop
  | string {cs : List Char} {s : String} :
      string cs = .ok (s, rest) → ValueStep levels depth rest ('"' :: cs) (.str s)
  | noItems {cs : List Char} {inner : Option Nat} :
      enter .array levels = .ok inner → skipBlanks cs = ']' :: rest →
      ValueStep levels depth rest ('[' :: cs) (.array [])
  | items {cs : List Char} {inner : Option Nat} {js : List Json} :
      enter .array levels = .ok inner → (skipBlanks cs).head? ≠ some ']' →
      items inner depth (skipBlanks cs) = .ok (js, rest) →
      ValueStep levels depth rest ('[' :: cs) (.array js)
  | noMembers {cs : List Char} {inner : Option Nat} :
      enter .object levels = .ok inner → skipBlanks cs = '\x7d' :: rest →
      ValueStep levels depth rest ('\x7b' :: cs) (.object [])
  | members {cs : List Char} {inner : Option Nat} {ms : List (String × Json)} :
      enter .object levels = .ok inner → (skipBlanks cs).head? ≠ some '\x7d' →
      members inner depth (skipBlanks cs) = .ok (ms, rest) →
      ValueStep levels depth rest ('\x7b' :: cs)
        (.object (Entries.ofAssignments (· == ·) ms))
  | atom {cs : List Char} {j : Json} :
      cs.head? ≠ some '"' → cs.head? ≠ some '[' → cs.head? ≠ some '\x7b' →
      atom cs = .ok (j, rest) → ValueStep levels depth rest cs j

/-- How the items of an array are read. -/
inductive ItemsStep (levels : Option Nat) (depth : Nat) (rest cs : List Char) : List Json → Prop
  | last {item : Json} {left : List Char} :
      value levels depth cs = .ok (item, left) → skipBlanks left = ']' :: rest →
      ItemsStep levels depth rest cs [item]
  | more {item : Json} {others : List Json} {left next : List Char} :
      value levels depth cs = .ok (item, left) → skipBlanks left = ',' :: next →
      items levels depth (skipBlanks next) = .ok (others, rest) →
      ItemsStep levels depth rest cs (item :: others)

/-- How the members of an object are read. -/
inductive MembersStep (levels : Option Nat) (depth : Nat) (rest : List Char) :
    List Char → List (String × Json) → Prop
  | last {cs named body left : List Char} {name : String} {item : Json} :
      string cs = .ok (name, named) → skipBlanks named = ':' :: body →
      value levels depth (skipBlanks body) = .ok (item, left) →
      skipBlanks left = '\x7d' :: rest →
      MembersStep levels depth rest ('"' :: cs) [(name, item)]
  | more {cs named body left next : List Char} {name : String} {item : Json}
      {others : List (String × Json)} :
      string cs = .ok (name, named) → skipBlanks named = ':' :: body →
      value levels depth (skipBlanks body) = .ok (item, left) → skipBlanks left = ',' :: next →
      members levels depth (skipBlanks next) = .ok (others, rest) →
      MembersStep levels depth rest ('"' :: cs) ((name, item) :: others)

variable {levels : Option Nat} {depth : Nat} {cs rest : List Char}

theorem ValueStep.of_eq_ok {j : Json} (h : value levels (depth + 1) cs = .ok (j, rest)) :
    ValueStep levels depth rest cs j := by
  -- The cases of the reader: no depth left, string, array, object, atom.
  rw [value.eq_def] at h
  dsimp only at h
  split at h
  · next heq => cases heq
  · obtain ⟨⟨s, left⟩, hs, h⟩ := Outcome.map_eq_ok.1 h
    obtain ⟨rfl, rfl⟩ := Prod.mk.inj h
    exact .string hs
  · next heq =>
    obtain rfl := Nat.succ.inj heq
    obtain ⟨inner, hinner, h⟩ := Outcome.bind_eq_ok.1 h
    split at h
    · next hskip =>
      obtain ⟨rfl, rfl⟩ := Prod.mk.inj (Except.ok.inj h)
      exact .noItems hinner hskip
    · next hskip =>
      obtain ⟨⟨js, left⟩, hitems, h⟩ := Outcome.map_eq_ok.1 h
      obtain ⟨rfl, rfl⟩ := Prod.mk.inj h
      refine .items hinner (fun hhead => ?_) hitems
      obtain ⟨tail, htail⟩ := List.head?_eq_some_iff.1 hhead
      exact hskip tail htail
  · next heq =>
    obtain rfl := Nat.succ.inj heq
    obtain ⟨inner, hinner, h⟩ := Outcome.bind_eq_ok.1 h
    split at h
    · next hskip =>
      obtain ⟨rfl, rfl⟩ := Prod.mk.inj (Except.ok.inj h)
      exact .noMembers hinner hskip
    · next hskip =>
      obtain ⟨⟨ms, left⟩, hmembers, h⟩ := Outcome.map_eq_ok.1 h
      obtain ⟨rfl, rfl⟩ := Prod.mk.inj h
      refine .members hinner (fun hhead => ?_) hmembers
      obtain ⟨tail, htail⟩ := List.head?_eq_some_iff.1 hhead
      exact hskip tail htail
  · next hquote hbracket hbrace =>
    refine .atom ?_ ?_ ?_ h
    all_goals
      intro hhead
      obtain ⟨tail, rfl⟩ := List.head?_eq_some_iff.1 hhead
    · exact hquote tail rfl
    · exact hbracket tail rfl
    · exact hbrace tail rfl

theorem ValueStep.eq_ok {j : Json} (h : ValueStep levels depth rest cs j) :
    value levels (depth + 1) cs = .ok (j, rest) := by
  cases h with
  | string hs =>
    rw [value, hs]
    rfl
  | noItems hinner hskip =>
    rw [value, hinner, Outcome.ok_bind, hskip]
    rfl
  | items hinner hhead hitems =>
    rw [value, hinner, Outcome.ok_bind]
    split
    · next heq => exact absurd (congrArg List.head? heq) hhead
    · rw [hitems]
      rfl
  | noMembers hinner hskip =>
    rw [value, hinner, Outcome.ok_bind, hskip]
    rfl
  | members hinner hhead hmembers =>
    rw [value, hinner, Outcome.ok_bind]
    split
    · next heq => exact absurd (congrArg List.head? heq) hhead
    · rw [hmembers]
      rfl
  | atom hquote hbracket hbrace hatom =>
    rw [value, hatom]
    -- The other equations of the reader begin with a quote, a bracket or a brace, which an atom
    -- does not.
    · rintro tail rfl
      exact hquote rfl
    · rintro tail rfl
      exact hbracket rfl
    · rintro tail rfl
      exact hbrace rfl

/-- What is read as a value. -/
theorem value_eq_ok_iff {j : Json} :
    value levels (depth + 1) cs = .ok (j, rest) ↔ ValueStep levels depth rest cs j :=
  ⟨.of_eq_ok, ValueStep.eq_ok⟩

/-- What is read as the items of an array. -/
theorem items_eq_ok_iff {js : List Json} :
    items levels (depth + 1) cs = .ok (js, rest) ↔ ItemsStep levels depth rest cs js := by
  constructor
  -- After an item comes the closing bracket, a comma with more items, or a fault.
  · intro h
    obtain ⟨⟨item, left⟩, hitem, h⟩ := Outcome.bind_eq_ok.1 h
    dsimp only at h
    split at h
    · next hskip =>
      obtain ⟨rfl, rfl⟩ := Prod.mk.inj (Except.ok.inj h)
      exact .last hitem hskip
    · next hskip =>
      obtain ⟨⟨others, left⟩, hothers, h⟩ := Outcome.bind_eq_ok.1 h
      obtain ⟨rfl, rfl⟩ := Prod.mk.inj (Except.ok.inj h)
      exact .more hitem hskip hothers
    · cases h
  · intro h
    cases h with
    | last hitem hskip =>
      refine Outcome.bind_eq_ok.2 ⟨_, hitem, ?_⟩
      dsimp only
      rw [hskip]
      rfl
    | more hitem hskip hothers =>
      refine Outcome.bind_eq_ok.2 ⟨_, hitem, ?_⟩
      dsimp only
      rw [hskip]
      exact Outcome.bind_eq_ok.2 ⟨_, hothers, rfl⟩

theorem MembersStep.of_eq_ok {ms : List (String × Json)}
    (h : members levels (depth + 1) cs = .ok (ms, rest)) : MembersStep levels depth rest cs ms := by
  rw [members.eq_def] at h
  dsimp only at h
  split at h
  · next heq => cases heq
  · next heq =>
    obtain rfl := Nat.succ.inj heq
    obtain ⟨⟨name, named⟩, hname, h⟩ := Outcome.bind_eq_ok.1 h
    dsimp only at h
    split at h
    · next hcolon =>
      obtain ⟨⟨item, left⟩, hitem, h⟩ := Outcome.bind_eq_ok.1 h
      dsimp only at h
      split at h
      · next hskip =>
        obtain ⟨rfl, rfl⟩ := Prod.mk.inj (Except.ok.inj h)
        exact .last hname hcolon hitem hskip
      · next hskip =>
        obtain ⟨⟨others, left⟩, hothers, h⟩ := Outcome.bind_eq_ok.1 h
        obtain ⟨rfl, rfl⟩ := Prod.mk.inj (Except.ok.inj h)
        exact .more hname hcolon hitem hskip hothers
      · cases h
    · cases h
  · cases h

theorem MembersStep.eq_ok {ms : List (String × Json)} (h : MembersStep levels depth rest cs ms) :
    members levels (depth + 1) cs = .ok (ms, rest) := by
  cases h with
  | last hname hcolon hitem hskip =>
    rw [members]
    refine Outcome.bind_eq_ok.2 ⟨_, hname, ?_⟩
    dsimp only
    rw [hcolon]
    refine Outcome.bind_eq_ok.2 ⟨_, hitem, ?_⟩
    dsimp only
    rw [hskip]
    rfl
  | more hname hcolon hitem hskip hothers =>
    rw [members]
    refine Outcome.bind_eq_ok.2 ⟨_, hname, ?_⟩
    dsimp only
    rw [hcolon]
    refine Outcome.bind_eq_ok.2 ⟨_, hitem, ?_⟩
    dsimp only
    rw [hskip]
    exact Outcome.bind_eq_ok.2 ⟨_, hothers, rfl⟩

/-- What is read as the members of an object. -/
theorem members_eq_ok_iff {ms : List (String × Json)} :
    members levels (depth + 1) cs = .ok (ms, rest) ↔ MembersStep levels depth rest cs ms :=
  ⟨.of_eq_ok, MembersStep.eq_ok⟩

theorem whole?_eq_ok_iff {j : Json} :
    whole? levels cs = .ok j ↔ cs.head? ≠ some '\ufeff' ∧
      ∃ rest, value levels (2 * cs.length + 2) (skipBlanks cs) = .ok (j, rest) ∧
        skipBlanks rest = [] := by
  unfold whole?
  by_cases hmark : cs.head? = some '\ufeff'
  · rw [if_pos hmark]
    exact ⟨nofun, fun h => absurd hmark h.1⟩
  · rw [if_neg hmark]
    constructor
    · intro h
      obtain ⟨⟨result, rest⟩, hresult, h⟩ := Outcome.bind_eq_ok.1 h
      dsimp only at h
      split at h
      · next hend =>
        obtain rfl := Except.ok.inj h
        exact ⟨hmark, rest, hresult, hend⟩
      · cases h
    · rintro ⟨-, rest, hresult, hend⟩
      refine Outcome.bind_eq_ok.2 ⟨_, hresult, ?_⟩
      dsimp only
      rw [hend]
      rfl

end Reader

/-- What is read as a text: a value between blanks, without a byte order mark before them. -/
theorem parseWithin_eq_ok_iff {levels : Option Nat} {text : String} {j : Json} :
    parseWithin levels text = .ok j ↔ text.toList.head? ≠ some '\ufeff' ∧
      ∃ rest, Reader.value levels (2 * text.toList.length + 2) (Reader.skipBlanks text.toList) =
        .ok (j, rest) ∧ Reader.skipBlanks rest = [] := by
  rw [← Reader.whole?_eq_ok_iff, parseWithin, Outcome.mapError_eq_ok]

end TypedRoutes.Json
