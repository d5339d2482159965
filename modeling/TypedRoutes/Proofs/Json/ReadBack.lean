import TypedRoutes.Proofs.Entries
import TypedRoutes.Proofs.Json.Number
import TypedRoutes.Proofs.Json.Quoted
import TypedRoutes.Proofs.Json.Step
import TypedRoutes.Proofs.Outcome

/-!
# JSON values are read back

The text of a JSON value is read as one value, and what follows it is left, unless it continues a
numeral (`Json.Reader.value_write`). It is read as the same value if the numbers have their
canonical shape and no object has a name twice.
-/

set_option autoImplicit false

namespace TypedRoutes

namespace Json

/-- Every integer is within the limit on digits. -/
inductive Within : Json → Prop
  | null : Within .null
  | bool (b : Bool) : Within (.bool b)
  | int {n : Int} (h : n.natAbs < tenTo digitLimit) : Within (.int n)
  | float (x : Binary64) : Within (.float x)
  | str (s : String) : Within (.str s)
  | array {items : List Json} (h : ∀ item ∈ items, Within item) : Within (.array items)
  | object {members : List (String × Json)} (h : ∀ m ∈ members, Within m.2) :
      Within (.object members)

/-- Every number has its canonical shape, and the names of every object are distinct. -/
inductive Canonical : Json → Prop
  | null : Canonical .null
  | bool (b : Bool) : Canonical (.bool b)
  | int (n : Int) : Canonical (.int n)
  | float {x : Binary64} (h : x.IsCanonical) : Canonical (.float x)
  | str (s : String) : Canonical (.str s)
  | array {items : List Json} (h : ∀ item ∈ items, Canonical item) : Canonical (.array items)
  | object {members : List (String × Json)} (hnames : (Entries.keys members).Nodup)
      (h : ∀ m ∈ members, Canonical m.2) : Canonical (.object members)

/-! ## First characters -/

/-- The characters with which values begin. -/
def isFirst (c : Char) : Bool := c.isDigit || c ∈ "\"[\x7btfn-NI".toList

/-- The text of an integer begins with a digit or a minus sign. -/
theorem exists_decimalText_eq_cons (n : Int) :
    ∃ c tail, (decimalText n).toList = c :: tail ∧ (c.isDigit = true ∨ c = '-') := by
  obtain ⟨d, others, hdigits⟩ :=
    List.exists_cons_of_ne_nil (isWhole_decimalDigits n.natAbs).ne_nil
  have hd : d.isDigit = true := isDigits_decimalDigits n.natAbs d (by simp [hdigits])
  unfold decimalText
  split
  · exact ⟨'-', d :: others, by simp [hdigits], .inr rfl⟩
  · exact ⟨d, others, by simp [hdigits], .inl hd⟩

/-- The text of a number begins with a digit, a minus sign or the first letter of a word. -/
theorem exists_floatText_eq_cons (x : Binary64) :
    ∃ c tail, (floatText x).toList = c :: tail ∧
      (c.isDigit = true ∨ c = '-' ∨ c = 'N' ∨ c = 'I') := by
  match x with
  | .nan => exact ⟨'N', _, rfl, by decide⟩
  | .infinite true => exact ⟨'-', _, rfl, by decide⟩
  | .infinite false => exact ⟨'I', _, rfl, by decide⟩
  | .finite true 0 e => exact ⟨'-', _, by rw [floatText, Layout.write]; rfl, by decide⟩
  | .finite false 0 e => exact ⟨'0', _, by rw [floatText, Layout.write]; rfl, by decide⟩
  -- Every layout of a number that is not zero begins with its whole part.
  | .finite negative (m + 1) e =>
    obtain ⟨w, hw, -⟩ := Layout.exists_numeral floatLayout negative (Nat.succ_ne_zero m) e
    obtain ⟨d, others, hwhole⟩ := List.exists_cons_of_ne_nil w.isWhole.ne_nil
    have hd : d.isDigit = true := w.isWhole.digits d (by simp [hwhole])
    rw [floatText, hw, WrittenNumeral.chars, hwhole]
    cases negative with
    | true => exact ⟨'-', _, rfl, by decide⟩
    | false => exact ⟨d, _, rfl, .inl hd⟩

/-- The first character of a value; only null begins with an `n`, and only objects with a brace. -/
theorem exists_write_eq_cons (j : Json) :
    ∃ c tail, j.write.toList = c :: tail ∧ isFirst c = true ∧ (c ≠ 'n' ∨ j = .null) ∧
      (c ≠ '\x7b' ∨ ∃ members, j = .object members) := by
  -- What the first characters of numerals are not.
  have hdigit {c : Char} (hc : c.isDigit = true) : c ≠ 'n' ∧ c ≠ '\x7b' := by
    constructor
    all_goals
      rintro rfl
      cases hc
  cases j with
  | null =>
    exact ⟨'n', "ull".toList, by rw [write]; rfl, by decide, .inr rfl, .inl (by decide)⟩
  | bool b =>
    cases b with
    | true =>
      exact ⟨'t', "rue".toList, by rw [write]; rfl, by decide, .inl (by decide), .inl (by decide)⟩
    | false =>
      exact ⟨'f', "alse".toList, by rw [write]; rfl, by decide, .inl (by decide), .inl (by decide)⟩
  | int n =>
    obtain ⟨c, tail, htext, hc⟩ := exists_decimalText_eq_cons n
    refine ⟨c, tail, by rw [write, htext], ?_⟩
    rcases hc with hc | rfl
    · exact ⟨by simp [isFirst, hc], .inl (hdigit hc).1, .inl (hdigit hc).2⟩
    · exact ⟨by decide, .inl (by decide), .inl (by decide)⟩
  | float x =>
    obtain ⟨c, tail, htext, hc⟩ := exists_floatText_eq_cons x
    refine ⟨c, tail, by rw [write, htext], ?_⟩
    rcases hc with hc | rfl | rfl | rfl
    · exact ⟨by simp [isFirst, hc], .inl (hdigit hc).1, .inl (hdigit hc).2⟩
    · exact ⟨by decide, .inl (by decide), .inl (by decide)⟩
    · exact ⟨by decide, .inl (by decide), .inl (by decide)⟩
    · exact ⟨by decide, .inl (by decide), .inl (by decide)⟩
  | str s =>
    exact ⟨'"', _, by rw [write, quoted, String.toList_ofList]; rfl, by decide, .inl (by decide),
      .inl (by decide)⟩
  | array items =>
    exact ⟨'[', _, by rw [write]; simp; rfl, by decide, .inl (by decide), .inl (by decide)⟩
  | object members =>
    exact ⟨'\x7b', _, by rw [write]; simp; rfl, by decide, .inl (by decide), .inr ⟨members, rfl⟩⟩

/-! ## Values -/

/-- What follows a value inside a container ends a numeral. -/
theorem numeralEnd_cons {c : Char} {rest : List Char}
    (h : (c.isDigit || c = '.' || c = 'e' || c = 'E') = false) : NumeralEnd (c :: rest) :=
  Text.stops_cons.2 h

namespace Reader

/-- Nothing is skipped in front of a character that is no blank. -/
theorem skipBlanks_cons {c : Char} {rest : List Char} (h : isBlank c = false) :
    skipBlanks (c :: rest) = c :: rest := by
  rw [skipBlanks, List.dropWhile_cons_of_neg (by simp [h])]

/-- A value begins with no blank. -/
theorem isBlank_of_isFirst {c : Char} (h : isFirst c = true) : isBlank c = false := by
  rw [Bool.eq_false_iff]
  intro hblank
  simp only [isBlank, Bool.or_eq_true, decide_eq_true_eq] at hblank
  rcases hblank with ((rfl | rfl) | rfl) | rfl
  all_goals exact absurd h (by decide)

/-! ## One step of a container -/

section Steps

variable {levels : Option Nat} {depth : Nat} {cs rest left : List Char} {item : Json}

theorem items_last (h : value levels depth cs = .ok (item, ']' :: rest)) :
    items levels (depth + 1) cs = .ok ([item], rest) :=
  items_eq_ok_iff.2 (.last h rfl)

/-- An item of an array is read in front of the comma, and the others after the blank. -/
theorem items_cons {others : List Json} (h : value levels depth cs = .ok (item, ',' :: ' ' :: rest))
    (hblank : skipBlanks rest = rest) (hothers : items levels depth rest = .ok (others, left)) :
    items levels (depth + 1) cs = .ok (item :: others, left) := by
  rw [← hblank] at hothers
  exact items_eq_ok_iff.2 (.more h rfl hothers)

variable (name : String)

theorem members_last (hblank : skipBlanks cs = cs)
    (h : value levels depth cs = .ok (item, '\x7d' :: rest)) :
    members levels (depth + 1) ((quoted name).toList ++ ':' :: ' ' :: cs) =
      .ok ([(name, item)], rest) := by
  rw [← hblank] at h
  rw [quoted_append]
  exact members_eq_ok_iff.2 (.last (string_quoted name _) rfl h rfl)

/-- A member of an object is read in front of the comma, and the others after the blank. -/
theorem members_cons {others : List (String × Json)} (hblank : skipBlanks cs = cs)
    (h : value levels depth cs = .ok (item, ',' :: ' ' :: rest)) (hnext : skipBlanks rest = rest)
    (hothers : members levels depth rest = .ok (others, left)) :
    members levels (depth + 1) ((quoted name).toList ++ ':' :: ' ' :: cs) =
      .ok ((name, item) :: others, left) := by
  rw [← hblank] at h
  rw [← hnext] at hothers
  rw [quoted_append]
  exact members_eq_ok_iff.2 (.more (string_quoted name _) rfl h rfl hothers)

end Steps

/-! ## Containers as they are written -/

/-- A written value begins with no blank, so nothing of it is skipped. -/
theorem skipBlanks_write (j : Json) (rest : List Char) :
    skipBlanks (j.write.toList ++ rest) = j.write.toList ++ rest := by
  obtain ⟨c, tail, htext, hc, -⟩ := exists_write_eq_cons j
  rw [htext, List.cons_append, skipBlanks_cons (isBlank_of_isFirst hc)]

/-- The items of an array as they are written. -/
def itemsChars (js : List Json) : List Char := (", ".intercalate (writeItems js)).toList

theorem itemsChars_cons (j k : Json) (rest : List Json) :
    itemsChars (j :: k :: rest) = j.write.toList ++ ',' :: ' ' :: itemsChars (k :: rest) := by
  simp [itemsChars, writeItems, String.intercalate_cons_cons]

theorem itemsChars_singleton (j : Json) : itemsChars [j] = j.write.toList := by
  simp [itemsChars, writeItems]

/-- The members of an object as they are written. -/
def membersChars (ms : List (String × Json)) : List Char :=
  (", ".intercalate (writeMembers ms)).toList

theorem membersChars_cons (m n : String × Json) (rest : List (String × Json)) :
    membersChars (m :: n :: rest) =
      (quoted m.1).toList ++ ':' :: ' ' :: (m.2.write.toList ++ ',' :: ' ' ::
        membersChars (n :: rest)) := by
  simp [membersChars, writeMembers, String.intercalate_cons_cons]

theorem membersChars_singleton (m : String × Json) :
    membersChars [m] = (quoted m.1).toList ++ ':' :: ' ' :: m.2.write.toList := by
  simp [membersChars, writeMembers]

/-- Written items begin with no blank. -/
theorem skipBlanks_itemsChars {js : List Json} (h : js ≠ []) (rest : List Char) :
    skipBlanks (itemsChars js ++ rest) = itemsChars js ++ rest := by
  match js with
  | [j] => rw [itemsChars_singleton, skipBlanks_write]
  | j :: k :: others => rw [itemsChars_cons, List.append_assoc, skipBlanks_write]

theorem skipBlanks_membersChars {ms : List (String × Json)} (h : ms ≠ []) (rest : List Char) :
    skipBlanks (membersChars ms ++ rest) = membersChars ms ++ rest := by
  have hquote (name : String) (tail : List Char) :
      skipBlanks ((quoted name).toList ++ tail) = (quoted name).toList ++ tail := by
    rw [quoted_append, skipBlanks_cons (by decide)]
  match ms with
  | [m] => rw [membersChars_singleton, List.append_assoc, hquote]
  | m :: n :: others => rw [membersChars_cons, List.append_assoc, hquote]

/-- An array is read from its items behind the bracket. -/
theorem value_bracket {depth : Nat} {body rest : List Char} {js : List Json}
    (hblank : skipBlanks body = body) (hfirst : body.head? ≠ some ']')
    (h : items none depth body = .ok (js, rest)) :
    value none (depth + 1) ('[' :: body) = .ok (.array js, rest) := by
  rw [← hblank] at hfirst h
  exact value_eq_ok_iff.2 (.items (enter_none _) hfirst h)

theorem value_brace {depth : Nat} {body rest : List Char} {ms : List (String × Json)}
    (hblank : skipBlanks body = body) (hfirst : body.head? ≠ some '\x7d')
    (h : members none depth body = .ok (ms, rest)) :
    value none (depth + 1) ('\x7b' :: body) =
      .ok (.object (Entries.ofAssignments (· == ·) ms), rest) := by
  rw [← hblank] at hfirst h
  exact value_eq_ok_iff.2 (.members (enter_none _) hfirst h)

/-- Written items do not begin with the bracket that closes an array. -/
theorem head?_itemsChars {js : List Json} (h : js ≠ []) (rest : List Char) :
    (itemsChars js ++ rest).head? ≠ some ']' := by
  have hitem (j : Json) (tail : List Char) : (j.write.toList ++ tail).head? ≠ some ']' := by
    obtain ⟨c, others, htext, hc, -⟩ := exists_write_eq_cons j
    rw [htext]
    rintro heq
    rw [Option.some.inj heq] at hc
    exact absurd hc (by decide)
  match js with
  | [j] =>
    rw [itemsChars_singleton]
    exact hitem j rest
  | j :: k :: others =>
    rw [itemsChars_cons, List.append_assoc]
    exact hitem j _

theorem head?_membersChars {ms : List (String × Json)} (h : ms ≠ []) (rest : List Char) :
    (membersChars ms ++ rest).head? ≠ some '\x7d' := by
  have hquote (name : String) (tail : List Char) :
      ((quoted name).toList ++ tail).head? ≠ some '\x7d' := by
    rw [quoted_append]
    simp
  match ms with
  | [m] =>
    rw [membersChars_singleton, List.append_assoc]
    exact hquote m.1 _
  | m :: n :: others =>
    rw [membersChars_cons, List.append_assoc]
    exact hquote m.1 _

/-! ## Values are read back -/

theorem one_le_of_write {j : Json} {depth : Nat} (h : 2 * j.write.toList.length ≤ depth) :
    1 ≤ depth := by
  obtain ⟨c, tail, htext, -⟩ := exists_write_eq_cons j
  rw [htext, List.length_cons] at h
  omega

/-- The text of one value is read as another one, wherever it stands. -/
def ReadsAs (j k : Json) : Prop :=
  ∀ {depth : Nat} {rest : List Char}, NumeralEnd rest → 2 * j.write.toList.length ≤ depth →
    value none depth (j.write.toList ++ rest) = .ok (k, rest)

/-- A value that is written as an atom is read as the atom, since it begins neither a string nor a
container. -/
theorem readsAs_atom {j k : Json} (hfirst : ∃ c tail, j.write.toList = c :: tail ∧
      c ≠ '"' ∧ c ≠ '[' ∧ c ≠ '\x7b')
    (h : ∀ {rest : List Char}, NumeralEnd rest → atom (j.write.toList ++ rest) = .ok (k, rest)) :
    ReadsAs j k := by
  intro depth rest hrest hdepth
  obtain ⟨d, rfl⟩ := Nat.exists_eq_add_of_le' (one_le_of_write hdepth)
  obtain ⟨c, tail, htext, hc⟩ := hfirst
  have hatom := h hrest
  rw [htext, List.cons_append] at hatom ⊢
  obtain ⟨hquote, hbracket, hbrace⟩ := hc
  exact value_eq_ok_iff.2 (.atom (by simpa using hquote) (by simpa using hbracket)
    (by simpa using hbrace) hatom)

theorem ne_of_isDigit {c : Char} (h : c.isDigit = true) : c ≠ '"' ∧ c ≠ '[' ∧ c ≠ '\x7b' := by
  refine ⟨?_, ?_, ?_⟩
  all_goals
    rintro rfl
    cases h

mutual

/-- The text of a value is read as one value, the same one if it is canonical. -/
theorem value_write : ∀ (j : Json), j.Within → ∃ k, (j.Canonical → k = j) ∧ ReadsAs j k
  | .null => fun _ =>
    ⟨.null, fun _ => rfl, readsAs_atom ⟨'n', "ull".toList, by rw [write]; rfl, by decide⟩
      fun _ => rfl⟩
  | .bool true => fun _ =>
    ⟨.bool true, fun _ => rfl, readsAs_atom ⟨'t', "rue".toList, by rw [write]; rfl, by decide⟩
      fun _ => rfl⟩
  | .bool false => fun _ =>
    ⟨.bool false, fun _ => rfl, readsAs_atom ⟨'f', "alse".toList, by rw [write]; rfl, by decide⟩
      fun _ => rfl⟩
  | .int n => by
    intro hwithin
    cases hwithin with
    | int hn =>
      obtain ⟨c, tail, htext, hc⟩ := exists_decimalText_eq_cons n
      have hfirst : c ≠ '"' ∧ c ≠ '[' ∧ c ≠ '\x7b' := by
        rcases hc with hc | rfl
        · exact ne_of_isDigit hc
        · decide
      -- Integers are read as they are, canonical or not.
      refine ⟨.int n, fun _ => rfl, ?_⟩
      apply readsAs_atom ⟨c, tail, by rw [write, htext], hfirst⟩
      intro rest hrest
      rw [write]
      exact atom_decimalText hn hrest
  | .float x => by
    intro _
    obtain ⟨c, tail, htext, hc⟩ := exists_floatText_eq_cons x
    obtain ⟨y, hcanonical, hatom⟩ := atom_floatText x
    have hfirst : c ≠ '"' ∧ c ≠ '[' ∧ c ≠ '\x7b' := by
      rcases hc with hc | rfl | rfl | rfl
      · exact ne_of_isDigit hc
      · decide
      · decide
      · decide
    refine ⟨.float y, ?_, ?_⟩
    -- A number that is not canonical is read as the canonical one of its value.
    · rintro (_ | _ | _ | hx)
      rw [hcanonical hx]
    · apply readsAs_atom ⟨c, tail, by rw [write, htext], hfirst⟩
      intro rest hrest
      rw [write]
      exact hatom hrest
  | .str s => by
    intro _
    refine ⟨.str s, fun _ => rfl, fun {depth rest} _ hdepth => ?_⟩
    obtain ⟨d, rfl⟩ := Nat.exists_eq_add_of_le' (one_le_of_write hdepth)
    rw [write, quoted_append, value, string_quoted]
    rfl
  | .array items => by
    intro hwithin
    have htext : (write (.array items)).toList = '[' :: (itemsChars items ++ [']']) := by
      simp [write, itemsChars]
    cases hwithin with
    | array hwithin =>
      obtain ⟨ks, hks, hitems⟩ := items_write items hwithin
      refine ⟨.array ks, ?_, fun {depth rest} _ hdepth => ?_⟩
      · rintro (_ | _ | _ | _ | _ | hcanonical)
        rw [hks hcanonical]
      -- The bracket costs one level, and the items are shorter than the array.
      · obtain ⟨d, rfl⟩ := Nat.exists_eq_add_of_le' (one_le_of_write hdepth)
        rw [htext] at hdepth ⊢
        rcases hitems with ⟨rfl, rfl⟩ | ⟨hempty, hitems⟩
        · rfl
        · simp only [List.length_cons, List.length_append, List.length_nil] at hdepth
          rw [List.cons_append, List.append_assoc, List.singleton_append]
          exact value_bracket (skipBlanks_itemsChars hempty _) (head?_itemsChars hempty _)
            (hitems d rest (by omega))
  | .object members => by
    intro hwithin
    have htext : (write (.object members)).toList =
        '\x7b' :: (membersChars members ++ ['\x7d']) := by
      simp [write, membersChars]
    cases hwithin with
    | object hwithin =>
      obtain ⟨ns, hns, hmembers⟩ := members_write members hwithin
      refine ⟨.object (Entries.ofAssignments (· == ·) ns), ?_, fun {depth rest} _ hdepth => ?_⟩
      -- The reader keeps the last of the members with one name; here names are distinct.
      · rintro (_ | _ | _ | _ | _ | _ | ⟨hnames, hcanonical⟩)
        rw [hns hcanonical, Entries.ofAssignments_of_nodup hnames]
      · obtain ⟨d, rfl⟩ := Nat.exists_eq_add_of_le' (one_le_of_write hdepth)
        rw [htext] at hdepth ⊢
        rcases hmembers with ⟨rfl, rfl⟩ | ⟨hempty, hmembers⟩
        · rfl
        · simp only [List.length_cons, List.length_append, List.length_nil] at hdepth
          rw [List.cons_append, List.append_assoc, List.singleton_append]
          exact value_brace (skipBlanks_membersChars hempty _) (head?_membersChars hempty _)
            (hmembers d rest (by omega))

/-- The items of an array, unless there is none, are read up to the closing bracket. -/
theorem items_write : ∀ (js : List Json), (∀ j ∈ js, j.Within) →
    ∃ ks, ((∀ j ∈ js, j.Canonical) → ks = js) ∧ (js = [] ∧ ks = [] ∨ js ≠ [] ∧
      ∀ (depth : Nat) (rest : List Char), 2 * ((itemsChars js).length + 1) ≤ depth →
        items none depth (itemsChars js ++ ']' :: rest) = .ok (ks, rest))
  | [] => fun _ => ⟨[], fun _ => rfl, .inl ⟨rfl, rfl⟩⟩
  | j :: others => by
    intro hwithin
    rw [List.forall_mem_cons] at hwithin
    obtain ⟨k, hk, hvalue⟩ := value_write j hwithin.1
    obtain ⟨ks, hks, hitems⟩ := items_write others hwithin.2
    refine ⟨k :: ks, ?_, .inr ⟨by simp, ?_⟩⟩
    · intro hcanonical
      rw [List.forall_mem_cons] at hcanonical
      rw [hk hcanonical.1, hks hcanonical.2]
    · intro depth rest hdepth
      obtain ⟨d, rfl⟩ := Nat.exists_eq_add_of_le' (show 1 ≤ depth by omega)
      rcases hitems with ⟨rfl, rfl⟩ | ⟨hne, hitems⟩
      · rw [itemsChars_singleton] at hdepth ⊢
        exact items_last (hvalue (numeralEnd_cons (c := ']') (by decide)) (by omega))
      -- A comma follows the item, so a numeral ends there.
      · obtain ⟨j', others, rfl⟩ := List.exists_cons_of_ne_nil hne
        rw [itemsChars_cons] at hdepth ⊢
        simp only [List.length_append, List.length_cons] at hdepth
        rw [List.append_assoc]
        exact items_cons (hvalue (numeralEnd_cons (c := ',') (by decide)) (by omega))
          (skipBlanks_itemsChars hne _) (hitems d rest (by omega))

/-- The members of an object, unless there is none, are read up to the closing brace. -/
theorem members_write : ∀ (ms : List (String × Json)), (∀ m ∈ ms, m.2.Within) →
    ∃ ns, ((∀ m ∈ ms, m.2.Canonical) → ns = ms) ∧ (ms = [] ∧ ns = [] ∨ ms ≠ [] ∧
      ∀ (depth : Nat) (rest : List Char), 2 * ((membersChars ms).length + 1) ≤ depth →
        members none depth (membersChars ms ++ '\x7d' :: rest) = .ok (ns, rest))
  | [] => fun _ => ⟨[], fun _ => rfl, .inl ⟨rfl, rfl⟩⟩
  | (name, j) :: others => by
    intro hwithin
    rw [List.forall_mem_cons] at hwithin
    obtain ⟨k, hk, hvalue⟩ := value_write j hwithin.1
    obtain ⟨ns, hns, hmembers⟩ := members_write others hwithin.2
    refine ⟨(name, k) :: ns, ?_, .inr ⟨by simp, ?_⟩⟩
    · intro hcanonical
      rw [List.forall_mem_cons] at hcanonical
      rw [hk hcanonical.1, hns hcanonical.2]
    · intro depth rest hdepth
      obtain ⟨d, rfl⟩ := Nat.exists_eq_add_of_le' (show 1 ≤ depth by omega)
      rcases hmembers with ⟨rfl, rfl⟩ | ⟨hne, hmembers⟩
      · rw [membersChars_singleton] at hdepth ⊢
        simp only [List.length_append, List.length_cons] at hdepth
        rw [List.append_assoc]
        exact members_last name (skipBlanks_write j _)
          (hvalue (numeralEnd_cons (c := '\x7d') (by decide)) (by omega))
      -- Name, colon, value, comma: what follows each of them is known.
      · obtain ⟨n, others, rfl⟩ := List.exists_cons_of_ne_nil hne
        rw [membersChars_cons] at hdepth ⊢
        simp only [List.length_append, List.length_cons] at hdepth
        rw [List.append_assoc, List.cons_append, List.cons_append, List.append_assoc]
        exact members_cons name (skipBlanks_write j _)
          (hvalue (numeralEnd_cons (c := ',') (by decide)) (by omega))
          (skipBlanks_membersChars hne _) (hmembers d rest (by omega))

end

end Reader

/-- No blank follows the brace of an object. -/
theorem after?_brace_write (j : Json) (rest : List Char) :
    Reader.after? "\x7b " (j.write.toList ++ rest) = none := by
  by_cases hobject : ∃ members, j = .object members
  · obtain ⟨members, rfl⟩ := hobject
    have htext : (write (.object members)).toList =
        '\x7b' :: (Reader.membersChars members ++ ['\x7d']) := by
      simp [write, Reader.membersChars]
    -- Members begin with a quote, and without members the closing brace follows.
    have hblank : (Reader.membersChars members ++ '\x7d' :: rest).head? ≠ some ' ' := by
      by_cases hempty : members = []
      · subst hempty
        simp [Reader.membersChars, writeMembers]
      · intro hhead
        have hskip := Reader.skipBlanks_membersChars hempty ('\x7d' :: rest)
        obtain ⟨tail, htail⟩ := List.head?_eq_some_iff.1 hhead
        rw [htail, Reader.skipBlanks, List.dropWhile_cons_of_pos (by decide)] at hskip
        have hlength := (List.dropWhile_sublist (l := tail) Reader.isBlank).length_le
        rw [hskip, List.length_cons] at hlength
        omega
    rw [htext, Reader.after?, if_neg]
    intro hprefix
    obtain ⟨tail, htail⟩ := List.isPrefixOf_iff_prefix.1 hprefix
    apply hblank
    have hcons : '\x7b' :: ' ' :: tail =
        '\x7b' :: (Reader.membersChars members ++ '\x7d' :: rest) := by
      simpa using htail
    rw [← (List.cons.inj hcons).2]
    rfl
  · obtain ⟨c, tail, htext, -, -, hbrace⟩ := exists_write_eq_cons j
    rw [htext]
    exact Reader.after?_eq_none (d := '\x7b') rfl (hbrace.resolve_right hobject).symm

end Json
end TypedRoutes
