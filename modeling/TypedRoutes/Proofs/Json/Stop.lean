import TypedRoutes.Proofs.Json.LineEnds
import TypedRoutes.Proofs.Json.Parsed

/-!
# Where the JSON reader stops

What stops the JSON reader, faults of the syntax aside, stands in the text: a run of more digits
than integers may have, more opening brackets and braces than may be open at a time, or an escape
for half of a pair (`Json.exists_stop_of_parse`). The reader leaves an end of what it was given
(`Reader.leaves`), so what stops it further on stands in the whole text as well (`Reader.stops`).
-/

set_option autoImplicit false

namespace TypedRoutes.Json

namespace Reader

open Outcome
open Text (SameLines)

/-! ## What is left -/

/-- What is left after a string is the end of the text. -/
theorem suffix_of_string {cs rest : List Char} {s : String} (h : string cs = .ok (s, rest)) :
    rest <:+ cs := by
  obtain ⟨left, hleft, -, hsuffix⟩ := string_readsAlike (rfl : SameLines cs cs) h
  rw [h] at hleft
  obtain ⟨-, rfl⟩ := Prod.mk.inj (Except.ok.inj hleft)
  exact hsuffix

/-- What is left after an atom is the end of the text. -/
theorem suffix_of_atom {cs rest : List Char} {j : Json} (h : atom cs = .ok (j, rest)) :
    rest <:+ cs := by
  obtain ⟨left, hleft, -, hsuffix⟩ := atom_readsAlike (rfl : SameLines cs cs) h
  rw [h] at hleft
  obtain ⟨-, rfl⟩ := Prod.mk.inj (Except.ok.inj hleft)
  exact hsuffix

/-- What follows a mark behind some blanks. -/
theorem suffix_of_skipBlanks {c : Char} {cs rest : List Char} (h : skipBlanks cs = c :: rest) :
    rest <:+ cs :=
  (List.suffix_cons c rest).trans (h ▸ skipBlanks_suffix cs)

/-- What the reader leaves within some depth is an end of what it is given. -/
structure Leaves (depth : Nat) : Prop where
  value : ∀ {levels cs rest j}, value levels depth cs = .ok (j, rest) → rest <:+ cs
  items : ∀ {levels cs rest js}, items levels depth cs = .ok (js, rest) → rest <:+ cs
  members : ∀ {levels cs rest ms}, members levels depth cs = .ok (ms, rest) → rest <:+ cs

section

variable {levels : Option Nat} {depth : Nat} {cs rest : List Char}

/-- One step of a value: what is left is the end of the text. -/
theorem Leaves.value_succ (ih : Leaves depth) {j : Json}
    (h : Reader.value levels (depth + 1) cs = .ok (j, rest)) : rest <:+ cs := by
  cases value_eq_ok_iff.1 h with
  | string hs => exact (suffix_of_string hs).trans (List.suffix_cons _ _)
  | noItems _ hskip => exact (suffix_of_skipBlanks hskip).trans (List.suffix_cons _ _)
  | items _ _ hitems =>
    exact ((ih.items hitems).trans (skipBlanks_suffix _)).trans (List.suffix_cons _ _)
  | noMembers _ hskip => exact (suffix_of_skipBlanks hskip).trans (List.suffix_cons _ _)
  | members _ _ hmembers =>
    exact ((ih.members hmembers).trans (skipBlanks_suffix _)).trans (List.suffix_cons _ _)
  | atom _ _ _ hatom => exact suffix_of_atom hatom

theorem Leaves.items_succ (ih : Leaves depth) {js : List Json}
    (h : Reader.items levels (depth + 1) cs = .ok (js, rest)) : rest <:+ cs := by
  cases items_eq_ok_iff.1 h with
  | last hitem hskip => exact (suffix_of_skipBlanks hskip).trans (ih.value hitem)
  | more hitem hskip hothers =>
    have hnext := (skipBlanks_suffix _).trans (suffix_of_skipBlanks hskip)
    exact ((ih.items hothers).trans hnext).trans (ih.value hitem)

theorem Leaves.members_succ (ih : Leaves depth) {ms : List (String × Json)}
    (h : Reader.members levels (depth + 1) cs = .ok (ms, rest)) : rest <:+ cs := by
  have hbehind {cs named body left : List Char} {name : String} {item : Json}
      (hname : string cs = .ok (name, named)) (hcolon : skipBlanks named = ':' :: body)
      (hitem : Reader.value levels depth (skipBlanks body) = .ok (item, left)) :
      left <:+ '"' :: cs :=
    ((((ih.value hitem).trans (skipBlanks_suffix _)).trans (suffix_of_skipBlanks hcolon)).trans
      (suffix_of_string hname)).trans (List.suffix_cons _ _)
  cases members_eq_ok_iff.1 h with
  | last hname hcolon hitem hskip =>
    exact (suffix_of_skipBlanks hskip).trans (hbehind hname hcolon hitem)
  | more hname hcolon hitem hskip hothers =>
    have hnext := (skipBlanks_suffix _).trans (suffix_of_skipBlanks hskip)
    exact ((ih.members hothers).trans hnext).trans (hbehind hname hcolon hitem)

end

/-- Whatever is read, what is left is the end of the text, by induction on the fuel. -/
theorem leaves (depth : Nat) : Leaves depth := by
  induction depth with
  | zero => exact ⟨nofun, nofun, nofun⟩
  | succ depth ih => exact ⟨ih.value_succ, ih.items_succ, ih.members_succ⟩

/-! ## Where the reader stops -/

/-- Does a character open an array or an object? -/
def isOpening (c : Char) : Bool := c = '[' || c = '\x7b'

/-- Why reading stops, if not for the syntax, stands in the text. -/
inductive Stop.IsFoundIn (levels : Option Nat) (cs : List Char) : Stop → Prop
  | fault (fault : SyntaxFault) (left : Nat) : IsFoundIn levels cs (.fault fault left)
  | digits {run : List Char} :
      run <:+: cs → IsDigits run → digitLimit < run.length →
        IsFoundIn levels cs (.digits run.length)
  | nesting {limit : Nat} (opened : Enclosure) :
      levels = some limit → limit < cs.countP isOpening → IsFoundIn levels cs (.nesting opened)
  | unpaired {digits : List Char} {half : Nat} :
      '\\' :: 'u' :: digits <:+: cs → Text.hexNumber? digits = some half → isHalf half = true →
        IsFoundIn levels cs (.unpaired half)

attribute [simp] Stop.IsFoundIn.fault

/-- A stop that is found in a part of a text is found in the text. -/
theorem Stop.IsFoundIn.mono {levels : Option Nat} {cs whole : List Char} {stop : Stop}
    (h : stop.IsFoundIn levels cs) (hcs : cs <:+: whole) : stop.IsFoundIn levels whole := by
  cases h with
  | fault fault left => exact .fault fault left
  | digits hrun hdigits hlimit => exact .digits (hrun.trans hcs) hdigits hlimit
  | nesting opened hlevels hlimit =>
    exact .nesting opened hlevels (hlimit.trans_le (hcs.sublist.countP_le))
  | unpaired hescape hhalf hcode => exact .unpaired (hescape.trans hcs) hhalf hcode

/-- What an array or an object holds is read with one level less, and there is one opening
character more outside. -/
theorem Stop.IsFoundIn.enter {opened : Enclosure} {levels inner : Option Nat} {c : Char}
    {cs : List Char} {stop : Stop} (hinner : Reader.enter opened levels = .ok inner)
    (hc : isOpening c = true) (h : stop.IsFoundIn inner cs) :
    stop.IsFoundIn levels (c :: cs) := by
  have hwhole : cs <:+: c :: cs := (List.suffix_cons c cs).isInfix
  cases h with
  | fault fault left => exact .fault fault left
  | digits hrun hdigits hlimit => exact .digits (hrun.trans hwhole) hdigits hlimit
  -- The bracket that was entered is one more, as the level that was left is.
  | @nesting limit _ hlevels hlimit =>
    subst hlevels
    match levels with
    | none => cases hinner
    | some 0 => cases hinner
    | some (outer + 1) =>
      obtain rfl := Option.some.inj (Except.ok.inj hinner)
      refine .nesting _ rfl ?_
      rw [List.countP_cons_of_pos hc]
      exact Nat.succ_lt_succ hlimit
  | unpaired hescape hhalf hcode => exact .unpaired (hescape.trans hwhole) hhalf hcode

/-- A part of the reader stops at something that stands in a text. -/
def StopsIn {α : Type} (levels : Option Nat) (cs : List Char) (x : Except Stop α) : Prop :=
  FailsOnly (Stop.IsFoundIn levels cs) x

/-- A reading that can only stop in a part of a text can only stop in the text. -/
theorem StopsIn.mono {α : Type} {levels : Option Nat} {cs whole : List Char} {x : Except Stop α}
    (h : StopsIn levels cs x) (hcs : cs <:+: whole) : StopsIn levels whole x :=
  fun stop hstop => (h stop hstop).mono hcs

/-! ### Strings -/

/-- A code unit that is half of a pair is escaped in the text. -/
def HalvesEscaped (cs : List Char) (us : List Nat) : Prop :=
  ∀ half ∈ us, isHalf half = true →
    ∃ digits, '\\' :: 'u' :: digits <:+: cs ∧ Text.hexNumber? digits = some half

/-- Halves that are escaped in a part of a text are escaped in the text. -/
theorem HalvesEscaped.mono {cs whole : List Char} {us : List Nat} (h : HalvesEscaped cs us)
    (hcs : cs <:+: whole) : HalvesEscaped whole us := by
  intro half hhalf hcode
  obtain ⟨digits, hdigits, hnumber⟩ := h half hhalf hcode
  exact ⟨digits, hdigits.trans hcs, hnumber⟩

/-- A code that is no half may come before escaped halves. -/
theorem HalvesEscaped.cons {cs : List Char} {code : Nat} {us : List Nat}
    (hcode : isHalf code = false) (h : HalvesEscaped cs us) : HalvesEscaped cs (code :: us) := by
  intro half hhalf
  rcases List.mem_cons.1 hhalf with rfl | hhalf
  · exact fun hcode' => absurd hcode' (by rw [hcode]; decide)
  · exact h half hhalf

/-- The code units of a string are those of characters, apart from those that are escaped by their
digits. -/
theorem halvesEscaped_of_units {opened cs rest : List Char} {us : List Nat}
    (h : units opened cs = .ok (us, rest)) : HalvesEscaped cs us := by
  fun_induction units opened cs generalizing us rest with
  | case2 cs =>
    obtain ⟨rfl, rfl⟩ := Prod.mk.inj (Except.ok.inj h)
    exact fun half hhalf => absurd hhalf List.not_mem_nil
  -- An escape by four digits.
  | case4 p q r s cs code hcode hempty ih =>
    obtain ⟨others, hothers, rfl⟩ := exists_of_map h
    have hword : ['\\', 'u', p, q, r, s] <:+: '\\' :: 'u' :: p :: q :: r :: s :: cs :=
      (List.prefix_append ['\\', 'u', p, q, r, s] cs).isInfix
    have hcs : cs <:+: '\\' :: 'u' :: p :: q :: r :: s :: cs :=
      (List.suffix_append ['\\', 'u', p, q, r, s] cs).isInfix
    intro half hhalf hmatch
    rcases List.mem_cons.1 hhalf with rfl | hhalf
    · exact ⟨[p, q, r, s], hword, hcode⟩
    · exact ((ih hothers).mono hcs) half hhalf hmatch
  -- An escape by a letter.
  | case8 c cs hu hempty e he ih =>
    obtain ⟨others, hothers, rfl⟩ := exists_of_map h
    exact ((ih hothers).mono (List.suffix_append ['\\', c] cs).isInfix).cons (isHalf_toNat e)
  -- A character that stands for itself.
  | case11 c cs hquote hunicode hu hlone hescape hcode ih =>
    obtain ⟨others, hothers, rfl⟩ := exists_of_map h
    exact ((ih hothers).mono (List.suffix_cons c cs).isInfix).cons (isHalf_toNat c)
  | _ => cases h

/-- Joining stops only at half of a pair among the code units. -/
theorem failsOnly_joinPairs (us : List Nat) :
    FailsOnly (fun stop => ∃ half ∈ us, isHalf half = true ∧ stop = .unpaired half)
      (joinPairs us) := by
  have hmono {us vs : List Nat} (hsub : ∀ code ∈ us, code ∈ vs) (stop : Stop) :
      (∃ half ∈ us, isHalf half = true ∧ stop = .unpaired half) →
        ∃ half ∈ vs, isHalf half = true ∧ stop = .unpaired half := by
    rintro ⟨half, hhalf, h⟩
    exact ⟨half, hsub half hhalf, h⟩
  fun_induction joinPairs us with
  | case1 high low rest c hpair ih =>
    exact failsOnly_map.2 fun stop hstop => hmono (by simp +contextual) stop (ih stop hstop)
  | case2 high low rest hpair hhalf =>
    exact failsOnly_error.2 ⟨high, List.mem_cons_self, hhalf, rfl⟩
  | case3 high low rest hpair hhalf ih =>
    exact failsOnly_map.2 fun stop hstop => hmono (by simp +contextual) stop (ih stop hstop)
  | case4 code hhalf => exact failsOnly_error.2 ⟨code, List.mem_cons_self, hhalf, rfl⟩
  | case5 code hhalf => exact failsOnly_ok _
  | case6 => exact failsOnly_ok _

/-- A string can only stop where it is broken or escapes half of a pair. -/
theorem stopsIn_string (levels : Option Nat) (cs : List Char) : StopsIn levels cs (string cs) := by
  have hunits (opened part : List Char) : StopsIn levels cs (units opened part) := by
    unfold StopsIn
    fun_induction units opened part <;> simp_all
  refine failsOnly_bind.2 ⟨hunits cs cs, fun r hr => ?_⟩
  obtain ⟨us, left⟩ := r
  refine failsOnly_bind.2 ⟨fun stop hstop => ?_, fun _ _ => failsOnly_ok _⟩
  obtain ⟨half, hhalf, hcode, rfl⟩ := failsOnly_joinPairs us stop hstop
  obtain ⟨digits, hdigits, hnumber⟩ := halvesEscaped_of_units hr half hhalf hcode
  exact .unpaired hdigits hnumber hcode

/-! ### Numbers -/

/-- The digits that are cut off and the rest make up the text. -/
theorem whole_fst_append_snd (cs : List Char) : (whole cs).1 ++ (whole cs).2 = cs := by
  rw [whole.eq_def]
  split
  · rfl
  · exact List.takeWhile_append_dropWhile

/-- A number is refused for the digits before its point. -/
theorem exists_run_of_unsigned {negative : Bool} {cs : List Char} {count : Nat}
    (h : unsigned negative cs = .error count) :
    ∃ run, run <+: cs ∧ IsDigits run ∧ digitLimit < run.length ∧ run.length = count := by
  unfold unsigned at h
  dsimp only at h
  split at h
  · cases h
  · split at h
    · split at h
      · next hlimit =>
        exact ⟨(whole cs).1, ⟨(whole cs).2, whole_fst_append_snd cs⟩, isDigits_whole cs, hlimit,
          Except.error.inj h⟩
      · cases h
    · cases h

/-- An atom can only stop where a number is too long or no value begins. -/
theorem stopsIn_atom (levels : Option Nat) (cs : List Char) : StopsIn levels cs (atom cs) := by
  rw [StopsIn, atom_eq]
  split
  · simp
  · split
    · simp
    · simp
    · next hcount =>
      obtain ⟨run, hrun, hdigits, hlimit, rfl⟩ := exists_run_of_unsigned hcount
      have hinfix := hrun.isInfix.trans (cutsAlike_splitMinus.suffix cs).isInfix
      exact failsOnly_error.2 (.digits hinfix hdigits hlimit)

/-! ### Values -/

/-- An array or an object is refused at its opening if no level is left, and otherwise what is read
inside it stops at something that stands there. -/
theorem stopsIn_enter {α : Type} {levels : Option Nat} {opened : Enclosure} {c : Char}
    {rest : List Char} {inside : Option Nat → Except Stop α} (hc : isOpening c = true)
    (h : ∀ inner, StopsIn inner (skipBlanks rest) (inside inner)) :
    StopsIn levels (c :: rest) (enter opened levels >>= inside) := by
  refine failsOnly_bind.2 ⟨?_, fun inner hinner stop hstop => ?_⟩
  · match levels with
    | none => exact failsOnly_ok _
    | some 0 =>
      refine failsOnly_error.2 (.nesting opened rfl ?_)
      rw [List.countP_cons_of_pos hc]
      exact Nat.succ_pos _
    | some (limit + 1) => exact failsOnly_ok _
  · exact ((h inner stop hstop).mono (skipBlanks_suffix rest).isInfix).enter hinner hc

/-- The reader stops within some depth at something that stands in what it is given. -/
structure Stops (depth : Nat) : Prop where
  value : ∀ levels cs, StopsIn levels cs (value levels depth cs)
  items : ∀ levels cs, StopsIn levels cs (items levels depth cs)
  members : ∀ levels cs, StopsIn levels cs (members levels depth cs)

section

variable {depth : Nat}

/-- One step of a value: it stops at a level too many, at its own characters or within its
brackets. -/
theorem Stops.value_succ (ih : Stops depth) (levels : Option Nat) (cs : List Char) :
    StopsIn levels cs (Reader.value levels (depth + 1) cs) := by
  rw [Reader.value.eq_def]
  dsimp only
  split
  · next heq => cases heq
  · exact failsOnly_map.2 ((stopsIn_string _ _).mono (List.suffix_cons _ _).isInfix)
  · next heq =>
    obtain rfl := Nat.succ.inj heq
    -- A stop within the brackets is found behind them, one level further in.
    refine stopsIn_enter rfl fun inner => ?_
    split
    · exact failsOnly_ok _
    · exact failsOnly_map.2 (ih.items _ _)
  · next heq =>
    obtain rfl := Nat.succ.inj heq
    refine stopsIn_enter rfl fun inner => ?_
    split
    · exact failsOnly_ok _
    · exact failsOnly_map.2 (ih.members _ _)
  · exact stopsIn_atom _ _

theorem Stops.items_succ (ih : Stops depth) (levels : Option Nat) (cs : List Char) :
    StopsIn levels cs (Reader.items levels (depth + 1) cs) := by
  refine failsOnly_bind.2 ⟨ih.value levels cs, fun r hr => ?_⟩
  obtain ⟨item, rest⟩ := r
  have hrest := (leaves depth).value hr
  dsimp only
  split
  · exact failsOnly_ok _
  · next next hskip =>
    have hnext := ((skipBlanks_suffix _).trans (suffix_of_skipBlanks hskip)).trans hrest
    exact failsOnly_bind.2 ⟨(ih.items _ _).mono hnext.isInfix, fun _ _ => failsOnly_ok _⟩
  · exact failsOnly_error.2 (.fault _ _)

theorem Stops.members_succ (ih : Stops depth) (levels : Option Nat) (cs : List Char) :
    StopsIn levels cs (Reader.members levels (depth + 1) cs) := by
  rw [Reader.members.eq_def]
  dsimp only
  split
  · next heq => cases heq
  · next tail heq =>
    obtain rfl := Nat.succ.inj heq
    -- The name, the item and the others are read in turn, each from an end of the text.
    refine failsOnly_bind.2 ⟨(stopsIn_string _ _).mono (List.suffix_cons _ _).isInfix, ?_⟩
    intro r hr
    obtain ⟨name, named⟩ := r
    have hnamed := (suffix_of_string hr).trans (List.suffix_cons '"' _)
    dsimp only
    split
    · next body hcolon =>
      have hbody := ((skipBlanks_suffix _).trans (suffix_of_skipBlanks hcolon)).trans hnamed
      refine failsOnly_bind.2 ⟨(ih.value _ _).mono hbody.isInfix, fun r hr => ?_⟩
      obtain ⟨item, left⟩ := r
      have hleft := ((leaves depth).value hr).trans hbody
      dsimp only
      split
      · exact failsOnly_ok _
      · next next hskip =>
        have hnext := ((skipBlanks_suffix _).trans (suffix_of_skipBlanks hskip)).trans hleft
        exact failsOnly_bind.2 ⟨(ih.members _ _).mono hnext.isInfix, fun _ _ => failsOnly_ok _⟩
      · exact failsOnly_error.2 (.fault _ _)
    · exact failsOnly_error.2 (.fault _ _)
  · exact failsOnly_error.2 (.fault _ _)

end

/-- Every stop is found in the text, by induction on the fuel. -/
theorem stops (depth : Nat) : Stops depth := by
  induction depth with
  | zero =>
    exact ⟨fun _ _ => failsOnly_error.2 (.fault _ _), fun _ _ => failsOnly_error.2 (.fault _ _),
      fun _ _ => failsOnly_error.2 (.fault _ _)⟩
  | succ depth ih => exact ⟨ih.value_succ, ih.items_succ, ih.members_succ⟩

/-- A whole text can only stop at what is found in it. -/
theorem stopsIn_whole? (levels : Option Nat) (cs : List Char) :
    StopsIn levels cs (whole? levels cs) := by
  refine failsOnly_ite.2 ⟨fun _ => failsOnly_error.2 (.fault _ _), fun _ => ?_⟩
  refine failsOnly_bind.2 ⟨((stops _).value _ _).mono (skipBlanks_suffix cs).isInfix, ?_⟩
  intro r _
  dsimp only
  split
  · exact failsOnly_ok _
  · exact failsOnly_error.2 (.fault _ _)

end Reader

/-! ## Errors -/

/-- The error of a text that is not read comes from a stop that is found in it. -/
theorem exists_stop_of_parse {levels : Option Nat} {text : String} {error : ParseError}
    (h : parseWithin levels text = .error error) :
    ∃ stop : Reader.Stop, stop.IsFoundIn levels text.toList ∧ stop.toError text.toList = error := by
  obtain ⟨stop, hstop, herror⟩ := Outcome.mapError_eq_error.1 h
  exact ⟨stop, Reader.stopsIn_whole? _ _ stop hstop, herror⟩

section

variable {levels : Option Nat} {text : String}

/-- A text that is refused for the limit on digits has a run of more digits than that. -/
theorem exists_run_of_parse {limit : DigitLimit}
    (h : parseWithin levels text = .error (.digits limit)) :
    ∃ run, run <:+: text.toList ∧ IsDigits run ∧ digitLimit < run.length ∧
      limit = .reading run.length := by
  obtain ⟨stop, hstop, herror⟩ := exists_stop_of_parse h
  cases hstop with
  | digits hrun hdigits hlimit =>
    exact ⟨_, hrun, hdigits, hlimit, (ParseError.digits.inj herror).symm⟩
  | _ => cases herror

/-- A text that is refused for its nesting has more opening brackets and braces than may be open at
a time. -/
theorem lt_openings_of_parse {opened : Enclosure}
    (h : parseWithin levels text = .error (.nesting opened)) :
    ∃ limit, levels = some limit ∧ limit < text.toList.countP Reader.isOpening := by
  obtain ⟨stop, hstop, herror⟩ := exists_stop_of_parse h
  cases hstop with
  | nesting _ hlevels hlimit => exact ⟨_, hlevels, hlimit⟩
  | _ => cases herror

/-- A text that is refused for half of a pair escapes it by its digits. -/
theorem exists_escape_of_parse {half : Nat}
    (h : parseWithin levels text = .error (.unpaired half)) :
    Reader.isHalf half = true ∧ ∃ digits, '\\' :: 'u' :: digits <:+: text.toList ∧
      Text.hexNumber? digits = some half := by
  obtain ⟨stop, hstop, herror⟩ := exists_stop_of_parse h
  cases hstop with
  | unpaired hescape hhalf hcode =>
    obtain rfl := ParseError.unpaired.inj herror
    exact ⟨hcode, _, hescape, hhalf⟩
  | _ => cases herror

end

end TypedRoutes.Json
