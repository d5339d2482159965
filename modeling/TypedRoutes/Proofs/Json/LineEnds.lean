import TypedRoutes.Proofs.Json.ReadBack
import TypedRoutes.Proofs.Text.Newline

/-!
# JSON texts with other line ends

A line can only end between the parts of a JSON text, where blanks are left out, so two texts with
the same lines are read as the same value (`Json.parse_eq_ok_iff_of_sameLines`). The places of
faults may differ.

The reader is followed through both texts at once: whatever a part of it reads from one text it
reads from the other, and what is left has the same lines again (`Reader.ReadsAlike`).
-/

set_option autoImplicit false

namespace TypedRoutes.Json

namespace Reader

open Text (SameLines isNewline isNewline_iff isNewline_eq_false)

/-- A value is read from a text, and what is left has the same lines as something. -/
def ReadsAlike {α : Type} (reading : Reading α) (v : α) (rest cs : List Char) : Prop :=
  ∃ left, reading = .ok (v, left) ∧ SameLines rest left ∧ left <:+ cs

section

variable {α β : Type} {reading : Reading α} {rest cs : List Char}

/-- A mapped reading comes from a reading with the same rest. -/
theorem exists_of_map {f : α → β} {w : β}
    (h : (reading.map fun (v, left) => (f v, left)) = .ok (w, rest)) :
    ∃ v, reading = .ok (v, rest) ∧ f v = w := by
  obtain ⟨⟨v, left⟩, hread, heq⟩ := Outcome.map_eq_ok.1 h
  obtain ⟨rfl, rfl⟩ := Prod.mk.inj heq
  exact ⟨v, hread, rfl⟩

/-- Readings that are alike stay so under a map of the values, and in a longer text. -/
theorem ReadsAlike.map {v : α} (f : α → β) (h : ReadsAlike reading v rest cs) {whole : List Char}
    (hwhole : cs <:+ whole) :
    ReadsAlike (reading.map fun (v, left) => (f v, left)) (f v) rest whole := by
  obtain ⟨left, hread, hsame, hsuffix⟩ := h
  exact ⟨left, Outcome.map_eq_ok.2 ⟨_, hread, rfl⟩, hsame, hsuffix.trans hwhole⟩

end

/-! ## Strings -/

/-- A hexadecimal digit is no line end. -/
theorem isNewline_of_hexValue? {c : Char} {n : Nat} (h : Text.hexValue? c = some n) :
    isNewline c = false :=
  isNewline_eq_false (P := (Text.hexValue? · = some n)) nofun nofun h

/-- No line end stands in a hexadecimal number. -/
theorem isNewline_of_hexNumber? {cs : List Char} {n : Nat} (h : Text.hexNumber? cs = some n) :
    ∀ c ∈ cs, isNewline c = false := by
  obtain ⟨digits, hdigits, -⟩ := Option.map_eq_some_iff.1 h
  clear h
  induction cs generalizing digits with
  | nil => exact nofun
  | cons c rest ih =>
    rw [List.mapM_cons] at hdigits
    obtain ⟨digit, hdigit, hdigits⟩ := Option.bind_eq_some_iff.1 hdigits
    obtain ⟨others, hothers, -⟩ := Option.bind_eq_some_iff.1 hdigits
    exact List.forall_mem_cons.2 ⟨isNewline_of_hexValue? hdigit, ih others hothers⟩

theorem isNewline_of_escaped? {c e : Char} (h : escaped? c = some e) : isNewline c = false :=
  isNewline_eq_false (P := (escaped? · = some e)) nofun nofun h

theorem isNewline_of_not_lt {c : Char} (h : ¬ c.toNat < 32) : isNewline c = false :=
  isNewline_eq_false (P := (¬ ·.toNat < 32)) (by decide) (by decide) h

/-- A string holds no end of a line. -/
theorem units_readsAlike {opened opened' a b rest : List Char} {us : List Nat} (h : SameLines a b)
    (hread : units opened a = .ok (us, rest)) : ReadsAlike (units opened' b) us rest b := by
  fun_induction units opened a generalizing b us rest with
  | case2 cs =>
    obtain ⟨rfl, rfl⟩ := Prod.mk.inj (Except.ok.inj hread)
    obtain ⟨b', rfl, hrest⟩ := h.exists_cons (by decide)
    exact ⟨b', by rw [units], hrest, List.suffix_cons _ _⟩
  -- An escape by four digits, at which the text does not end.
  | case4 p q r s cs code hcode hempty ih =>
    obtain ⟨others, hothers, rfl⟩ := exists_of_map hread
    have hword : ∀ c ∈ ['\\', 'u', p, q, r, s], isNewline c = false :=
      List.forall_mem_cons.2 ⟨by decide, List.forall_mem_cons.2
        ⟨by decide, isNewline_of_hexNumber? hcode⟩⟩
    obtain ⟨b', rfl, hrest⟩ := h.exists_append _ hword
    have hb' : b'.isEmpty = false := by
      rw [List.isEmpty_eq_false_iff]
      rintro rfl
      exact hempty (List.isEmpty_iff.2 hrest.symm.eq_nil)
    have hunits : units opened' (['\\', 'u', p, q, r, s] ++ b') =
        (units opened' b').map fun r => (code :: r.1, r.2) := by
      simp [units, hcode, hb']
    rw [hunits]
    exact (ih hrest hothers).map (code :: ·) (List.suffix_append _ _)
  -- An escape by a letter.
  | case8 c cs hu hempty e he ih =>
    obtain ⟨others, hothers, rfl⟩ := exists_of_map hread
    have hword : ∀ d ∈ ['\\', c], isNewline d = false :=
      List.forall_mem_cons.2 ⟨by decide, List.forall_mem_singleton.2 (isNewline_of_escaped? he)⟩
    obtain ⟨b', rfl, hrest⟩ := h.exists_append _ hword
    have hc : c ≠ 'u' := by
      rintro rfl
      cases he
    have hunits : units opened' (['\\', c] ++ b') =
        (units opened' b').map fun r => (e.toNat :: r.1, r.2) := by
      simp [units, hc, he]
    rw [hunits]
    exact (ih hrest hothers).map (e.toNat :: ·) (List.suffix_append _ _)
  -- A character that stands for itself.
  | case11 c cs hquote hunicode hu hlone hescape hcode ih =>
    obtain ⟨others, hothers, rfl⟩ := exists_of_map hread
    obtain ⟨b', rfl, hrest⟩ := h.exists_cons (isNewline_of_not_lt hcode)
    have hbackslash : c ≠ '\\' := by
      rintro rfl
      cases cs with
      | nil => exact hlone rfl rfl
      | cons d cs => exact hescape d cs rfl rfl
    have hunits : units opened' (c :: b') =
        (units opened' b').map fun r => (c.toNat :: r.1, r.2) := by
      simp [units, hbackslash, hcode]
    rw [hunits]
    exact (ih hrest hothers).map (c.toNat :: ·) (List.suffix_cons _ _)
  | _ => cases hread

/-- A string is read alike, as no line end can stand in it. -/
theorem string_readsAlike {a b rest : List Char} {s : String} (h : SameLines a b)
    (hread : string a = .ok (s, rest)) : ReadsAlike (string b) s rest b := by
  obtain ⟨us, text, hunits, htext, rfl⟩ := string_eq_ok_iff.1 hread
  have hread' : ReadsAlike (units b b) us rest b := units_readsAlike h hunits
  obtain ⟨left, hleft, hsame, hsuffix⟩ := hread'
  exact ⟨left, string_eq_ok_iff.2 ⟨us, text, hleft, htext, rfl⟩, hsame, hsuffix⟩

/-! ## Atoms -/

/-- A cut that is made in the same place of texts with the same lines. -/
structure CutsAlike {β : Type} (cut : List Char → β × List Char) : Prop where
  alike : ∀ {a b}, SameLines a b → (cut a).1 = (cut b).1 ∧ SameLines (cut a).2 (cut b).2
  suffix : ∀ cs, (cut cs).2 <:+ cs

theorem isDigit_of_isNewline (c : Char) (h : isNewline c = true) : c.isDigit = false := by
  rcases isNewline_iff.1 h with rfl | rfl
  all_goals decide

theorem cutsAlike_whole : CutsAlike whole where
  alike {a b} h := by
    rcases h.cons_or_head?_ne '0' (by decide) with ⟨a', b', rfl, rfl, hrest⟩ | ⟨ha, hb⟩
    · exact ⟨rfl, hrest⟩
    · have hwhole {cs : List Char} (hcs : cs.head? ≠ some '0') :
          whole cs = (cs.takeWhile Char.isDigit, cs.dropWhile Char.isDigit) := by
        rw [whole.eq_def]
        split
        · exact absurd rfl hcs
        · rfl
      rw [hwhole ha, hwhole hb]
      exact h.takeWhile_dropWhile isDigit_of_isNewline
  suffix cs := by
    rw [whole.eq_def]
    split
    · exact List.suffix_cons _ _
    · exact List.dropWhile_suffix _

/-- A fraction is cut off alike in texts with the same lines. -/
theorem cutsAlike_fraction : CutsAlike fraction where
  alike {a b} h := by
    rcases h.cons_or_head?_ne '.' (by decide) with ⟨a', b', rfl, rfl, hrest⟩ | ⟨ha, hb⟩
    · obtain ⟨htake, hdrop⟩ := hrest.takeWhile_dropWhile isDigit_of_isNewline
      rw [fraction, fraction, htake]
      split
      · exact ⟨rfl, h⟩
      · exact ⟨rfl, hdrop⟩
    · have hfraction {cs : List Char} (hcs : cs.head? ≠ some '.') : fraction cs = ([], cs) := by
        rw [fraction.eq_def]
        split
        · exact absurd rfl hcs
        · rfl
      rw [hfraction ha, hfraction hb]
      exact ⟨rfl, h⟩
  suffix cs := by
    rw [fraction.eq_def]
    split
    · split
      · exact List.suffix_refl _
      · exact (List.dropWhile_suffix _).trans (List.suffix_cons _ _)
    · exact List.suffix_refl _

theorem cutsAlike_splitSign : CutsAlike Numeral.splitSign where
  alike {a b} h := by
    rcases h.cons_or_head?_ne '-' (by decide) with ⟨a', b', rfl, rfl, hrest⟩ | ⟨ha, hb⟩
    · exact ⟨rfl, hrest⟩
    · rcases h.cons_or_head?_ne '+' (by decide) with ⟨a', b', rfl, rfl, hrest⟩ | ⟨ha', hb'⟩
      · exact ⟨rfl, hrest⟩
      · have hunsigned {cs : List Char} (hcs : cs.head? ≠ some '-') (hcs' : cs.head? ≠ some '+') :
            Numeral.splitSign cs = (false, cs) := by
          rw [Numeral.splitSign.eq_def]
          split
          · exact absurd rfl hcs
          · exact absurd rfl hcs'
          · rfl
        rw [hunsigned ha ha', hunsigned hb hb']
        exact ⟨rfl, h⟩
  suffix cs := by
    rw [Numeral.splitSign.eq_def]
    split
    · exact List.suffix_cons _ _
    · exact List.suffix_cons _ _
    · exact List.suffix_refl _

/-- An exponent is cut off alike in texts with the same lines. -/
theorem cutsAlike_exponent : CutsAlike exponent where
  alike {a b} h := by
    cases h.heads with
    | nil => exact ⟨rfl, h⟩
    | @cons c a b _ hrest =>
      obtain ⟨hsign, hbody⟩ := cutsAlike_splitSign.alike hrest
      obtain ⟨htake, hdrop⟩ := hbody.takeWhile_dropWhile isDigit_of_isNewline
      -- With the mark of an exponent the rest is cut alike; without it nothing is cut off.
      by_cases hmark : c = 'e' ∨ c = 'E'
      · simp only [exponent, if_pos hmark, hsign, htake]
        split
        · exact ⟨rfl, h⟩
        · exact ⟨rfl, hdrop⟩
      · simp only [exponent, if_neg hmark]
        exact ⟨trivial, h⟩
    -- A line end is no mark, so neither text has an exponent here.
    | newline hc hd =>
      have hmark {c : Char} (hc : isNewline c = true) : ¬ (c = 'e' ∨ c = 'E') := by
        rintro (rfl | rfl)
        all_goals cases hc
      simp only [exponent, if_neg (hmark hc), if_neg (hmark hd)]
      exact ⟨trivial, h⟩
  suffix cs := by
    rw [exponent.eq_def]
    split
    · split
      · next rest _ =>
        dsimp only
        split
        · exact List.suffix_refl _
        · exact (List.dropWhile_suffix _).trans
            ((cutsAlike_splitSign.suffix rest).trans (List.suffix_cons _ _))
      · exact List.suffix_refl _
    · exact List.suffix_refl _

/-- A number without its sign is read alike, as no line end can stand in it. -/
theorem unsigned_readsAlike {negative : Bool} {a b rest : List Char} {j : Json}
    (h : SameLines a b) (hread : unsigned negative a = .ok (some (j, rest))) :
    ∃ left, unsigned negative b = .ok (some (j, left)) ∧ SameLines rest left ∧ left <:+ b := by
  obtain ⟨hwhole, hafterWhole⟩ := cutsAlike_whole.alike h
  obtain ⟨hfraction, hafterFraction⟩ := cutsAlike_fraction.alike hafterWhole
  obtain ⟨hexponent, hend⟩ := cutsAlike_exponent.alike hafterFraction
  have hsuffix := (cutsAlike_exponent.suffix _).trans
    ((cutsAlike_fraction.suffix _).trans (cutsAlike_whole.suffix b))
  -- The three parts are the same, so the same number is made of them.
  simp only [unsigned, hwhole, hfraction, hexponent] at hread ⊢
  split at hread
  · cases hread
  · next hfront =>
    rw [if_neg hfront]
    split at hread
    · next hinteger =>
      rw [if_pos hinteger]
      split at hread
      · cases hread
      · next hlimit =>
        obtain ⟨rfl, rfl⟩ := Prod.mk.inj (Option.some.inj (Except.ok.inj hread))
        rw [if_neg hlimit]
        exact ⟨_, rfl, hend, hsuffix⟩
    · next hinteger =>
      obtain ⟨rfl, rfl⟩ := Prod.mk.inj (Option.some.inj (Except.ok.inj hread))
      rw [if_neg hinteger]
      exact ⟨_, rfl, hend, hsuffix⟩

/-- No end of a line stands inside a word. -/
theorem isNewline_of_mem_words : ∀ entry ∈ words, ∀ c ∈ entry.1.toList, isNewline c = false := by
  have hwords : words.all (fun entry => entry.1.toList.all fun c => !isNewline c) = true := by
    decide +kernel
  simpa only [List.all_eq_true, Bool.not_eq_true'] using hwords

section

variable {a b : List Char}

/-- A word is found alike in texts with the same lines. -/
theorem after?_readsAlike {word : String} {rest : List Char}
    (hword : ∀ c ∈ word.toList, isNewline c = false) (h : SameLines a b)
    (hread : after? word a = some rest) :
    ∃ left, after? word b = some left ∧ SameLines rest left ∧ left <:+ b := by
  obtain rfl := after?_eq_some_iff.1 hread
  obtain ⟨left, rfl, hrest⟩ := h.exists_append _ hword
  exact ⟨left, after?_append word left, hrest, List.suffix_append _ _⟩

/-- A word that is missing is missing in every text with the same lines. -/
theorem after?_eq_none_of_sameLines {word : String} (hword : ∀ c ∈ word.toList, isNewline c = false)
    (h : SameLines a b) (hnone : after? word a = none) : after? word b = none := by
  cases hb : after? word b with
  | none => rfl
  | some left =>
    obtain ⟨rest, hrest, -⟩ := after?_readsAlike hword h.symm hb
    rw [hnone] at hrest
    cases hrest

/-- The word at the front of a text. -/
def word? (cs : List Char) : Option (Json × List Char) :=
  words.findSome? fun (word, value) => (after? word cs).map fun left => (value, left)

/-- The first word at the front of a text is the first one at the front of the other. -/
theorem word?_readsAlike {rest : List Char} {j : Json} (h : SameLines a b)
    (hread : word? a = some (j, rest)) :
    ∃ left, word? b = some (j, left) ∧ SameLines rest left ∧ left <:+ b := by
  obtain ⟨before, entry, behind, hwords, hentry, hbefore⟩ := List.findSome?_eq_some_iff.1 hread
  have hplain := isNewline_of_mem_words
  simp only [hwords, List.mem_append, List.mem_cons] at hplain
  obtain ⟨tail, htail, heq⟩ := Option.map_eq_some_iff.1 hentry
  obtain ⟨rfl, rfl⟩ := Prod.mk.inj heq
  obtain ⟨left, hleft, hsame, hsuffix⟩ :=
    after?_readsAlike (hplain entry (.inr (.inl rfl))) h htail
  refine ⟨left, List.findSome?_eq_some_iff.2 ⟨before, entry, behind, hwords, ?_, ?_⟩, hsame,
    hsuffix⟩
  · simp only [hleft, Option.map_some]
  · intro earlier hearlier
    have hnone := Option.map_eq_none_iff.1 (hbefore earlier hearlier)
    exact Option.map_eq_none_iff.2
      (after?_eq_none_of_sameLines (hplain earlier (.inl hearlier)) h hnone)

/-- None of the words is found in a text with the same lines as one without. -/
theorem word?_eq_none_of_sameLines (h : SameLines a b) (hnone : word? a = none) :
    word? b = none := by
  cases hb : word? b with
  | none => rfl
  | some reading =>
    obtain ⟨rest, hrest, -⟩ := word?_readsAlike h.symm hb
    rw [hnone] at hrest
    cases hrest

/-- A minus sign at the front of a text, and what is behind it. -/
def splitMinus (cs : List Char) : Bool × List Char :=
  match cs with
  | '-' :: rest => (true, rest)
  | _ => (false, cs)

theorem cutsAlike_splitMinus : CutsAlike splitMinus where
  alike {a b} h := by
    rcases h.cons_or_head?_ne '-' (by decide) with ⟨a', b', rfl, rfl, hrest⟩ | ⟨ha, hb⟩
    · exact ⟨rfl, hrest⟩
    · have hunsigned {cs : List Char} (hcs : cs.head? ≠ some '-') :
          splitMinus cs = (false, cs) := by
        unfold splitMinus
        split
        · exact absurd rfl hcs
        · rfl
      rw [hunsigned ha, hunsigned hb]
      exact ⟨rfl, h⟩
  suffix cs := by
    unfold splitMinus
    split
    · exact List.suffix_cons _ _
    · exact List.suffix_refl _

/-- An atom is one of the words or a number. -/
theorem atom_eq (cs : List Char) : atom cs =
    match word? cs with
    | some reading => .ok reading
    | none =>
      match unsigned (splitMinus cs).1 (splitMinus cs).2 with
      | .ok (some reading) => .ok reading
      | .ok none => .error (.fault .expectingValue cs.length)
      | .error count => .error (.digits count) :=
  rfl

/-- An atom is read alike, as no line end can stand in it. -/
theorem atom_readsAlike {rest : List Char} {j : Json} (h : SameLines a b)
    (hread : atom a = .ok (j, rest)) : ReadsAlike (atom b) j rest b := by
  rw [atom_eq] at hread
  rw [ReadsAlike, atom_eq]
  split at hread
  · next hword =>
    rw [Except.ok.inj hread] at hword
    obtain ⟨left, hleft, hsame, hsuffix⟩ := word?_readsAlike h hword
    exact ⟨left, by rw [hleft], hsame, hsuffix⟩
  · next hword =>
    obtain ⟨hsign, hbody⟩ := cutsAlike_splitMinus.alike h
    split at hread
    · next hunsigned =>
      rw [Except.ok.inj hread, hsign] at hunsigned
      obtain ⟨left, hleft, hsame, hsuffix⟩ := unsigned_readsAlike hbody hunsigned
      refine ⟨left, ?_, hsame, hsuffix.trans (cutsAlike_splitMinus.suffix b)⟩
      rw [word?_eq_none_of_sameLines h hword, hleft]
    · cases hread
    · cases hread

end

/-! ## Values -/

theorem isBlank_of_isNewline (c : Char) (h : isNewline c = true) : isBlank c = true := by
  rcases isNewline_iff.1 h with rfl | rfl
  all_goals rfl

section

variable {a b rest : List Char}

/-- Line ends are blanks, so texts with the same lines have the same lines behind their blanks. -/
theorem sameLines_skipBlanks (h : SameLines a b) : SameLines (skipBlanks a) (skipBlanks b) :=
  h.dropWhile_blanks isBlank_of_isNewline

/-- What follows the blanks is the end of the text. -/
theorem skipBlanks_suffix (cs : List Char) : skipBlanks cs <:+ cs := List.dropWhile_suffix _

/-- The same mark follows the blanks of both texts. -/
theorem exists_skipBlanks_cons {c : Char} (hc : isNewline c = false) (h : SameLines a b)
    (hskip : skipBlanks a = c :: rest) :
    ∃ left, skipBlanks b = c :: left ∧ SameLines rest left ∧ c :: left <:+ b := by
  have hsame := sameLines_skipBlanks h
  rw [hskip] at hsame
  obtain ⟨left, hleft, hrest⟩ := hsame.exists_cons hc
  exact ⟨left, hleft, hrest, hleft ▸ skipBlanks_suffix b⟩

/-- A character other than a line end that does not follow the blanks follows them in no text with
the same lines. -/
theorem head?_skipBlanks_ne {c : Char} (hc : isNewline c = false) (h : SameLines a b)
    (hne : (skipBlanks a).head? ≠ some c) : (skipBlanks b).head? ≠ some c :=
  mt ((sameLines_skipBlanks h).head?_eq_some_iff hc).2 hne

end

/-- What is read within some depth is read from a text with the same lines, within any depth that is
enough for it. -/
structure Alike (depth : Nat) : Prop where
  value : ∀ {levels : Option Nat} {a b rest : List Char} {j : Json} {enough : Nat},
    SameLines a b → value levels depth a = .ok (j, rest) → 2 * b.length + 1 ≤ enough →
      ReadsAlike (value levels enough b) j rest b
  items : ∀ {levels : Option Nat} {a b rest : List Char} {js : List Json} {enough : Nat},
    SameLines a b → items levels depth a = .ok (js, rest) → 2 * b.length + 2 ≤ enough →
      ReadsAlike (items levels enough b) js rest b
  members : ∀ {levels : Option Nat} {a b rest : List Char} {ms : List (String × Json)}
    {enough : Nat}, SameLines a b → members levels depth a = .ok (ms, rest) →
      2 * b.length + 2 ≤ enough → ReadsAlike (members levels enough b) ms rest b

section

variable {levels : Option Nat} {depth enough : Nat} {a b rest : List Char}

/-- One step of a value: its brackets are found alike, and what is in them is read alike by
induction. -/
theorem Alike.value_succ (ih : Alike depth) {j : Json} (h : SameLines a b)
    (hread : Reader.value levels (depth + 1) a = .ok (j, rest)) (henough : 2 * b.length ≤ enough) :
    ReadsAlike (Reader.value levels (enough + 1) b) j rest b := by
  -- The marks that the reader decides by are no line ends, so both texts have them.
  cases value_eq_ok_iff.1 hread with
  | string hs =>
    obtain ⟨b', rfl, hb'⟩ := h.exists_cons (by decide)
    obtain ⟨left, hleft, hsame, hsuffix⟩ := string_readsAlike hb' hs
    exact ⟨left, value_eq_ok_iff.2 (.string hleft), hsame, hsuffix.trans (List.suffix_cons _ _)⟩
  | noItems hinner hskip =>
    obtain ⟨b', rfl, hb'⟩ := h.exists_cons (by decide)
    obtain ⟨left, hleft, hsame, hsuffix⟩ := exists_skipBlanks_cons (by decide) hb' hskip
    exact ⟨left, value_eq_ok_iff.2 (.noItems hinner hleft), hsame,
      (List.suffix_cons _ _).trans (hsuffix.trans (List.suffix_cons _ _))⟩
  | items hinner hhead hitems =>
    obtain ⟨b', rfl, hb'⟩ := h.exists_cons (by decide)
    have hlength := (skipBlanks_suffix b').length_le
    rw [List.length_cons] at henough
    have hbody : ReadsAlike (Reader.items _ enough (skipBlanks b')) _ rest _ :=
      ih.items (sameLines_skipBlanks hb') hitems (by omega)
    obtain ⟨left, hleft, hsame, hsuffix⟩ := hbody
    exact ⟨left, value_eq_ok_iff.2
      (.items hinner (head?_skipBlanks_ne (by decide) hb' hhead) hleft), hsame,
      hsuffix.trans ((skipBlanks_suffix b').trans (List.suffix_cons _ _))⟩
  | noMembers hinner hskip =>
    obtain ⟨b', rfl, hb'⟩ := h.exists_cons (by decide)
    obtain ⟨left, hleft, hsame, hsuffix⟩ := exists_skipBlanks_cons (by decide) hb' hskip
    exact ⟨left, value_eq_ok_iff.2 (.noMembers hinner hleft), hsame,
      (List.suffix_cons _ _).trans (hsuffix.trans (List.suffix_cons _ _))⟩
  | members hinner hhead hmembers =>
    obtain ⟨b', rfl, hb'⟩ := h.exists_cons (by decide)
    have hlength := (skipBlanks_suffix b').length_le
    rw [List.length_cons] at henough
    have hbody : ReadsAlike (Reader.members _ enough (skipBlanks b')) _ rest _ :=
      ih.members (sameLines_skipBlanks hb') hmembers (by omega)
    obtain ⟨left, hleft, hsame, hsuffix⟩ := hbody
    exact ⟨left, value_eq_ok_iff.2
      (.members hinner (head?_skipBlanks_ne (by decide) hb' hhead) hleft), hsame,
      hsuffix.trans ((skipBlanks_suffix b').trans (List.suffix_cons _ _))⟩
  | atom hquote hbracket hbrace hatom =>
    obtain ⟨left, hleft, hsame, hsuffix⟩ := atom_readsAlike h hatom
    have hhead {c : Char} (hc : isNewline c = false) (hne : a.head? ≠ some c) : b.head? ≠ some c :=
      mt (h.head?_eq_some_iff hc).2 hne
    exact ⟨left, value_eq_ok_iff.2 (.atom (hhead (by decide) hquote) (hhead (by decide) hbracket)
      (hhead (by decide) hbrace) hleft), hsame, hsuffix⟩

/-- One step of the items of an array: the comma and the bracket are found alike. -/
theorem Alike.items_succ (ih : Alike depth) {js : List Json} (h : SameLines a b)
    (hread : Reader.items levels (depth + 1) a = .ok (js, rest))
    (henough : 2 * b.length + 1 ≤ enough) :
    ReadsAlike (Reader.items levels (enough + 1) b) js rest b := by
  cases items_eq_ok_iff.1 hread with
  | last hitem hskip =>
    obtain ⟨left, hleft, hsame, hsuffix⟩ := ih.value h hitem henough
    obtain ⟨behind, hbracket, hbehind, hmark⟩ := exists_skipBlanks_cons (by decide) hsame hskip
    exact ⟨behind, items_eq_ok_iff.2 (.last hleft hbracket), hbehind,
      (List.suffix_cons _ _).trans (hmark.trans hsuffix)⟩
  | more hitem hskip hothers =>
    obtain ⟨left, hleft, hsame, hsuffix⟩ := ih.value h hitem henough
    obtain ⟨next, hcomma, hnext, hmark⟩ := exists_skipBlanks_cons (by decide) hsame hskip
    -- The comma makes what is left shorter.
    have hlength : (skipBlanks next).length + 1 ≤ b.length :=
      (Nat.succ_le_succ (skipBlanks_suffix next).length_le).trans (hmark.trans hsuffix).length_le
    have hrest : ReadsAlike (Reader.items levels enough (skipBlanks next)) _ rest _ :=
      ih.items (sameLines_skipBlanks hnext) hothers (by omega)
    obtain ⟨behind, hread', hbehind, htail⟩ := hrest
    exact ⟨behind, items_eq_ok_iff.2 (.more hleft hcomma hread'), hbehind,
      htail.trans ((skipBlanks_suffix next).trans
        ((List.suffix_cons _ _).trans (hmark.trans hsuffix)))⟩

/-- A name, its colon and its value. -/
theorem Alike.member (ih : Alike depth) {named body left : List Char} {name : String} {item : Json}
    (h : SameLines a b) (hname : string a = .ok (name, named))
    (hcolon : skipBlanks named = ':' :: body)
    (hitem : Reader.value levels depth (skipBlanks body) = .ok (item, left))
    (henough : 2 * b.length + 1 ≤ enough) :
    ∃ named' body' left', string b = .ok (name, named') ∧ skipBlanks named' = ':' :: body' ∧
      Reader.value levels enough (skipBlanks body') = .ok (item, left') ∧ SameLines left left' ∧
      left' <:+ b := by
  obtain ⟨named', hnamed, hsame, hsuffix⟩ := string_readsAlike h hname
  obtain ⟨body', hbody, hbodySame, hmark⟩ := exists_skipBlanks_cons (by decide) hsame hcolon
  have hbodySuffix : skipBlanks body' <:+ b :=
    (skipBlanks_suffix body').trans ((List.suffix_cons _ _).trans (hmark.trans hsuffix))
  have hlength := hbodySuffix.length_le
  have hread : ReadsAlike (Reader.value levels enough (skipBlanks body')) item left _ :=
    ih.value (sameLines_skipBlanks hbodySame) hitem (by omega)
  obtain ⟨left', hleft, hleftSame, hleftSuffix⟩ := hread
  exact ⟨named', body', left', hnamed, hbody, hleft, hleftSame, hleftSuffix.trans hbodySuffix⟩

/-- One step of the members of an object: the colon, the comma and the brace are found alike. -/
theorem Alike.members_succ (ih : Alike depth) {ms : List (String × Json)} (h : SameLines a b)
    (hread : Reader.members levels (depth + 1) a = .ok (ms, rest))
    (henough : 2 * b.length + 1 ≤ enough) :
    ReadsAlike (Reader.members levels (enough + 1) b) ms rest b := by
  cases members_eq_ok_iff.1 hread with
  | last hname hcolon hitem hskip =>
    obtain ⟨b', rfl, hb'⟩ := h.exists_cons (by decide)
    rw [List.length_cons] at henough
    obtain ⟨named, body, left, hnamed, hbody, hleft, hsame, hsuffix⟩ :=
      ih.member (b := b') hb' hname hcolon hitem (show 2 * b'.length + 1 ≤ enough by omega)
    obtain ⟨behind, hbrace, hbehind, hmark⟩ := exists_skipBlanks_cons (by decide) hsame hskip
    exact ⟨behind, members_eq_ok_iff.2 (.last hnamed hbody hleft hbrace), hbehind,
      (List.suffix_cons _ _).trans ((hmark.trans hsuffix).trans (List.suffix_cons _ _))⟩
  | more hname hcolon hitem hskip hothers =>
    obtain ⟨b', rfl, hb'⟩ := h.exists_cons (by decide)
    rw [List.length_cons] at henough
    obtain ⟨named, body, left, hnamed, hbody, hleft, hsame, hsuffix⟩ :=
      ih.member (b := b') hb' hname hcolon hitem (show 2 * b'.length + 1 ≤ enough by omega)
    obtain ⟨next, hcomma, hnext, hmark⟩ := exists_skipBlanks_cons (by decide) hsame hskip
    -- What is left behind the comma is shorter, so there is fuel enough for the other members.
    have hnextSuffix : skipBlanks next <:+ b' :=
      (skipBlanks_suffix next).trans ((List.suffix_cons _ _).trans (hmark.trans hsuffix))
    have hlength := hnextSuffix.length_le
    have hrest : ReadsAlike (Reader.members levels enough (skipBlanks next)) _ rest _ :=
      ih.members (sameLines_skipBlanks hnext) hothers (by omega)
    obtain ⟨behind, hread', hbehind, htail⟩ := hrest
    exact ⟨behind, members_eq_ok_iff.2 (.more hnamed hbody hleft hcomma hread'), hbehind,
      (htail.trans hnextSuffix).trans (List.suffix_cons _ _)⟩

end

/-- Values are read alike with any fuel, by induction on the fuel. -/
theorem alike (depth : Nat) : Alike depth := by
  induction depth with
  | zero => exact ⟨nofun, nofun, nofun⟩
  | succ depth ih =>
    refine ⟨?_, ?_, ?_⟩
    · intro levels a b rest j enough h hread henough
      obtain ⟨enough, rfl⟩ := Nat.exists_eq_add_of_le' (show 1 ≤ enough by omega)
      exact ih.value_succ h hread (by omega)
    · intro levels a b rest js enough h hread henough
      obtain ⟨enough, rfl⟩ := Nat.exists_eq_add_of_le' (show 1 ≤ enough by omega)
      exact ih.items_succ h hread (by omega)
    · intro levels a b rest ms enough h hread henough
      obtain ⟨enough, rfl⟩ := Nat.exists_eq_add_of_le' (show 1 ≤ enough by omega)
      exact ih.members_succ h hread (by omega)

end Reader

open Reader in
/-- What one text is read as, a text with the same lines is read as too. -/
theorem parse_of_sameLines {levels : Option Nat} {s t : String}
    (h : Text.SameLines s.toList t.toList) {j : Json} (hread : parseWithin levels s = .ok j) :
    parseWithin levels t = .ok j := by
  obtain ⟨hmark, rest, hvalue, hend⟩ := parseWithin_eq_ok_iff.1 hread
  have hlength := (skipBlanks_suffix t.toList).length_le
  have hvalue' :
      ReadsAlike (value levels (2 * t.toList.length + 2) (skipBlanks t.toList)) j rest _ :=
    (alike _).value (sameLines_skipBlanks h) hvalue (by omega)
  obtain ⟨left, hleft, hsame, -⟩ := hvalue'
  -- Nothing but blanks is left of the one, so nothing else is left of the other.
  have hblanks := sameLines_skipBlanks hsame
  rw [hend] at hblanks
  exact parseWithin_eq_ok_iff.2
    ⟨mt (h.head?_eq_some_iff (by decide)).2 hmark, left, hleft, hblanks.eq_nil⟩

/-- How the lines of a text end does not matter for what it is read as. -/
theorem parse_eq_ok_iff_of_sameLines {levels : Option Nat} {s t : String}
    (h : Text.SameLines s.toList t.toList) (j : Json) :
    parseWithin levels s = .ok j ↔ parseWithin levels t = .ok j :=
  ⟨parse_of_sameLines h, parse_of_sameLines h.symm⟩

end TypedRoutes.Json
