import TypedRoutes.Datum.Display
import TypedRoutes.Proofs.Json.Number

/-!
# Texts of scalars

The plain text of a scalar that is no string determines it (`Scalar.eq_of_text_eq`). What stands
behind the sign and the digits in front of the text tells the kind (`Scalar.kindOf_text`), and each
kind is written in a way that can be undone: numbers are read back, bytes are escaped one by one,
and the parts of dates and times are separated.
-/

set_option autoImplicit false

namespace TypedRoutes

open Text (Stops stops_nil stops_cons takeWhile_append_stops dropWhile_append_stops)

/-- Digits are told apart from what does not continue them. -/
theorem IsDigits.append_inj {xs ys rest rest' : List Char} (hxs : IsDigits xs) (hys : IsDigits ys)
    (hrest : Stops Char.isDigit rest) (hrest' : Stops Char.isDigit rest')
    (h : xs ++ rest = ys ++ rest') : xs = ys ∧ rest = rest' := by
  constructor
  · rw [← takeWhile_append_stops hxs hrest, h, takeWhile_append_stops hys hrest']
  · rw [← dropWhile_append_stops hxs hrest, h, dropWhile_append_stops hys hrest']

/-! ## Dates and times -/

namespace Calendar

variable {width : Nat}

theorem toList_padded (width n : Nat) :
    (padded width n).toList =
      List.replicate (width - (decimalDigits n).length) '0' ++ decimalDigits n := by
  rw [padded, String.toList_ofList]

theorem isDigits_padded (width n : Nat) : IsDigits (padded width n).toList := by
  rw [toList_padded]
  exact isDigits_append.2 ⟨isDigits_replicate _, isDigits_decimalDigits n⟩

/-- The zeros in front leave the number as it is. -/
theorem digitsNumber_padded (width n : Nat) : digitsNumber (padded width n).toList = n := by
  rw [toList_padded, digitsNumber_append, digitsNumber_replicate, zero_mul, zero_add,
    digitsNumber_decimalDigits]

/-- A padded number is determined by a text that begins with it, when no digit comes after it. -/
theorem padded_append_inj {m n : Nat} {rest rest' : List Char} (hrest : Stops Char.isDigit rest)
    (hrest' : Stops Char.isDigit rest')
    (h : (padded width m).toList ++ rest = (padded width n).toList ++ rest') :
    m = n ∧ rest = rest' := by
  obtain ⟨hdigits, rfl⟩ :=
    (isDigits_padded width m).append_inj (isDigits_padded width n) hrest hrest' h
  refine ⟨?_, rfl⟩
  rw [← digitsNumber_padded width m, hdigits, digitsNumber_padded]

/-- A number is told apart from a mark that follows it, and from what stands behind the mark. -/
theorem padded_cons_inj {m n : Nat} {c : Char} {rest rest' : List Char}
    (hc : c.isDigit = false)
    (h : (padded width m).toList ++ c :: rest = (padded width n).toList ++ c :: rest') :
    m = n ∧ rest = rest' := by
  obtain ⟨rfl, hrest⟩ := padded_append_inj (stops_cons.2 hc) (stops_cons.2 hc) h
  exact ⟨rfl, (List.cons.inj hrest).2⟩

end Calendar

open Calendar

/-- A date is shown as year, month and day with a hyphen before the last two. -/
theorem Date.toList_text (d : Date) :
    d.text.toList = (padded 4 d.year).toList ++
      '-' :: ((padded 2 d.month).toList ++ '-' :: (padded 2 d.day).toList) := by
  simp [text]

/-- A date is told apart from what does not continue its day. -/
theorem Date.text_append_inj {d d' : Date} {rest rest' : List Char}
    (hrest : Stops Char.isDigit rest) (hrest' : Stops Char.isDigit rest')
    (h : d.text.toList ++ rest = d'.text.toList ++ rest') : d = d' ∧ rest = rest' := by
  simp only [toList_text, List.append_assoc, List.cons_append] at h
  obtain ⟨hyear, h⟩ := padded_cons_inj rfl h
  obtain ⟨hmonth, h⟩ := padded_cons_inj rfl h
  obtain ⟨hday, hends⟩ := padded_append_inj hrest hrest' h
  obtain ⟨year, month, day⟩ := d
  obtain rfl : year = d'.year := hyear
  obtain rfl : month = d'.month := hmonth
  obtain rfl : day = d'.day := hday
  exact ⟨rfl, hends⟩

/-- A date is determined by its text. -/
theorem Date.text_injective : Function.Injective Date.text := by
  intro d d' h
  have happend : d.text.toList ++ [] = d'.text.toList ++ [] := by rw [h]
  exact (text_append_inj stops_nil stops_nil happend).1

theorem Date.space_not_mem_text (d : Date) : ' ' ∉ d.text.toList := by
  have hpadded (width n : Nat) : ' ' ∉ (padded width n).toList := fun hmem =>
    absurd (isDigits_padded width n ' ' hmem) (by decide)
  simp [toList_text, hpadded]

namespace Timestamp

/-- The distance from the reference time is shown as a sign, hours and minutes. -/
theorem toList_offsetText (minutes : Int) :
    (offsetText minutes).toList = (if minutes < 0 then '-' else '+') ::
      ((padded 2 (minutes.natAbs / 60)).toList ++
        ':' :: (padded 2 (minutes.natAbs % 60)).toList) := by
  unfold offsetText
  split <;> simp

/-- The distance from the reference time is determined by its text, as the sign and the minutes
are. -/
theorem offsetText_injective : Function.Injective offsetText := by
  intro minutes minutes' h
  have hchars := congrArg String.toList h
  rw [toList_offsetText, toList_offsetText] at hchars
  obtain ⟨hsign, hchars⟩ := List.cons.inj hchars
  obtain ⟨hhours, hchars⟩ := padded_cons_inj rfl hchars
  have hends : (padded 2 (minutes.natAbs % 60)).toList ++ [] =
      (padded 2 (minutes'.natAbs % 60)).toList ++ [] := by rw [hchars]
  obtain ⟨hrest, -⟩ := padded_append_inj stops_nil stops_nil hends
  -- The hours and the minutes give the distance, and the sign gives its direction.
  have hdistance : minutes.natAbs = minutes'.natAbs := by
    rw [← Nat.div_add_mod minutes.natAbs 60, hhours, hrest, Nat.div_add_mod]
  have hnegative : minutes < 0 ↔ minutes' < 0 := by
    by_cases hminutes : minutes < 0
    · by_cases hminutes' : minutes' < 0
      · exact iff_of_true hminutes hminutes'
      · rw [if_pos hminutes, if_neg hminutes'] at hsign
        cases hsign
    · by_cases hminutes' : minutes' < 0
      · rw [if_neg hminutes, if_pos hminutes'] at hsign
        cases hsign
      · exact iff_of_false hminutes hminutes'
  omega

/-- The fraction of a second as it is written. -/
def fractionText (microsecond : Nat) : String :=
  if microsecond = 0 then "" else "." ++ padded 6 microsecond

/-- What a timestamp ends in. -/
def zoneText (offset : Option Int) : String := (offset.map offsetText).getD ""

/-- A timestamp is shown as its date, the time of day and the zone. -/
theorem toList_text (t : Timestamp) :
    t.text.toList = t.date.text.toList ++ ' ' :: ((padded 2 t.hour).toList ++
      ':' :: ((padded 2 t.minute).toList ++ ':' :: ((padded 2 t.second).toList ++
        ((fractionText t.microsecond).toList ++ (zoneText t.offset).toList)))) := by
  simp [text, fractionText, zoneText]

/-- A zone is shown as nothing or with a sign at its front. -/
theorem zoneText_eq (offset : Option Int) :
    (zoneText offset).toList = [] ∨
      ∃ rest, (zoneText offset).toList = '-' :: rest ∨ (zoneText offset).toList = '+' :: rest := by
  cases offset with
  | none => exact .inl rfl
  | some minutes =>
    have htext : (zoneText (some minutes)).toList = (offsetText minutes).toList := rfl
    rw [htext, toList_offsetText]
    split
    · exact .inr ⟨_, .inl rfl⟩
    · exact .inr ⟨_, .inr rfl⟩

/-- No digit begins a zone, so the fraction before it can be read to its end. -/
theorem stops_zoneText (offset : Option Int) : Stops Char.isDigit (zoneText offset).toList := by
  rcases zoneText_eq offset with h | ⟨rest, h | h⟩
  · rw [h]
    exact stops_nil
  · rw [h]
    exact stops_cons.2 (by decide)
  · rw [h]
    exact stops_cons.2 (by decide)

/-- A zone is determined by its text: only a missing one is empty. -/
theorem zoneText_injective : Function.Injective zoneText := by
  have hnone (minutes : Int) : zoneText none ≠ zoneText (some minutes) := by
    intro h
    have hchars : [] = (offsetText minutes).toList := congrArg String.toList h
    rw [toList_offsetText] at hchars
    cases hchars
  intro offset offset' h
  cases offset with
  | none =>
    cases offset' with
    | none => rfl
    | some minutes => exact absurd h (hnone minutes)
  | some minutes =>
    cases offset' with
    | none => exact absurd h.symm (hnone minutes)
    | some minutes' => rw [offsetText_injective h]

/-- Only a fraction begins with a point. -/
theorem fractionText_append_inj {m n : Nat} {offset offset' : Option Int}
    (h : (fractionText m).toList ++ (zoneText offset).toList =
      (fractionText n).toList ++ (zoneText offset').toList) :
    m = n ∧ (zoneText offset).toList = (zoneText offset').toList := by
  have hpoint (offset : Option Int) (rest : List Char) :
      (zoneText offset).toList ≠ '.' :: rest := by
    rcases zoneText_eq offset with hzone | ⟨_, hzone | hzone⟩ <;> rw [hzone] <;> exact nofun
  have hfraction {n : Nat} (hn : n ≠ 0) :
      (fractionText n).toList = '.' :: (padded 6 n).toList := by
    rw [fractionText, if_neg hn, String.toList_append]
    rfl
  -- Without a fraction a zone follows the seconds, which begins with no point.
  by_cases hm : m = 0
  · by_cases hn : n = 0
    · subst hm hn
      exact ⟨rfl, List.append_cancel_left h⟩
    · subst hm
      rw [hfraction hn] at h
      exact absurd h (hpoint offset _)
  · by_cases hn : n = 0
    · subst hn
      rw [hfraction hm] at h
      exact absurd h.symm (hpoint offset' _)
    · rw [hfraction hm, hfraction hn] at h
      exact padded_append_inj (stops_zoneText offset) (stops_zoneText offset')
        (List.cons.inj h).2

/-- No digit begins what comes after the seconds. -/
theorem stops_fractionText_append (n : Nat) (offset : Option Int) :
    Stops Char.isDigit ((fractionText n).toList ++ (zoneText offset).toList) := by
  unfold fractionText
  split
  · exact stops_zoneText offset
  · rw [String.toList_append]
    exact stops_cons.2 (by decide)

/-- The text of a timestamp determines all its parts, in the order in which they are written. -/
theorem text_injective : Function.Injective Timestamp.text := by
  intro t t' h
  have hchars := congrArg String.toList h
  rw [toList_text, toList_text] at hchars
  -- The fields are told apart one by one, each by the mark behind it.
  obtain ⟨hdate, hchars⟩ :=
    Date.text_append_inj (stops_cons.2 (by decide)) (stops_cons.2 (by decide)) hchars
  obtain ⟨hhour, hchars⟩ := padded_cons_inj rfl (List.cons.inj hchars).2
  obtain ⟨hminute, hchars⟩ := padded_cons_inj rfl hchars
  obtain ⟨hsecond, hchars⟩ := padded_append_inj (stops_fractionText_append _ _)
    (stops_fractionText_append _ _) hchars
  obtain ⟨hmicrosecond, hchars⟩ := fractionText_append_inj hchars
  have hoffset := zoneText_injective (String.toList_inj.1 hchars)
  obtain ⟨date, hour, minute, second, microsecond, offset⟩ := t
  obtain rfl : date = t'.date := hdate
  obtain rfl : hour = t'.hour := hhour
  obtain rfl : minute = t'.minute := hminute
  obtain rfl : second = t'.second := hsecond
  obtain rfl : microsecond = t'.microsecond := hmicrosecond
  obtain rfl : offset = t'.offset := hoffset
  rfl

end Timestamp

/-! ## Bytes -/

namespace Text

/-- The byte at the front of what stands between quotes, and the rest. -/
def unquotedByte? : List Char → Option (UInt8 × List Char)
  | '\\' :: 'x' :: high :: low :: rest =>
    (hexNumber? [high, low]).map fun n => (UInt8.ofNat n, rest)
  | '\\' :: c :: rest =>
    let code := if c = 't' then 9 else if c = 'n' then 10 else if c = 'r' then 13 else c.toNat
    some (UInt8.ofNat code, rest)
  | c :: rest => some (UInt8.ofNat c.toNat, rest)
  | [] => none

/-- Two hexadecimal digits are enough for a byte. -/
theorem exists_hex_two {n : Nat} (hn : n < 256) :
    ∃ high low, hex 2 n = [high, low] ∧ hexNumber? [high, low] = some n := by
  have hdigits : ∀ n < 256, (hex 2 n).length = 2 ∧ hexNumber? (hex 2 n) = some n := by
    decide +kernel
  obtain ⟨hlength, hnumber⟩ := hdigits n hn
  obtain ⟨high, low, hhex⟩ := List.length_eq_two.1 hlength
  exact ⟨high, low, hhex, hhex ▸ hnumber⟩

/-- Every byte is escaped in a way of its own. -/
theorem unquotedByte?_append {quote : Char} (hquote : quote = '\'' ∨ quote = '"') (b : UInt8)
    (rest : List Char) : unquotedByte? (quotedByte quote b ++ rest) = some (b, rest) := by
  have hb : UInt8.ofNat (Char.ofNat b.toNat).toNat = b := by
    have hcode : ∀ n < 256, (Char.ofNat n).toNat = n := by decide +kernel
    rw [hcode _ b.toNat_lt, UInt8.ofNat_toNat]
  unfold quotedByte
  dsimp only
  -- The byte is kept as the one that its character came from, and the cases follow the escapes.
  generalize Char.ofNat b.toNat = c at hb ⊢
  split
  · next hescaped =>
    rcases hescaped with rfl | rfl
    · rcases hquote with rfl | rfl <;> rw [← hb] <;> rfl
    · rw [← hb]
      rfl
  · next hescaped =>
    obtain ⟨-, hbackslash⟩ := not_or.1 hescaped
    split
    · next htab =>
      rw [← hb, htab]
      rfl
    · split
      · next hlineFeed =>
        rw [← hb, hlineFeed]
        rfl
      · split
        · next hreturn =>
          rw [← hb, hreturn]
          rfl
        · split
          · rw [List.singleton_append, unquotedByte?, hb]
            · exact fun _ _ _ heq => absurd heq hbackslash
            · exact fun _ _ heq => absurd heq hbackslash
          · obtain ⟨high, low, hhex, hnumber⟩ := exists_hex_two b.toNat_lt
            rw [hhex]
            simp [unquotedByte?, hnumber]

/-- Bytes are determined by what is written for them between quotes. -/
theorem flatMap_quotedByte_injective {quote : Char} (hquote : quote = '\'' ∨ quote = '"') :
    Function.Injective (List.flatMap (quotedByte quote)) := by
  intro bytes bytes' h
  have hne (b : UInt8) (rest : List Char) : quotedByte quote b ++ rest ≠ [] := by
    intro hnil
    have hread := unquotedByte?_append hquote b rest
    rw [hnil] at hread
    cases hread
  -- The induction is on the bytes: the first byte and the rest are read back from the same text.
  induction bytes generalizing bytes' with
  | nil =>
    cases bytes' with
    | nil => rfl
    | cons b' rest' => exact absurd h.symm (hne b' _)
  | cons b rest ih =>
    cases bytes' with
    | nil => exact absurd h (hne b _)
    | cons b' rest' =>
      rw [List.flatMap_cons, List.flatMap_cons] at h
      have hread := unquotedByte?_append hquote b (rest.flatMap (quotedByte quote))
      rw [h, unquotedByte?_append hquote] at hread
      obtain ⟨rfl, hrest⟩ := Prod.mk.inj (Option.some.inj hread)
      rw [ih hrest.symm]

theorem enclosing_eq (holdsSingle holdsDouble : Bool) :
    enclosing holdsSingle holdsDouble = '\'' ∨ enclosing holdsSingle holdsDouble = '"' := by
  cases holdsSingle <;> cases holdsDouble <;> decide

/-- The text of bytes determines them, for it shows which quote encloses them. -/
theorem quotedBytes_injective : Function.Injective quotedBytes := by
  intro bytes bytes' h
  have hchars := String.ofList_injective h
  obtain ⟨-, hchars⟩ := List.cons.inj hchars
  obtain ⟨hquote, hchars⟩ := List.cons.inj hchars
  rw [hquote] at hchars
  exact flatMap_quotedByte_injective (enclosing_eq _ _) (List.append_cancel_right hchars)

end Text

/-! ## Scalars -/

namespace Scalar

/-- Is the scalar a string? -/
def isString : Scalar → Bool
  | .str _ => true
  | _ => false

/-- A float is kept in its canonical shape. -/
def IsCanonical : Scalar → Prop
  | .float x => x.IsCanonical
  | _ => True

/-- The kinds of scalars that are written in different ways. -/
inductive Kind where
  | null
  | bool
  | int
  | finite
  | infinite
  | nan
  | string
  | bytes
  | date
  | timestamp
  deriving DecidableEq

/-- The kind of a scalar. -/
def kind : Scalar → Kind
  | .null => .null
  | .bool _ => .bool
  | .int _ => .int
  | .float (.finite ..) => .finite
  | .float (.infinite _) => .infinite
  | .float .nan => .nan
  | .str _ => .string
  | .bytes _ => .bytes
  | .date _ => .date
  | .timestamp _ => .timestamp

/-- What stands in a text behind a sign and digits in front of it. -/
def behindDigits (cs : List Char) : List Char :=
  (Numeral.splitSign cs).2.dropWhile Char.isDigit

/-- The kind that a text shows if it is not the text of a string. -/
def kindOf (cs : List Char) : Kind :=
  match (behindDigits cs).head? with
  | none => .int
  | some 'N' => .null
  | some 'T' | some 'F' => .bool
  | some 'i' => .infinite
  | some 'n' => .nan
  | some 'b' => .bytes
  | some '-' => if cs.contains ' ' then .timestamp else .date
  | _ => .finite

/-- Behind the digits of a number stands what was put there. -/
theorem behindDigits_append (negative : Bool) {digits rest : List Char} (hdigits : IsDigits digits)
    (hne : digits ≠ []) (hrest : Stops Char.isDigit rest) :
    behindDigits ((if negative then ['-'] else []) ++ (digits ++ rest)) = rest := by
  obtain ⟨c, tail, rfl⟩ := List.exists_cons_of_ne_nil hne
  have hc : c.isDigit = true := hdigits c List.mem_cons_self
  have hsplit : (Numeral.splitSign ((if negative then ['-'] else []) ++ (c :: tail ++ rest))).2 =
      c :: tail ++ rest := by
    cases negative with
    | true => rfl
    | false =>
      rw [if_neg Bool.false_ne_true, List.nil_append, List.cons_append, Numeral.splitSign]
      · rintro _ heq
        obtain rfl := (List.cons.inj heq).1
        cases hc
      · rintro _ heq
        obtain rfl := (List.cons.inj heq).1
        cases hc
  rw [behindDigits, hsplit, dropWhile_append_stops hdigits hrest]

theorem behindDigits_decimalText (n : Int) : behindDigits (decimalText n).toList = [] := by
  have htext : (decimalText n).toList =
      (if decide (n < 0) then ['-'] else []) ++ (decimalDigits n.natAbs ++ []) := by
    unfold decimalText
    split <;> simp [*]
  rw [htext]
  exact behindDigits_append _ (isDigits_decimalDigits _) Nat.toDigits_ne_nil stops_nil

/-- A finite float has a point or an exponent. -/
theorem behindDigits_floatText (negative : Bool) (m : Nat) (e : Int) :
    ∃ c ∈ (behindDigits (Json.floatText (.finite negative m e)).toList).head?,
      c = '.' ∨ c = 'e' := by
  cases m with
  | zero =>
    refine ⟨'.', ?_, .inl rfl⟩
    change '.' ∈ (behindDigits ((if negative then "-" else "") ++ "0.0").toList).head?
    cases negative <;> decide
  | succ m =>
    obtain ⟨w, hw, hfloat, -⟩ :=
      Layout.exists_numeral Json.floatLayout negative (Nat.succ_ne_zero m) e
    -- A float is never written as an integer: it has a fraction, or an exponent in its place.
    have hrest : ∃ c rest, WrittenNumeral.fractionChars w.fraction ++
        WrittenNumeral.exponentChars w.exponent = c :: rest ∧ (c = '.' ∨ c = 'e') := by
      cases hfraction : w.fraction with
      | cons d digits => exact ⟨'.', _, rfl, .inl rfl⟩
      | nil =>
        cases hexponent : w.exponent with
        | none => exact absurd ⟨hfraction, hexponent⟩ hfloat
        | some x => exact ⟨'e', _, rfl, .inr rfl⟩
    obtain ⟨c, rest, hrest, hc⟩ := hrest
    have hstops : Stops Char.isDigit (c :: rest) := by
      rcases hc with rfl | rfl <;> exact stops_cons.2 (by decide)
    rw [Json.floatText, hw, WrittenNumeral.chars, List.append_assoc, hrest,
      behindDigits_append negative w.isWhole.digits w.isWhole.ne_nil hstops]
    exact ⟨c, rfl, hc⟩

/-- Behind the year of a date stands the first hyphen. -/
theorem behindDigits_date (d : Date) (rest : List Char) :
    behindDigits (d.text.toList ++ rest) =
      '-' :: ((padded 2 d.month).toList ++ '-' :: (padded 2 d.day).toList ++ rest) := by
  have hne : (padded 4 d.year).toList ≠ [] := by
    intro hnil
    have hlength := congrArg List.length hnil
    rw [toList_padded, List.length_append] at hlength
    have hpos : 0 < (decimalDigits d.year).length :=
      List.length_pos_of_ne_nil Nat.toDigits_ne_nil
    rw [List.length_nil] at hlength
    omega
  rw [Date.toList_text, List.append_assoc, List.cons_append]
  exact behindDigits_append false (isDigits_padded 4 d.year) hne (stops_cons.2 (by decide))

theorem text_int (n : Int) : (Scalar.int n).text = integerText n := rfl

theorem text_finite (negative : Bool) (m : Nat) (e : Int) :
    (Scalar.float (.finite negative m e)).text = .ok (Json.floatText (.finite negative m e)) := by
  cases m <;> rfl

/-- The text of a scalar that is no string shows its kind. -/
theorem kindOf_text {a : Scalar} {name : String} (ha : a.isString = false)
    (h : a.text = .ok name) : kindOf name.toList = a.kind := by
  -- Words and bytes are told by their first characters, numbers and dates by what stands behind
  -- their digits.
  cases a with
  | null =>
    obtain rfl := Except.ok.inj h
    rfl
  | bool value =>
    obtain rfl := Except.ok.inj h
    cases value <;> rfl
  | int n =>
    rw [text_int, integerText_eq_ok_iff] at h
    obtain ⟨-, rfl⟩ := h
    rw [kindOf, behindDigits_decimalText]
    rfl
  | float x =>
    match x with
    | .nan =>
      obtain rfl := Except.ok.inj h
      rfl
    | .infinite negative =>
      obtain rfl := Except.ok.inj h
      cases negative <;> rfl
    | .finite negative m e =>
      rw [text_finite] at h
      obtain rfl := Except.ok.inj h
      obtain ⟨c, hhead, hc⟩ := behindDigits_floatText negative m e
      rw [kindOf, hhead]
      rcases hc with rfl | rfl <;> rfl
  | str s => cases ha
  | bytes bytes =>
    obtain rfl := Except.ok.inj h
    rw [Text.quotedBytes, kindOf, String.toList_ofList]
    rfl
  | date d =>
    obtain rfl := Except.ok.inj h
    have hmark := behindDigits_date d []
    rw [List.append_nil] at hmark
    rw [kindOf, hmark]
    simp [kind, d.space_not_mem_text]
  | timestamp t =>
    obtain rfl := Except.ok.inj h
    rw [kindOf, Timestamp.toList_text, behindDigits_date]
    simp [kind]

/-- Numbers in JSON are read back, and their texts are the plain ones if they are finite. -/
theorem eq_of_floatText_eq {x y : Binary64} (hx : x.IsCanonical) (hy : y.IsCanonical)
    (h : Json.floatText x = Json.floatText y) : x = y := by
  obtain ⟨x', hx', hread⟩ := Json.Reader.atom_floatText x
  obtain ⟨y', hy', hread'⟩ := Json.Reader.atom_floatText y
  have hreads := hread stops_nil
  rw [h, hread' stops_nil] at hreads
  obtain ⟨hfloat, -⟩ := Prod.mk.inj (Except.ok.inj hreads)
  rw [← hx' hx, ← hy' hy, Json.float.inj hfloat]

/-- The text of a float determines it among those of its kind. -/
theorem eq_of_text_float_eq {x y : Binary64} (hx : x.IsCanonical) (hy : y.IsCanonical)
    (hkind : (Scalar.float x).kind = (Scalar.float y).kind)
    (h : (Scalar.float x).text = (Scalar.float y).text) : x = y := by
  -- The three kinds of floats have texts of their own kinds, so only equal kinds are left.
  cases x with
  | nan =>
    cases y with
    | nan => rfl
    | _ => cases hkind
  | infinite negative =>
    cases y with
    | infinite negative' =>
      have htext := Except.ok.inj h
      revert htext
      cases negative <;> cases negative' <;> decide
    | _ => cases hkind
  | finite negative m e =>
    cases y with
    | finite negative' n f =>
      rw [text_finite, text_finite] at h
      exact eq_of_floatText_eq hx hy (Except.ok.inj h)
    | _ => cases hkind

/-- Two integers within the limit of digits that have one text are equal. -/
theorem eq_of_integerText_eq {m n : Int} {name : String} (h : integerText m = .ok name)
    (h' : integerText n = .ok name) : m = n := by
  obtain ⟨hm, rfl⟩ := integerText_eq_ok_iff.1 h
  obtain ⟨hn, htext⟩ := integerText_eq_ok_iff.1 h'
  have hread := Json.Reader.atom_decimalText hm stops_nil
  rw [← htext, Json.Reader.atom_decimalText hn stops_nil] at hread
  obtain ⟨hint, -⟩ := Prod.mk.inj (Except.ok.inj hread)
  exact (Json.int.inj hint).symm

/-- The text of a scalar that is no string determines it. -/
theorem eq_of_text_eq {a b : Scalar} {name : String} (ha : a.isString = false)
    (hb : b.isString = false) (hacanonical : a.IsCanonical) (hbcanonical : b.IsCanonical)
    (h : a.text = .ok name) (h' : b.text = .ok name) : a = b := by
  -- Only scalars of one kind are left to be compared.
  have hkind : a.kind = b.kind := (kindOf_text ha h).symm.trans (kindOf_text hb h')
  cases a with
  | null =>
    cases b with
    | null => rfl
    | float y => cases y <;> cases hkind
    | _ => cases hkind
  | bool value =>
    cases b with
    | bool value' =>
      have htext := Except.ok.inj (h.trans h'.symm)
      revert htext
      cases value <;> cases value' <;> decide
    | float y => cases y <;> cases hkind
    | _ => cases hkind
  | int m =>
    cases b with
    | int n =>
      rw [text_int] at h h'
      rw [eq_of_integerText_eq h h']
    | float y => cases y <;> cases hkind
    | _ => cases hkind
  | float x =>
    cases b with
    | float y => rw [eq_of_text_float_eq hacanonical hbcanonical hkind (h.trans h'.symm)]
    | _ => cases x <;> cases hkind
  | str s => cases ha
  | bytes bytes =>
    cases b with
    | bytes bytes' => rw [Text.quotedBytes_injective (Except.ok.inj (h.trans h'.symm))]
    | float y => cases y <;> cases hkind
    | _ => cases hkind
  | date d =>
    cases b with
    | date d' => rw [Date.text_injective (Except.ok.inj (h.trans h'.symm))]
    | float y => cases y <;> cases hkind
    | _ => cases hkind
  | timestamp t =>
    cases b with
    | timestamp t' => rw [Timestamp.text_injective (Except.ok.inj (h.trans h'.symm))]
    | float y => cases y <;> cases hkind
    | _ => cases hkind

/-- The text of a string is the string. -/
theorem eq_of_isString {a b : Scalar} (ha : a.isString = true) (hb : b.isString = true)
    (h : a.text = b.text) : a = b := by
  cases a with
  | str s =>
    cases b with
    | str t => rw [Except.ok.inj h]
    | _ => cases hb
  | _ => cases ha

end Scalar

end TypedRoutes
