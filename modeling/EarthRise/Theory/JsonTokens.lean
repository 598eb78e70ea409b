import EarthRise.Core.Json
import Mathlib.Data.List.TakeWhile

/-!
# The Tokens of JSON

Strings, numbers and literals are read as the grammar writes them.

Each statement says both directions at once: the parser reads this much of the text, with
this result, exactly when some piece of the grammar is written there that stands for it.
What is left over is the same variable on both sides, so the descent can be built on the
tokens without looking into them again.

A number is the one token that has no end of its own. It is read up to the first byte that
does not go on with it, so it is complete only where what follows cannot go on with it
(`Ends`).

No token uses up its supply. A string is read with one call for each byte at most, and it
is given as many.

## Main definitions

* `Ends`: Nothing follows that goes on with a number.
* `Ready`: A result that is not for want of supply.

## Theorems

* `readHex4_iff`, `parseUnicodeEscape_sound`, `parseString_iff`: Strings.
* `scan_render`, `parseNumber_sound`, `parseNumber_complete`: Numbers.
* `parseBool_iff`, `parseNull_iff`: Literals.
-/

namespace EarthRise

namespace Json

open JsonText

section Results

variable {α β : Type} {x : Except Failure α}

/-- A step that succeeds after another one. -/
theorem ok_of_bind {f : α → Except Failure β} {b : β}
    (h : x.bind f = .ok b) : ∃ a, x = .ok a ∧ f a = .ok b := by
  cases x with
  | error e => exact absurd h nofun
  | ok a => exact ⟨a, rfl, h⟩

theorem ok_of_map {f : α → β} {b : β} (h : x.map f = .ok b) :
    ∃ a, x = .ok a ∧ f a = b := by
  cases x with
  | error e => exact absurd h nofun
  | ok a => exact ⟨a, rfl, Except.ok.inj h⟩

@[simp] theorem bind_ok (a : α) (f : α → Except Failure β) :
    (Except.ok a : Except Failure α).bind f = f a := rfl

@[simp] theorem fail_ne_ok (message : String) (rest : Bytes) (a : α) :
    (fail message rest : Except Failure α) ≠ .ok a := nofun

/-- A result that is not for want of supply. -/
def Ready (x : Except Failure α) : Prop := x ≠ .error .spent

theorem Ready.ok (a : α) : Ready (.ok a : Except Failure α) := nofun

theorem Ready.fail (message : String) (rest : Bytes) :
    Ready (fail message rest : Except Failure α) :=
  fun h => Failure.noConfusion (Except.error.inj h)

theorem Ready.bind {f : α → Except Failure β} (hx : Ready x)
    (hf : ∀ a, x = .ok a → Ready (f a)) : Ready (x.bind f) := by
  cases x with
  | error e => exact fun h => hx (congrArg _ (Except.error.inj h))
  | ok a => exact hf a rfl

theorem Ready.map (f : α → β) (hx : Ready x) : Ready (x.map f) := by
  cases x with
  | error e => exact fun h => hx (congrArg _ (Except.error.inj h))
  | ok a => exact Ready.ok (f a)

end Results

section Hex

variable {d : Nat}

theorem hexDigit_lt {b : UInt8} (h : hexDigit b = some d) : d < 16 := by
  have hb := b.toNat_lt
  simp only [hexDigit, UInt8.le_iff_toNat_le] at h
  simp only [UInt8.reduceToNat] at h
  split_ifs at h with h1 h2 h3 <;> injection h with h <;>
    rw [UInt8.toNat_sub_of_le _ _ (by
      simp only [UInt8.le_iff_toNat_le, UInt8.reduceToNat]; omega)] at h <;>
    simp only [UInt8.reduceToNat] at h <;> omega

/-- A digit is added with a shift as it is with a product. -/
theorem shift_or_digit (out : Nat) (hd : d < 16) : out <<< 4 ||| d = out * 16 + d := by
  rw [Nat.shiftLeft_eq, Nat.mul_comm out]
  exact (Nat.two_pow_add_eq_or_of_lt (show d < 2 ^ 4 from hd) out).symm

theorem hexDigits_cons (n out : Nat) (c : UInt8) (s : Bytes) (h : hexDigit c = some d) :
    hexDigits (n + 1) out (c :: s) = hexDigits n (out * 16 + d) s := by
  rw [hexDigits]
  simp only [h, shift_or_digit out (hexDigit_lt h)]

/-- One more digit was there to be read. -/
theorem hexDigits_succ {n out : Nat} {s : Bytes} {r : Nat × Bytes}
    (h : hexDigits (n + 1) out s = .ok r) :
    ∃ c rest d, s = c :: rest ∧ hexDigit c = some d ∧ hexDigits n (out * 16 + d) rest = .ok r := by
  cases s with
  | nil => exact absurd h (fail_ne_ok _ _ _)
  | cons c rest =>
    rcases hdigit : hexDigit c with _ | d
    · simp only [hexDigits, hdigit] at h
      exact absurd h (fail_ne_ok _ _ _)
    · rw [hexDigits_cons n out c rest hdigit] at h
      exact ⟨c, rest, d, rfl, hdigit, h⟩

/-- Four hexadecimal digits are read as the code unit they write. -/
theorem readHex4_iff {s rest : Bytes} {cp : Nat} :
    readHex4 s = .ok (cp, rest) ↔ ∃ h : Hex4, s = h.bytes ++ rest ∧ cp = h.value := by
  constructor
  · intro hread
    unfold readHex4 at hread
    split_ifs at hread with hshort
    · exact absurd hread (fail_ne_ok _ _ _)
    obtain ⟨a, s, va, rfl, ha, hread⟩ := hexDigits_succ hread
    obtain ⟨b, s, vb, rfl, hb, hread⟩ := hexDigits_succ hread
    obtain ⟨c, s, vc, rfl, hc, hread⟩ := hexDigits_succ hread
    obtain ⟨d, s, vd, rfl, hd, hread⟩ := hexDigits_succ hread
    rw [hexDigits, Except.ok.injEq, Prod.mk.injEq] at hread
    refine ⟨⟨a, b, c, d, va, vb, vc, vd, ha, hb, hc, hd⟩, ?_, ?_⟩
    · rw [← hread.2]
      rfl
    · rw [← hread.1, Nat.zero_mul, Nat.zero_add]
      rfl
  · rintro ⟨h, rfl, rfl⟩
    obtain ⟨ha, hb, hc, hd⟩ := h.digits
    have hlong : ¬ (h.bytes ++ rest).length < 4 := by
      simp only [Hex4.bytes, List.length_append, List.length_cons, List.length_nil]
      omega
    rw [readHex4, if_neg hlong, Hex4.bytes]
    simp only [List.cons_append, List.nil_append]
    rw [hexDigits_cons _ _ _ _ ha, hexDigits_cons _ _ _ _ hb, hexDigits_cons _ _ _ _ hc,
      hexDigits_cons _ _ _ _ hd, hexDigits, Nat.zero_mul, Nat.zero_add]
    rfl

theorem value_lt (h : Hex4) : h.value < 0x10000 := by
  obtain ⟨ha, hb, hc, hd⟩ := h.digits
  have := hexDigit_lt ha
  have := hexDigit_lt hb
  have := hexDigit_lt hc
  have := hexDigit_lt hd
  simp only [Hex4.value]
  omega

theorem ready_hexDigits (n out : Nat) (s : Bytes) : Ready (hexDigits n out s) := by
  induction n generalizing out s with
  | zero => exact Ready.ok _
  | succ n ih =>
    cases s with
    | nil => exact Ready.fail _ _
    | cons c s =>
      rcases hdigit : hexDigit c with _ | d
      · simp only [hexDigits, hdigit]
        exact Ready.fail _ _
      · rw [hexDigits_cons n out c s hdigit]
        exact ih _ _

theorem ready_readHex4 (s : Bytes) : Ready (readHex4 s) := by
  unfold readHex4
  split_ifs
  · exact Ready.fail _ _
  · exact ready_hexDigits 4 0 s

end Hex

section Utf8

/-- A mark in the high bits next to a number in the low ones. -/
theorem mark_or {k low : Nat} (high : Nat) (hlow : low < 2 ^ k) :
    2 ^ k * high ||| low = low + 2 ^ k * high := by
  rw [← Nat.two_pow_add_eq_or_of_lt hlow, Nat.add_comm]

theorem low_six (n : Nat) : n &&& 0x3F = n % 64 := Nat.and_two_pow_sub_one_eq_mod n 6

/-- The bit operations write the encoding of a character. -/
theorem appendUtf8_eq {cp : Nat} (hvalid : cp < 0xD800 ∨ 0xDFFF < cp ∧ cp < 0x110000)
    (out : Bytes) : appendUtf8 cp out = out ++ Piece.utf8 cp := by
  have hchar : (Char.ofNat cp).val.toNat = cp := by
    rw [Char.ofNat, dif_pos (show cp.isValidChar from hvalid)]
    rfl
  have htail (n : Nat) : 0x80 ||| n &&& 0x3F = n % 64 + 128 := by
    rw [low_six]
    exact mark_or (k := 6) 2 (Nat.mod_lt n (by decide))
  simp only [appendUtf8, Piece.utf8, String.utf8EncodeChar, hchar, htail, Nat.shiftRight_eq_div_pow]
  split_ifs with h1 h2 h3
  · rfl
  · have hhead : 0xC0 ||| cp / 2 ^ 6 = cp / 64 % 32 + 192 := by
      rw [Nat.mod_eq_of_lt (by omega)]
      exact mark_or (k := 6) 3 (by omega)
    rw [hhead]
  · have hhead : 0xE0 ||| cp / 2 ^ 12 = cp / 4096 % 16 + 224 := by
      rw [Nat.mod_eq_of_lt (by omega)]
      exact mark_or (k := 5) 7 (by omega)
    rw [hhead]
  · have hhead : 0xF0 ||| cp / 2 ^ 18 = cp / 262144 % 8 + 240 := by
      rw [Nat.mod_eq_of_lt (by omega)]
      exact mark_or (k := 4) 15 (by omega)
    rw [hhead]

end Utf8

section Strings

/-- One code unit, or a pair of them, and the bytes of their character. -/
inductive Unicode : List Hex4 → Bytes → Prop where
  | single (h : Hex4) (hhigh : ¬ Piece.isHigh h.value) (hlow : ¬ Piece.isLow h.value) :
      Unicode [h] (Piece.utf8 h.value)
  | pair (h l : Hex4) (hhigh : Piece.isHigh h.value) (hlow : Piece.isLow l.value) :
      Unicode [h, l] (Piece.utf8 (Piece.paired h.value l.value))

/-- The character of a pair is above those of one code unit. -/
theorem paired_valid {high low : Nat} (hhigh : Piece.isHigh high) (hlow : Piece.isLow low) :
    0xDFFF < Piece.paired high low ∧ Piece.paired high low < 0x110000 := by
  unfold Piece.isHigh at hhigh
  unfold Piece.isLow at hlow
  unfold Piece.paired
  omega

theorem appendUtf8_paired {high low : Nat} (hhigh : Piece.isHigh high) (hlow : Piece.isLow low)
    (out : Bytes) : appendUtf8 (0x10000 + (high - 0xD800) <<< 10 + (low - 0xDC00)) out =
      out ++ Piece.utf8 (Piece.paired high low) := by
  rw [Nat.shiftLeft_eq]
  exact appendUtf8_eq (.inr (paired_valid hhigh hlow)) out

theorem appendUtf8_single (h : Hex4) (hhigh : ¬ Piece.isHigh h.value)
    (hlow : ¬ Piece.isLow h.value) (out : Bytes) :
    appendUtf8 h.value out = out ++ Piece.utf8 h.value := by
  have := value_lt h
  apply appendUtf8_eq
  simp only [Piece.isHigh, Piece.isLow] at *
  omega

/-- The text of escapes, after the `u` of the first one. -/
def escapes : List Hex4 → Bytes
  | [] => []
  | [h] => h.bytes
  | h :: rest => h.bytes ++ 0x5C :: 0x75 :: escapes rest

variable {out s out' rest : Bytes}

/-- An escape reads one character. -/
theorem parseUnicodeEscape_sound
    (h : parseUnicodeEscape out s = .ok (out', rest)) :
    ∃ units d, Unicode units d ∧ s = escapes units ++ rest ∧ out' = out ++ d := by
  obtain ⟨⟨cp, s1⟩, hread, h⟩ := ok_of_bind h
  obtain ⟨high, rfl, rfl⟩ := readHex4_iff.mp hread
  simp only at h
  split_ifs at h with hhigh hnext hlow
  · obtain ⟨⟨cp, s2⟩, hread, h⟩ := ok_of_bind h
    obtain ⟨low, hs2, rfl⟩ := readHex4_iff.mp hread
    simp only at h
    split_ifs at h with hrange
    · exact absurd h (fail_ne_ok _ _ _)
    rw [Except.ok.injEq, Prod.mk.injEq] at h
    have hlow : Piece.isLow low.value := by
      simp only [Piece.isLow]
      omega
    refine ⟨[high, low], _, .pair high low hhigh hlow, ?_, ?_⟩
    · -- The two characters that were looked at are the ones that are skipped.
      have hcons : s1 = 0x5C :: 0x75 :: s1.tail.tail := by
        match s1, hnext with
        | a :: b :: s1, hnext =>
          simp only [List.head?_cons, List.tail_cons, Option.some.injEq] at hnext ⊢
          rw [hnext.1, hnext.2]
      rw [hcons, hs2, h.2, escapes, escapes]
      · simp only [List.append_assoc, List.cons_append]
      · exact List.cons_ne_nil _ _
    · rw [← h.1]
      exact appendUtf8_paired hhigh hlow out
  · exact absurd h (fail_ne_ok _ _ _)
  · exact absurd h (fail_ne_ok _ _ _)
  · rw [Except.ok.injEq, Prod.mk.injEq] at h
    refine ⟨[high], _, .single high hhigh hlow, ?_, ?_⟩
    · rw [h.2]
      rfl
    · rw [← h.1]
      exact appendUtf8_single high hhigh hlow out

variable {units : List Hex4} {d : Bytes} {fuel : Nat}

theorem parseUnicodeEscape_complete (h : Unicode units d)
    (out rest : Bytes) :
    parseUnicodeEscape out (escapes units ++ rest) = .ok (out ++ d, rest) := by
  cases h with
  | single h hhigh hlow =>
    have hread : readHex4 (escapes [h] ++ rest) = .ok (h.value, rest) :=
      readHex4_iff.mpr ⟨h, rfl, rfl⟩
    simp only [parseUnicodeEscape, hread, bind_ok]
    simp only [Piece.isHigh, Piece.isLow] at hhigh hlow
    rw [if_neg hhigh, if_neg hlow, appendUtf8_single h hhigh hlow]
  | pair h l hhigh hlow =>
    have hread : readHex4 (escapes [h, l] ++ rest) =
        .ok (h.value, 0x5C :: 0x75 :: (l.bytes ++ rest)) := by
      refine readHex4_iff.mpr ⟨h, ?_, rfl⟩
      rw [escapes, escapes]
      · simp only [List.append_assoc, List.cons_append]
      · exact List.cons_ne_nil _ _
    have hread2 : readHex4 (l.bytes ++ rest) = .ok (l.value, rest) :=
      readHex4_iff.mpr ⟨l, rfl, rfl⟩
    have hrange : ¬ (l.value < 0xDC00 ∨ 0xDFFF < l.value) := by
      simp only [Piece.isLow] at hlow
      omega
    have hunit : 0xD800 ≤ h.value ∧ h.value ≤ 0xDBFF := hhigh
    simp only [parseUnicodeEscape, hread, bind_ok]
    rw [if_pos hunit, if_pos ⟨rfl, rfl⟩]
    simp only [List.tail_cons, hread2, bind_ok]
    rw [if_neg hrange, appendUtf8_paired hhigh hlow]

theorem ready_parseUnicodeEscape (out s : Bytes) : Ready (parseUnicodeEscape out s) := by
  refine (ready_readHex4 s).bind fun ⟨cp, s⟩ _ => ?_
  dsimp only
  split_ifs
  · refine (ready_readHex4 _).bind fun ⟨low, s⟩ _ => ?_
    dsimp only
    split_ifs
    · exact Ready.fail _ _
    · exact Ready.ok _
  · exact Ready.fail _ _
  · exact Ready.fail _ _
  · exact Ready.ok _

theorem escaped_iff {esc b : UInt8} :
    escaped esc = some b ↔ ∃ e : Short, e.letter = esc ∧ e.byte = b := by
  constructor
  · intro h
    unfold escaped at h
    split_ifs at h with h1 h2 h3 h4 h5 h6 h7 h8 <;> rw [Option.some.injEq] at h
    · exact ⟨.quote, h1.symm, h⟩
    · exact ⟨.backslash, h2.symm, h⟩
    · exact ⟨.slash, h3.symm, h⟩
    · exact ⟨.backspace, h4.symm, h⟩
    · exact ⟨.formFeed, h5.symm, h⟩
    · exact ⟨.lineFeed, h6.symm, h⟩
    · exact ⟨.carriageReturn, h7.symm, h⟩
    · exact ⟨.tab, h8.symm, h⟩
  · rintro ⟨e, rfl, rfl⟩
    cases e <;> rfl

theorem parseEscape_short (e : Short) (out s : Bytes) :
    parseEscape out (e.letter :: s) = .ok (out ++ [e.byte], s) := by
  have hletter : e.letter ≠ 0x75 := by cases e <;> decide
  rw [parseEscape, if_neg hletter, escaped_iff.mpr ⟨e, rfl, rfl⟩]

theorem decode_unicode (h : Unicode units d) (ps : List Piece) :
    Piece.decode (units.map .unit ++ ps) = (Piece.decode ps).map (d ++ ·) := by
  cases h with
  | single h hhigh hlow =>
    simp only [List.map_cons, List.map_nil, List.cons_append, List.nil_append]
    rw [Piece.decode.eq_def (_ :: _)]
    simp only [if_neg hhigh, if_neg hlow]
  | pair h l hhigh hlow =>
    simp only [List.map_cons, List.map_nil, List.cons_append, List.nil_append]
    rw [Piece.decode, if_pos hhigh]
    exact if_pos hlow

theorem render_unicode (h : Unicode units d) :
    (units.map Piece.unit).flatMap Piece.render = 0x5C :: 0x75 :: escapes units := by
  cases h with
  | single h hhigh hlow => exact List.append_nil _
  | pair h l hhigh hlow =>
    simp only [List.map_cons, List.map_nil, List.flatMap_cons, List.flatMap_nil, Piece.render,
      List.append_nil, List.cons_append, escapes]

/-- What follows a backslash is the rest of some pieces that add their bytes to a string. -/
theorem parseEscape_sound (h : parseEscape out s = .ok (out', rest)) :
    ∃ ps d, 0x5C :: s = ps.flatMap Piece.render ++ rest ∧ out' = out ++ d ∧
      (∀ qs, Piece.decode (ps ++ qs) = (Piece.decode qs).map (d ++ ·)) ∧
        rest.length < s.length := by
  cases s with
  | nil => exact absurd h (fail_ne_ok _ _ _)
  | cons esc s =>
    rw [parseEscape] at h
    split_ifs at h with hu
    · obtain ⟨units, d, hunits, rfl, hout⟩ := parseUnicodeEscape_sound h
      refine ⟨units.map .unit, d, ?_, hout, decode_unicode hunits, ?_⟩
      · rw [render_unicode hunits, hu]
        rfl
      · simp only [List.length_cons, List.length_append]
        omega
    · rcases hesc : escaped esc with _ | b
      · rw [hesc] at h
        exact absurd h (fail_ne_ok _ _ _)
      · rw [hesc, Except.ok.injEq, Prod.mk.injEq] at h
        obtain ⟨e, rfl, rfl⟩ := escaped_iff.mp hesc
        obtain ⟨rfl, rfl⟩ := h
        exact ⟨[.short e], [e.byte], rfl, rfl, fun qs => rfl, Nat.lt_succ_self _⟩

theorem ready_parseEscape (out s : Bytes) : Ready (parseEscape out s) := by
  cases s with
  | nil => exact Ready.fail _ _
  | cons esc s =>
    rw [parseEscape]
    split_ifs
    · exact ready_parseUnicodeEscape out s
    · cases escaped esc with
      | none => exact Ready.fail _ _
      | some b => exact Ready.ok _

theorem unescaped_iff {c : UInt8} :
    isUnescaped c = true ↔ ¬ c = 0x22 ∧ ¬ c = 0x5C ∧ ¬ c < 0x20 := by
  simp only [isUnescaped, Bool.and_eq_true, decide_eq_true_eq, bne_iff_ne, ne_eq, UInt8.not_lt]
  tauto

theorem renderAll_cons (p : Piece) (ps : List Piece) :
    Piece.renderAll (p :: ps) = p.render ++ Piece.renderAll ps := by
  rw [Piece.renderAll, List.flatMap_cons, List.append_assoc, Piece.renderAll]

theorem renderAll_append (ps qs : List Piece) :
    Piece.renderAll (ps ++ qs) = ps.flatMap Piece.render ++ Piece.renderAll qs := by
  rw [Piece.renderAll, List.flatMap_append, List.append_assoc, Piece.renderAll]

/-- What the loop reads is the text of a string, by induction on the supply: each turn
    reads the pieces of one character. -/
theorem stringLoop_sound
    (h : stringLoop fuel out s = .ok (out', rest)) :
    ∃ ps d, s = Piece.renderAll ps ++ rest ∧ Piece.decode ps = some d ∧ out' = out ++ d := by
  induction fuel generalizing out s with
  | zero => exact absurd h nofun
  | succ fuel ih =>
    cases s with
    | nil => exact absurd h (fail_ne_ok _ _ _)
    | cons c s =>
      rw [stringLoop] at h
      split_ifs at h with hquote hslash hcontrol
      · rw [Except.ok.injEq, Prod.mk.injEq] at h
        obtain ⟨rfl, rfl⟩ := h
        refine ⟨[], [], ?_, rfl, (List.append_nil _).symm⟩
        rw [hquote]
        rfl
      · obtain ⟨⟨out1, s1⟩, hescape, h⟩ := ok_of_bind h
        obtain ⟨ps, d, hs, rfl, hdecode, _⟩ := parseEscape_sound hescape
        obtain ⟨qs, e, rfl, hqs, rfl⟩ := ih h
        refine ⟨ps ++ qs, d ++ e, ?_, ?_, List.append_assoc _ _ _⟩
        · rw [hslash, hs, renderAll_append, List.append_assoc]
        · rw [hdecode, hqs]
          rfl
      · exact absurd h (fail_ne_ok _ _ _)
      · obtain ⟨ps, d, rfl, hps, rfl⟩ := ih h
        refine ⟨.raw c (unescaped_iff.mpr ⟨hquote, hslash, hcontrol⟩) :: ps, c :: d, ?_, ?_, ?_⟩
        · rw [renderAll_cons]
          rfl
        · rw [Piece.decode, hps]
          rfl
        · rw [List.append_assoc]
          rfl

theorem stringLoop_escape {out s out' s' : Bytes}
    (h : parseEscape out s = .ok (out', s')) :
    stringLoop (fuel + 1) out (0x5C :: s) = stringLoop fuel out' s' := by
  rw [stringLoop, if_neg (by decide), if_pos rfl, h]
  rfl

/-- One code unit, or two, after a backslash. -/
theorem stringLoop_unicode (h : Unicode units d) (fuel : Nat)
    (out rest : Bytes) :
    stringLoop (fuel + 1) out (0x5C :: 0x75 :: (escapes units ++ rest)) =
      stringLoop fuel (out ++ d) rest := by
  apply stringLoop_escape
  rw [parseEscape, if_pos rfl]
  exact parseUnicodeEscape_complete h out rest

/-- The loop reads the text of some pieces. -/
def Reads (rest : Bytes) (ps : List Piece) : Prop :=
  ∀ d, Piece.decode ps = some d → ∀ fuel out, (Piece.renderAll ps).length ≤ fuel →
    stringLoop fuel out (Piece.renderAll ps ++ rest) = .ok (out ++ d, rest)

/-- One turn of the loop, for pieces that add their bytes to a string. -/
theorem Reads.turn {rest c g e : Bytes} {ps : List Piece} (ih : Reads rest ps) (qs : List Piece)
    (hrender : qs.flatMap Piece.render = c ++ g) (hc : c.length = 1)
    (hdecode : Piece.decode (qs ++ ps) = (Piece.decode ps).map (e ++ ·))
    (hturn : ∀ fuel out s, stringLoop (fuel + 1) out (c ++ g ++ s) = stringLoop fuel (out ++ e) s) :
    Reads rest (qs ++ ps) := by
  intro d hd fuel out hfuel
  rw [hdecode, Option.map_eq_some_iff] at hd
  obtain ⟨d, hps, rfl⟩ := hd
  rw [renderAll_append, hrender, List.length_append, List.length_append, hc] at hfuel
  obtain ⟨fuel, rfl⟩ : ∃ n, fuel = n + 1 := ⟨fuel - 1, by omega⟩
  rw [renderAll_append, hrender, List.append_assoc, hturn, ih d hps fuel _ (by omega),
    List.append_assoc]

/-- Each string that stands for bytes is read, by induction along its decoding. -/
theorem reads (rest : Bytes) (ps : List Piece) : Reads rest ps := by
  induction ps using Piece.decode.induct with
  | case1 =>
    intro d hd fuel out hfuel
    obtain ⟨fuel, rfl⟩ : ∃ n, fuel = n + 1 := ⟨fuel - 1, (Nat.sub_add_cancel hfuel).symm⟩
    rw [Piece.decode, Option.some.injEq] at hd
    rw [← hd, List.append_nil]
    rfl
  | case2 b hb ps ih =>
    obtain ⟨hquote, hslash, hcontrol⟩ := unescaped_iff.mp hb
    refine ih.turn [.raw b hb] (c := [b]) (g := []) (e := [b]) rfl rfl rfl fun _ _ _ => ?_
    simp only [List.append_nil, List.cons_append, List.nil_append, stringLoop]
    rw [if_neg hquote, if_neg hslash, if_neg hcontrol]
  | case3 e ps ih =>
    refine ih.turn [.short e] (c := [0x5C]) (g := [e.letter]) (e := [e.byte]) rfl rfl rfl
      fun fuel out s => ?_
    exact stringLoop_escape (parseEscape_short e out s)
  | case4 h hhigh l ps hlow ih =>
    have hpair := Unicode.pair h l hhigh hlow
    exact ih.turn _ (c := [0x5C]) (render_unicode hpair) rfl (decode_unicode hpair ps)
      fun fuel out s => stringLoop_unicode hpair fuel out s
  | case5 h hhigh l ps hlow =>
    intro d hd
    rw [Piece.decode.eq_def] at hd
    simp only [if_pos hhigh, if_neg hlow, reduceCtorEq] at hd
  | case6 h ps hhigh hnone =>
    intro d hd
    rw [Piece.decode.eq_def] at hd
    simp only [if_pos hhigh, reduceCtorEq] at hd
  | case7 h ps hhigh hlow =>
    intro d hd
    rw [Piece.decode.eq_def] at hd
    simp only [if_neg hhigh, if_pos hlow, reduceCtorEq] at hd
  | case8 h ps hhigh hlow ih =>
    have hsingle := Unicode.single h hhigh hlow
    exact ih.turn _ (c := [0x5C]) (render_unicode hsingle) rfl (decode_unicode hsingle ps)
      fun fuel out s => stringLoop_unicode hsingle fuel out s

/-- A string is read to its quotation mark, if its escapes stand for characters. -/
theorem parseString_iff {s d rest : Bytes} :
    parseString s = .ok (d, rest) ↔
      ∃ ps, s = Piece.renderAll ps ++ rest ∧ Piece.decode ps = some d := by
  constructor
  · intro h
    obtain ⟨ps, e, hs, hps, rfl⟩ := stringLoop_sound h
    exact ⟨ps, hs, hps⟩
  · rintro ⟨ps, rfl, hps⟩
    exact reads rest ps d hps _ [] (by rw [List.length_append]; omega)

theorem ready_stringLoop {out s : Bytes} (hfuel : s.length < fuel) :
    Ready (stringLoop fuel out s) := by
  induction fuel generalizing out s with
  | zero => exact absurd hfuel (Nat.not_lt_zero _)
  | succ fuel ih =>
    cases s with
    | nil => exact Ready.fail _ _
    | cons c s =>
      have hfuel : s.length < fuel := Nat.lt_of_succ_lt_succ hfuel
      rw [stringLoop]
      split_ifs
      · exact Ready.ok _
      · refine (ready_parseEscape out s).bind fun ⟨out', s'⟩ hescape => ?_
        obtain ⟨_, _, _, _, _, hshort⟩ := parseEscape_sound hescape
        exact ih (Nat.lt_trans hshort hfuel)
      · exact Ready.fail _ _
      · exact ih hfuel

theorem ready_parseString (s : Bytes) : Ready (parseString s) :=
  ready_stringLoop (Nat.lt_succ_self _)

end Strings

section Digits

/-- Nothing follows that goes on with digits. -/
def NoDigit (rest : Bytes) : Prop := ∀ b, rest.head? = some b → isDigit b = false

/-- Nothing follows that goes on with a number. -/
def Ends (rest : Bytes) : Prop :=
  ∀ b, rest.head? = some b → isDigit b = false ∧ b ≠ 0x2E ∧ isMark b = false

variable {rest : Bytes} {b : UInt8}

theorem Ends.noDigit (h : Ends rest) : NoDigit rest := fun b hb => (h b hb).1

theorem Ends.mark (h : Ends rest) : rest.head?.any isMark = false := by
  cases rest with
  | nil => rfl
  | cons b rest => exact (h b rfl).2.2

theorem noDigit_cons (hb : isDigit b = false) (rest : Bytes) : NoDigit (b :: rest) :=
  fun _ hc => Option.some.inj hc ▸ hb

theorem ends_cons (hb : isDigit b = false ∧ b ≠ 0x2E ∧ isMark b = false)
    (rest : Bytes) : Ends (b :: rest) := fun _ hc => Option.some.inj hc ▸ hb

theorem ends_nil : Ends [] := fun _ h => nomatch h

theorem takeWhile_noDigit (h : NoDigit rest) : rest.takeWhile isDigit = [] := by
  cases rest with
  | nil => rfl
  | cons b rest => exact List.takeWhile_cons_of_neg (by rw [h b rfl]; decide)

theorem dropWhile_noDigit (h : NoDigit rest) : rest.dropWhile isDigit = rest := by
  cases rest with
  | nil => rfl
  | cons b rest => exact List.dropWhile_cons_of_neg (by rw [h b rfl]; decide)

variable (d : Digits) {rest : Bytes}

theorem takeWhile_digits (h : NoDigit rest) : (d.bytes ++ rest).takeWhile isDigit = d.bytes := by
  rw [List.takeWhile_append_of_pos d.digit, takeWhile_noDigit h, List.append_nil]

theorem dropWhile_digits (h : NoDigit rest) : (d.bytes ++ rest).dropWhile isDigit = rest := by
  rw [List.dropWhile_append_of_pos d.digit, dropWhile_noDigit h]

theorem head_digits : ∃ b, isDigit b = true ∧ ∀ rest, (d.bytes ++ rest).head? = some b := by
  rcases hbytes : d.bytes with _ | ⟨b, bytes⟩
  · exact absurd hbytes d.nonempty
  · exact ⟨b, d.digit b (hbytes ▸ List.mem_cons_self), fun _ => rfl⟩

/-- A byte that is no digit does not start a run of them. -/
theorem head_digits_ne (hb : isDigit b = false) :
    (d.bytes ++ rest).head? ≠ some b := by
  obtain ⟨c, hc, hhead⟩ := head_digits d
  rw [hhead, ne_eq, Option.some.injEq]
  rintro rfl
  exact absurd hc (by rw [hb]; decide)

theorem skipDigits_complete (message : String) (h : NoDigit rest) :
    skipDigits message (d.bytes ++ rest) = .ok rest := by
  obtain ⟨b, hb, hhead⟩ := head_digits d
  rw [skipDigits, hhead, Option.any_some, if_pos hb, dropWhile_digits d h]

omit d in
theorem skipDigits_sound {message : String} {s : Bytes} (h : skipDigits message s = .ok rest) :
    ∃ d : Digits, s = d.bytes ++ rest := by
  unfold skipDigits at h
  split_ifs at h with hhead
  · have hsome : s.takeWhile isDigit ≠ [] := by
      cases s with
      | nil => exact absurd hhead (by decide)
      | cons b s =>
        rw [List.takeWhile_cons_of_pos (show isDigit b = true from hhead)]
        exact List.cons_ne_nil _ _
    refine ⟨⟨s.takeWhile isDigit, fun b hb => List.mem_takeWhile_imp hb, hsome⟩, ?_⟩
    rw [← Except.ok.inj h]
    exact List.takeWhile_append_dropWhile.symm
  · exact absurd h (fail_ne_ok _ _ _)

omit d in
theorem ready_skipDigits (message : String) (s : Bytes) : Ready (skipDigits message s) := by
  unfold skipDigits
  split_ifs
  · exact Ready.ok _
  · exact Ready.fail _ _

end Digits

section Numbers

variable (n : Numeral) {rest : Bytes}

/-- The text of a numeral after its sign. -/
def magnitude : Bytes :=
  n.whole.bytes ++ (Numeral.renderFraction n.fraction ++ Numeral.renderExponent n.exponent)

theorem render_magnitude : n.render = (if n.negative then [0x2D] else []) ++ magnitude n := by
  simp only [Numeral.render, magnitude, List.append_assoc]

theorem noDigit_fraction (f : Option Digits) (e : Option Exponent) (h : NoDigit rest) :
    NoDigit (Numeral.renderFraction f ++ (Numeral.renderExponent e ++ rest)) := by
  cases f with
  | some d => exact noDigit_cons rfl _
  | none =>
    cases e with
    | none => exact h
    | some e => cases hupper : e.upper <;>
        exact noDigit_cons (by simp only [hupper]; rfl) _

theorem ends_exponent (e : Option Exponent) (h : Ends rest) :
    NoDigit (Numeral.renderExponent e ++ rest) := noDigit_fraction none e h.noDigit

/-- What comes after the fraction is no point. -/
theorem head_exponent_ne (e : Option Exponent) (h : Ends rest) :
    (Numeral.renderExponent e ++ rest).head? ≠ some 0x2E := by
  cases e with
  | none => exact fun hhead => (h _ hhead).2.1 rfl
  | some e =>
    rw [Numeral.renderExponent, Exponent.render]
    cases e.upper <;> exact fun hhead => absurd (Option.some.inj hhead) (by decide)

theorem skipSign_complete (sign : Option Bool) (d : Digits) :
    skipSign (Exponent.signBytes sign ++ (d.bytes ++ rest)) = d.bytes ++ rest := by
  rcases sign with _ | _ | _
  · obtain ⟨b, hb, hhead⟩ := head_digits d
    have hsign : ¬ isSign b = true := by
      simp only [isSign, Bool.or_eq_true, beq_iff_eq]
      rintro (rfl | rfl) <;> exact absurd hb (by decide)
    rw [Exponent.signBytes, List.nil_append, skipSign, hhead]
    exact if_neg hsign
  · rfl
  · rfl

theorem skipFraction_complete (f : Option Digits) (hrest : NoDigit rest)
    (hpoint : rest.head? ≠ some 0x2E) :
    skipFraction (Numeral.renderFraction f ++ rest) = .ok rest := by
  cases f with
  | none => exact if_neg hpoint
  | some d => exact skipDigits_complete d _ hrest

theorem skipExponent_complete (e : Option Exponent) (hrest : Ends rest) :
    skipExponent (Numeral.renderExponent e ++ rest) = .ok rest := by
  cases e with
  | none =>
    rw [Numeral.renderExponent, List.nil_append, skipExponent, hrest.mark]
    rfl
  | some e =>
    have hmark : ((Exponent.render e ++ rest).head?.any isMark) = true := by
      rw [Exponent.render]
      cases e.upper <;> rfl
    rw [Numeral.renderExponent, skipExponent, if_pos hmark, Exponent.render]
    simp only [List.cons_append, List.tail_cons, List.append_assoc]
    rw [skipSign_complete]
    exact skipDigits_complete e.digits _ hrest.noDigit

theorem skipMinus_complete : skipMinus (n.render ++ rest) = magnitude n ++ rest := by
  rw [render_magnitude, skipMinus]
  cases n.negative with
  | true => rfl
  | false =>
    have hhead : (magnitude n ++ rest).head? ≠ some 0x2D := by
      rw [magnitude, List.append_assoc]
      exact head_digits_ne n.whole rfl
    exact if_neg hhead

/-- A numeral is read to its end, where nothing goes on with it. -/
theorem parseNumber_complete (hrest : Ends rest) :
    parseNumber (n.render ++ rest) = .ok (.number (strtod n.render), rest) := by
  have hwhole : skipDigits "invalid number" (magnitude n ++ rest) =
      .ok (Numeral.renderFraction n.fraction ++ (Numeral.renderExponent n.exponent ++ rest)) := by
    rw [magnitude, List.append_assoc, List.append_assoc]
    exact skipDigits_complete n.whole _ (noDigit_fraction _ _ hrest.noDigit)
  have htoken : (n.render ++ rest).take ((n.render ++ rest).length - rest.length) = n.render := by
    rw [List.length_append, Nat.add_sub_cancel]
    exact List.take_left
  rw [parseNumber, skipMinus_complete, hwhole, bind_ok,
    skipFraction_complete _ (ends_exponent _ hrest) (head_exponent_ne _ hrest), bind_ok,
    skipExponent_complete _ hrest, bind_ok, htoken]

theorem skipFraction_sound {s : Bytes} (h : skipFraction s = .ok rest) :
    ∃ f, s = Numeral.renderFraction f ++ rest := by
  unfold skipFraction at h
  split_ifs at h with hhead
  · obtain ⟨d, htail⟩ := skipDigits_sound h
    refine ⟨some d, ?_⟩
    rw [Numeral.renderFraction, List.cons_append, ← htail]
    exact (List.eq_cons_of_mem_head? hhead)
  · exact ⟨none, Except.ok.inj h⟩

/-- The sign that is skipped. -/
theorem skipSign_sound (s : Bytes) : ∃ sign, s = Exponent.signBytes sign ++ skipSign s := by
  unfold skipSign
  cases s with
  | nil => exact ⟨none, rfl⟩
  | cons b s =>
    split_ifs with hsign
    · simp only [List.head?_cons, Option.any_some, isSign, Bool.or_eq_true, beq_iff_eq] at hsign
      rcases hsign with rfl | rfl
      · exact ⟨some false, rfl⟩
      · exact ⟨some true, rfl⟩
    · exact ⟨none, rfl⟩

theorem skipExponent_sound {s : Bytes} (h : skipExponent s = .ok rest) :
    ∃ e, s = Numeral.renderExponent e ++ rest := by
  unfold skipExponent at h
  split_ifs at h with hhead
  · obtain ⟨d, hdigits⟩ := skipDigits_sound h
    obtain ⟨sign, hsign⟩ := skipSign_sound s.tail
    cases s with
    | nil => exact absurd hhead (by decide)
    | cons b s =>
      simp only [List.head?_cons, Option.any_some, isMark, Bool.or_eq_true, beq_iff_eq] at hhead
      refine ⟨some ⟨b == 0x45, sign, d⟩, ?_⟩
      rw [List.tail_cons] at hsign hdigits
      rw [Numeral.renderExponent, Exponent.render, hsign, hdigits]
      rcases hhead with rfl | rfl <;> simp
  · exact ⟨none, Except.ok.inj h⟩

theorem skipMinus_sound (s : Bytes) :
    ∃ negative : Bool, s = (if negative then [0x2D] else []) ++ skipMinus s := by
  unfold skipMinus
  split_ifs with hhead
  · exact ⟨true, List.eq_cons_of_mem_head? hhead⟩
  · exact ⟨false, rfl⟩

theorem scanFraction_complete (f : Option Digits) (hrest : NoDigit rest)
    (hpoint : rest.head? ≠ some 0x2E) :
    scanFraction (Numeral.renderFraction f ++ rest) = (f.elim [] Digits.bytes, rest) := by
  cases f with
  | none => exact if_neg hpoint
  | some d =>
    simp only [scanFraction, Numeral.renderFraction, List.cons_append, List.head?_cons,
      List.tail_cons, if_true, takeWhile_digits d hrest, dropWhile_digits d hrest]
    rfl

theorem scanPower_complete (e : Option Exponent) :
    scanPower (Numeral.renderExponent e) = e.elim 0 Exponent.value := by
  cases e with
  | none => rfl
  | some e =>
    obtain ⟨upper, sign, d⟩ := e
    have hmark : (Numeral.renderExponent (some ⟨upper, sign, d⟩)).head?.any isMark = true := by
      cases upper <;> rfl
    have htail : (Numeral.renderExponent (some ⟨upper, sign, d⟩)).tail =
        Exponent.signBytes sign ++ (d.bytes ++ []) := by
      rw [List.append_nil]
      rfl
    have hdigits : (d.bytes ++ []).takeWhile isDigit = d.bytes :=
      takeWhile_digits d ends_nil.noDigit
    rw [scanPower, if_pos hmark, htail, skipSign_complete, hdigits]
    rcases sign with _ | _ | _
    · exact if_neg (head_digits_ne d rfl)
    · rfl
    · rfl

/-- What is read back from the text of a numeral is the number it writes. -/
theorem scan_render : scan n.render = n.decimal := by
  have hmagnitude : skipMinus n.render = magnitude n := by
    rw [← List.append_nil n.render, skipMinus_complete, List.append_nil]
  have hnegative : (decide (n.render.head? = some 0x2D)) = n.negative := by
    rw [render_magnitude]
    cases n.negative with
    | true => rfl
    | false => exact decide_eq_false (head_digits_ne n.whole rfl)
  have hnext := noDigit_fraction n.fraction n.exponent ends_nil.noDigit
  have hexponent := ends_exponent n.exponent ends_nil
  have hpoint := head_exponent_ne n.exponent ends_nil
  rw [List.append_nil] at hnext hexponent hpoint
  simp only [scan, hmagnitude, hnegative, magnitude, takeWhile_digits n.whole hnext,
    dropWhile_digits n.whole hnext, scanFraction_complete n.fraction hexponent hpoint,
    scanPower_complete]
  rfl

/-- What is read as a number is a numeral, with the double nearest to it. -/
theorem parseNumber_sound {s : Bytes} {v : Value} (h : parseNumber s = .ok (v, rest)) :
    ∃ n : Numeral, s = n.render ++ rest ∧ v = .number (Decimal.toDouble n.decimal) := by
  obtain ⟨s1, hwhole, h⟩ := ok_of_bind h
  obtain ⟨s2, hfraction, h⟩ := ok_of_bind h
  obtain ⟨s3, hexponent, h⟩ := ok_of_bind h
  rw [Except.ok.injEq, Prod.mk.injEq] at h
  obtain ⟨rfl, rfl⟩ := h
  obtain ⟨negative, hs⟩ := skipMinus_sound s
  obtain ⟨d, hd⟩ := skipDigits_sound hwhole
  obtain ⟨f, rfl⟩ := skipFraction_sound hfraction
  obtain ⟨e, rfl⟩ := skipExponent_sound hexponent
  have htext : s = (⟨negative, d, f, e⟩ : Numeral).render ++ s3 := by
    rw [hs, hd]
    simp only [Numeral.render, List.append_assoc]
  refine ⟨⟨negative, d, f, e⟩, htext, ?_⟩
  have htoken : s.take (s.length - s3.length) = (⟨negative, d, f, e⟩ : Numeral).render := by
    rw [htext, List.length_append, Nat.add_sub_cancel]
    exact List.take_left
  rw [htoken, strtod, scan_render]

theorem ready_parseNumber (s : Bytes) : Ready (parseNumber s) := by
  refine (ready_skipDigits _ _).bind fun s1 _ => ?_
  have hfraction : Ready (skipFraction s1) := by
    unfold skipFraction
    split_ifs
    · exact ready_skipDigits _ _
    · exact Ready.ok _
  refine hfraction.bind fun s2 _ => ?_
  have hexponent : Ready (skipExponent s2) := by
    unfold skipExponent
    split_ifs
    · exact ready_skipDigits _ _
    · exact Ready.ok _
  exact hexponent.bind fun _ _ => Ready.ok _

end Numbers

section Literals

theorem literal_iff {text s rest : Bytes} : literal text s = some rest ↔ s = text ++ rest := by
  unfold literal
  constructor
  · intro h
    split_ifs at h with htake
    rw [← Option.some.inj h]
    exact (htake ▸ List.take_append_drop text.length s).symm
  · rintro rfl
    rw [List.take_left, if_pos rfl, List.drop_left]

theorem parseNull_iff {s rest : Bytes} {v : Value} :
    parseNull s = .ok (v, rest) ↔ s = Tree.nullBytes ++ rest ∧ v = .null := by
  constructor
  · intro h
    unfold parseNull at h
    split at h
    · rename_i hliteral
      rw [Except.ok.injEq, Prod.mk.injEq] at h
      exact ⟨h.2 ▸ literal_iff.mp hliteral, h.1.symm⟩
    · exact absurd h (fail_ne_ok _ _ _)
  · rintro ⟨rfl, rfl⟩
    rfl

theorem parseBool_iff {s rest : Bytes} {v : Value} :
    parseBool s = .ok (v, rest) ↔ ∃ b, s = Tree.boolBytes b ++ rest ∧ v = .bool b := by
  constructor
  · intro h
    unfold parseBool at h
    split at h
    · rename_i hliteral
      rw [Except.ok.injEq, Prod.mk.injEq] at h
      exact ⟨true, h.2 ▸ literal_iff.mp hliteral, h.1.symm⟩
    · rename_i hliteral
      rw [Except.ok.injEq, Prod.mk.injEq] at h
      exact ⟨false, h.2 ▸ literal_iff.mp hliteral, h.1.symm⟩
    · exact absurd h (fail_ne_ok _ _ _)
  · rintro ⟨b, rfl, rfl⟩
    cases b <;> rfl

theorem ready_parseNull (s : Bytes) : Ready (parseNull s) := by
  unfold parseNull
  split
  · exact Ready.ok _
  · exact Ready.fail _ _

theorem ready_parseBool (s : Bytes) : Ready (parseBool s) := by
  unfold parseBool
  split
  · exact Ready.ok _
  · exact Ready.ok _
  · exact Ready.fail _ _

end Literals

end Json

end EarthRise
