import EarthRise.Core.ServerStatus
import EarthRise.Theory.Json

/-!
# The Status Record Round Trip

What comes back of a status record that was written and read again.

The text of a record is a document, so it is always accepted: integers are numerals of
digits only, doubles that are finite are numerals whatever their size, and the keys need no
escapes. What the parser makes of it is an object with the members in their order, and as
the keys are distinct each typed read finds its own.

The one loss is in the numbers. An integer is read as the nearest double and cut off again,
which gives it back exactly if a double holds it. Sixteen and thirty-two bits always fit;
of sixty-four bits only those fit that are below `2 ^ 53` or end in enough zeros.

## Main definitions

* `root`: What the parser makes of the text of a record.
* `ServerStatus.counts`: A record without its doubles.
* `Held`: A record whose wide integers are all held by doubles.

## Theorems

* `value_decimal`: Decimal digits write the number they are of.
* `formatReal_numeral`: A finite double is written as a numeral.
* `parse_encode`: The text of a record is accepted.
* `counts_restored_iff`: When the integers and flags come back.
* `tick_lost`: A tick that does not.
-/

namespace EarthRise

namespace Net

open Json (Value)
open JsonText

section Decimals

theorem toNat_digit (n : Nat) : (digit n).toNat = 0x30 + n % 10 := by
  rw [digit, UInt8.toNat_ofNat']
  omega

theorem isDigit_digit (n : Nat) : isDigit (digit n) = true := by
  have hlow : (0x30 : UInt8) ≤ digit n := by
    rw [UInt8.le_iff_toNat_le, toNat_digit]
    exact Nat.le_add_right _ _
  have hhigh : digit n ≤ 0x39 := by
    rw [UInt8.le_iff_toNat_le, toNat_digit]
    show 48 + n % 10 ≤ 57
    omega
  rw [isDigit, decide_eq_true hlow, decide_eq_true hhigh]
  rfl

theorem digit_sub (n : Nat) : (digit n - 0x30).toNat = n % 10 := by
  have hlow : (0x30 : UInt8) ≤ digit n := by
    rw [UInt8.le_iff_toNat_le, toNat_digit]
    exact Nat.le_add_right _ _
  rw [UInt8.toNat_sub_of_le _ _ hlow, toNat_digit]
  exact Nat.add_sub_cancel_left 48 _

/-- The digits of a number write it, by induction on the number without its last digit. -/
theorem value_digits (n : Nat) :
    Digits.valueFrom 0 ((Nat.digits 10 n).reverse.map digit) = n := by
  induction n using Nat.strong_induction_on with
  | _ n ih =>
    rcases Nat.eq_zero_or_pos n with rfl | hpos
    · rfl
    · have hrest := ih (n / 10) (Nat.div_lt_self hpos (by decide))
      unfold Digits.valueFrom at hrest ⊢
      rw [Nat.digits_def' (by decide) hpos, List.reverse_cons, List.map_append,
        List.foldl_append, hrest]
      show 10 * (n / 10) + (digit (n % 10) - 0x30).toNat = n
      rw [digit_sub, Nat.mod_mod]
      exact Nat.div_add_mod n 10

theorem value_decimal (n : Nat) : Digits.valueFrom 0 (decimal n) = n := by
  unfold decimal
  split_ifs with hzero
  · rw [hzero]
    rfl
  · exact value_digits n

theorem decimal_digits (n : Nat) : ∀ b ∈ decimal n, isDigit b = true := by
  intro b hb
  unfold decimal at hb
  split_ifs at hb
  · rw [List.mem_singleton.mp hb]
    rfl
  · obtain ⟨k, _, rfl⟩ := List.mem_map.mp hb
    exact isDigit_digit k

theorem decimal_ne_nil (n : Nat) : decimal n ≠ [] := by
  unfold decimal
  split_ifs with hzero
  · exact List.cons_ne_nil _ _
  · rw [ne_eq, List.map_eq_nil_iff, List.reverse_eq_nil_iff]
    exact Nat.digits_ne_nil_iff_ne_zero.mpr hzero

/-- An integer in decimal, as digits of a numeral. -/
def decimalDigits (n : Nat) : Digits := ⟨decimal n, decimal_digits n, decimal_ne_nil n⟩

/-- A zero. -/
def zeroDigits : Digits := ⟨[0x30], List.forall_mem_singleton.mpr rfl, List.cons_ne_nil _ _⟩

end Decimals

section Reals

/-- Bytes that are digits, of whatever number. -/
def AllDigits (l : JsonText.Bytes) : Prop := ∀ b ∈ l, isDigit b = true

theorem AllDigits.of_sublist {l m : JsonText.Bytes} (h : AllDigits m) (hsub : l.Sublist m) : AllDigits l :=
  fun b hb => h b (hsub.subset hb)

theorem allDigits_four (d : Nat) : AllDigits (fourDigits d) := by
  intro b hb
  simp only [fourDigits, List.mem_cons, List.not_mem_nil, or_false] at hb
  rcases hb with rfl | rfl | rfl | rfl <;> exact isDigit_digit _

/-- A point is written in front of digits, or not at all. -/
theorem point_fraction {l : JsonText.Bytes} (h : AllDigits l) :
    ∃ f : Option Digits, point l = Numeral.renderFraction f := by
  unfold point
  dsimp only
  split_ifs with hnone
  · exact ⟨none, rfl⟩
  · exact ⟨some ⟨_, h.of_sublist (List.rdropWhile_prefix _ l).sublist, hnone⟩, rfl⟩

theorem twoDigits_digits (n : Nat) : AllDigits (twoDigits n) ∧ twoDigits n ≠ [] := by
  unfold twoDigits
  split_ifs
  · refine ⟨fun b hb => ?_, List.cons_ne_nil _ _⟩
    rcases List.mem_cons.mp hb with rfl | hb
    · rfl
    · exact decimal_digits n b hb
  · exact ⟨decimal_digits n, decimal_ne_nil n⟩

/-- The text of a positive number is that of a numeral without a sign. -/
theorem general_numeral (q : ℚ) : ∃ (whole : Digits) (f : Option Digits) (e : Option Exponent),
    general q = whole.bytes ++ (Numeral.renderFraction f ++ Numeral.renderExponent e) := by
  unfold general
  obtain ⟨x, d⟩ := significant q
  have hfour := allDigits_four d
  have hwhole (k : Nat) : AllDigits ((fourDigits d).take (k + 1)) :=
    hfour.of_sublist (List.take_sublist _ _)
  have hsome (k : Nat) : (fourDigits d).take (k + 1) ≠ [] := List.cons_ne_nil _ _
  dsimp only
  by_cases hnear : -4 ≤ x ∧ x < 4
  · rw [if_pos hnear]
    by_cases hlarge : 0 ≤ x
    · obtain ⟨f, hf⟩ := point_fraction (hfour.of_sublist (List.drop_sublist (x.toNat + 1) _))
      refine ⟨⟨_, hwhole x.toNat, hsome x.toNat⟩, f, none, ?_⟩
      rw [if_pos hlarge, hf, Numeral.renderExponent, List.append_nil]
    · have hzeros : AllDigits (List.replicate (-x - 1).toNat 0x30 ++ fourDigits d) := by
        intro b hb
        rcases List.mem_append.mp hb with hb | hb
        · rw [List.eq_of_mem_replicate hb]
          rfl
        · exact hfour b hb
      obtain ⟨f, hf⟩ := point_fraction hzeros
      refine ⟨zeroDigits, f, none, ?_⟩
      rw [if_neg hlarge, hf, Numeral.renderExponent, List.append_nil]
      rfl
  · obtain ⟨f, hf⟩ := point_fraction (hfour.of_sublist (List.drop_sublist 1 _))
    obtain ⟨hdigits, hexponent⟩ := twoDigits_digits x.natAbs
    refine ⟨⟨_, hwhole 0, hsome 0⟩, f,
      some ⟨false, some (decide (x < 0)), ⟨_, hdigits, hexponent⟩⟩, ?_⟩
    rw [if_neg hnear, hf, List.append_assoc]
    by_cases hsmall : x < 0
    · rw [if_pos hsmall, decide_eq_true hsmall]
      rfl
    · rw [if_neg hsmall, decide_eq_false hsmall]
      rfl

/-- A finite double is written as a numeral. -/
theorem formatReal_numeral {x : Float} (h : x.isFinite = true) :
    ∃ n : Numeral, formatReal x = n.render := by
  have hunpack : x.toModel.unpack.isFinite = true := h
  have hminus (s : Float.Model.UnpackedFloat.Sign) :
      minus s = if s == .negative then [0x2D] else [] := by cases s <;> rfl
  unfold formatReal
  split
  · rename_i hnan
    rw [hnan] at hunpack
    exact absurd hunpack Bool.false_ne_true
  · rename_i s hinf
    rw [hinf] at hunpack
    exact absurd hunpack Bool.false_ne_true
  · rename_i s _
    refine ⟨⟨s == .negative, zeroDigits, none, none⟩, ?_⟩
    rw [hminus]
    simp only [Numeral.render, Numeral.renderFraction, Numeral.renderExponent, List.append_nil]
    rfl
  · rename_i s m e _ _
    obtain ⟨whole, f, power, htext⟩ := general_numeral (m * 2 ^ e)
    refine ⟨⟨s == .negative, whole, f, power⟩, ?_⟩
    rw [hminus, htext]
    simp only [Numeral.render, List.append_assoc]

end Reals

section Texts

def Scalar.Finite : Scalar → Prop
  | .real x => x.isFinite = true
  | _ => True

/-- What a scalar is read as. -/
def Scalar.value : Scalar → Value
  | .count n => .number (Doubles.nearest n)
  | .real x => .number (Json.strtod (formatReal x))
  | .flag b => .bool b

/-- A scalar is written as a value of the grammar. -/
theorem scalar_tree {x : Scalar} (h : x.Finite) : ∃ t : Tree .value,
    t.render = x.text ∧ t.read Json.Decimal.toDouble = some x.value := by
  cases x with
  | count n =>
    refine ⟨Json.ofDigits (decimalDigits n), Json.ofDigits_render _, ?_⟩
    have hdecimal : Numeral.decimal ⟨false, decimalDigits n, none, none⟩ = ⟨false, n, 0⟩ := by
      simp only [Numeral.decimal, Numeral.fractionBytes, decimalDigits, Option.elim_none,
        List.append_nil, value_decimal]
      rfl
    rw [Json.ofDigits, Tree.read, hdecimal]
    rfl
  | real x =>
    obtain ⟨n, hn⟩ := formatReal_numeral h
    refine ⟨.number n, hn.symm, ?_⟩
    rw [Tree.read, Scalar.value, hn, Json.strtod, Json.scan_render]
  | flag b => exact ⟨.bool b, by cases b <;> rfl, rfl⟩

/-- Characters that need no escape stand for themselves. -/
theorem raw_string {l : JsonText.Bytes} (h : ∀ b ∈ l, isUnescaped b = true) :
    ∃ ps, Piece.renderAll ps = l ++ [0x22] ∧ Piece.decode ps = some l := by
  induction l with
  | nil => exact ⟨[], rfl, rfl⟩
  | cons b l ih =>
    obtain ⟨ps, hrender, hdecode⟩ := ih fun c hc => h c (List.mem_cons_of_mem _ hc)
    refine ⟨.raw b (h b List.mem_cons_self) :: ps, ?_, ?_⟩
    · rw [Json.renderAll_cons, hrender]
      rfl
    · rw [Piece.decode, hdecode]
      rfl

/-- A member with a key that needs no escape. -/
def Writable (m : String × Scalar) : Prop :=
  m.2.Finite ∧ ∀ b ∈ ascii m.1, isUnescaped b = true

/-- What a member is read as. -/
def meaning (m : String × Scalar) : JsonText.Bytes × Value := (ascii m.1, m.2.value)

theorem member_text (m : String × Scalar) {ps : List Piece} {t : Tree .value}
    (hkey : Piece.renderAll ps = ascii m.1 ++ [0x22]) (ht : t.render = m.2.text) :
    Tree.renderKey ⟨[], nofun⟩ ps (⟨[], nofun⟩, ⟨[], nofun⟩) ++ t.render = member m := by
  rw [Tree.renderKey, hkey, ht, member]
  simp only [List.append_assoc, List.cons_append, List.nil_append]

/-- Members with commas between them are the inside of an object, by induction on them. -/
theorem separated_tree {l : List (String × Scalar)} (hsome : l ≠ []) (h : ∀ m ∈ l, Writable m) :
    ∃ t : Tree .members, t.render = separated l ++ [0x7D] ∧
      t.read Json.Decimal.toDouble = some (l.map meaning) := by
  induction l with
  | nil => exact absurd rfl hsome
  | cons m l ih =>
    obtain ⟨hfinite, hplain⟩ := h m List.mem_cons_self
    obtain ⟨ps, hkey, hdecode⟩ := raw_string hplain
    obtain ⟨v, hv, hread⟩ := scalar_tree hfinite
    have htext := member_text m hkey hv
    cases l with
    | nil =>
      refine ⟨.lastMember ⟨[], nofun⟩ ps (⟨[], nofun⟩, ⟨[], nofun⟩) v ⟨[], nofun⟩, ?_, ?_⟩
      · rw [Tree.render, htext, List.append_nil]
        rfl
      · rw [Tree.read, hdecode, hread]
        rfl
    | cons m' l =>
      obtain ⟨t, ht, htread⟩ := ih (List.cons_ne_nil _ _) fun n hn => h n (List.mem_cons_of_mem _ hn)
      refine ⟨.consMember ⟨[], nofun⟩ ps (⟨[], nofun⟩, ⟨[], nofun⟩) v ⟨[], nofun⟩ t, ?_, ?_⟩
      · have hcons : separated (m :: m' :: l) = member m ++ 0x2C :: separated (m' :: l) := rfl
        rw [Tree.render, htext, List.append_nil, ht, hcons, List.append_assoc]
        rfl
      · rw [Tree.read, hdecode, hread, htread]
        rfl

end Texts

section Records

variable (s : ServerStatus)

/-- A record whose doubles are finite. -/
structure ServerStatus.Finite : Prop where
  simP99Ms : s.simP99Ms.isFinite = true
  encodeP99Ms : s.encodeP99Ms.isFinite = true
  dilation : s.dilation.isFinite = true

/-- What the parser makes of the text of a record. -/
def root : Value := .object ((members s).map meaning)

/-- The keys of a record, which do not depend on it. -/
theorem keys_eq : (members s).map Prod.fst = (members {}).map Prod.fst := rfl

theorem keys_plain : ∀ k ∈ (members s).map Prod.fst, ∀ b ∈ ascii k, isUnescaped b = true := by
  have h : ((members {}).map Prod.fst).all (fun k => (ascii k).all isUnescaped) = true := by
    decide +kernel
  intro k hk
  exact List.all_eq_true.mp (List.all_eq_true.mp h k (keys_eq s ▸ hk))

theorem keys_nodup : ((members s).map fun m => ascii m.1).Nodup := by
  have h : (((members {}).map Prod.fst).map ascii).Nodup := by decide +kernel
  rwa [← keys_eq s, List.map_map] at h

variable {s} {k : String}

theorem members_writable (h : s.Finite) : ∀ m ∈ members s, Writable m := by
  intro m hm
  refine ⟨?_, keys_plain s m.1 (List.mem_map_of_mem hm)⟩
  simp only [members, List.mem_cons, List.not_mem_nil, or_false] at hm
  rcases hm with rfl | rfl | rfl | rfl | rfl | rfl | rfl | rfl | rfl | rfl | rfl | rfl | rfl | rfl |
    rfl | rfl | rfl | rfl
  case inr.inr.inr.inr.inr.inr.inr.inl => exact h.simP99Ms
  case inr.inr.inr.inr.inr.inr.inr.inr.inl => exact h.encodeP99Ms
  case inr.inr.inr.inr.inr.inr.inr.inr.inr.inl => exact h.dilation
  all_goals exact trivial

/-- The text of a record is accepted. -/
theorem parse_encode (h : s.Finite) : Json.parse (encodeStatusJson s) = some (.ok (root s)) := by
  obtain ⟨t, ht, hread⟩ := separated_tree (List.cons_ne_nil _ _) (members_writable h)
  have hparse : Json.Parser.parse (encodeStatusJson s) = .ok (root s) := by
    refine Json.parser_parse_iff.mpr ⟨Json.bare (.object t), ?_, ?_⟩
    · rw [Json.bare_render, Tree.render, ht]
      rfl
    · show Tree.read _ (Tree.object t) = _
      rw [Tree.read, hread]
      rfl
  rw [Json.parse, hparse]

/-- A typed read finds its own member. -/
theorem find_root {x : Scalar} (h : (k, x) ∈ members s) :
    Json.find (root s) (ascii k) = some x.value := by
  apply Assoc.lookup_of_mem
  · rw [List.map_map]
    exact keys_nodup s
  · exact List.mem_map.mpr ⟨(k, x), h, rfl⟩

theorem cast_lt {bits n : Nat} {x : Float} (h : Json.castUnsigned bits x = some n) :
    n < 2 ^ bits := by
  obtain ⟨i, _, h⟩ := Option.bind_eq_some_iff.mp h
  split_ifs at h with hrange
  have hn := Option.some.inj h
  have : (n : Int) < 2 ^ bits := by
    rw [← hn, Int.toNat_of_nonneg hrange.1]
    exact hrange.2
  exact_mod_cast this

/-- An integer comes back as itself exactly if a double holds it. -/
theorem cast_nearest {bits n : Nat} (hbits : bits ≤ 64) (hn : n < 2 ^ bits) :
    Json.castUnsigned bits (Doubles.nearest n) = some n ↔ Doubles.Exact n := by
  have hlog : n.log2 < 1023 := by
    rcases Nat.eq_zero_or_pos n with rfl | hpos
    · decide
    · exact Nat.lt_of_lt_of_le ((Nat.log2_lt hpos.ne').mpr hn) (by omega)
  rw [← Doubles.truncated_nearest hlog, Json.castUnsigned]
  constructor
  · intro h
    obtain ⟨i, htruncated, h⟩ := Option.bind_eq_some_iff.mp h
    split_ifs at h with hrange
    rw [htruncated, ← Option.some.inj h, Int.toNat_of_nonneg hrange.1]
  · intro h
    have hrange : 0 ≤ (n : Int) ∧ (n : Int) < 2 ^ bits :=
      ⟨Int.natCast_nonneg n, by exact_mod_cast hn⟩
    rw [h, Option.bind_some, if_pos hrange, Int.toNat_natCast]

/-- Thirty-two bits always come back. -/
theorem getUint32_root {n : Nat} (h : (k, .count n) ∈ members s) (hn : n < 2 ^ 32)
    (fallback : UInt32) :
    Json.getUint32 (root s) (ascii k) fallback = some (UInt32.ofNat n) := by
  have hcast := (cast_nearest (by decide) hn).mpr (Doubles.exact_of_lt (by omega))
  simp only [Json.getUint32, find_root h, Scalar.value, hcast, Option.map_some]

/-- Sixty-four bits come back exactly if a double holds them. -/
theorem getUint64_root {n : UInt64} (h : (k, .count n.toNat) ∈ members s)
    (fallback : UInt64) :
    Json.getUint64 (root s) (ascii k) fallback = some n ↔ Doubles.Exact n.toNat := by
  rw [← cast_nearest (le_refl 64) n.toNat_lt]
  simp only [Json.getUint64, find_root h, Scalar.value]
  constructor
  · intro hread
    obtain ⟨m, hcast, rfl⟩ := Option.map_eq_some_iff.mp hread
    rw [UInt64.toNat_ofNat_of_lt' (cast_lt hcast)] at hcast ⊢
    exact hcast
  · intro hcast
    rw [hcast, Option.map_some, UInt64.ofNat_toNat]

theorem getBool_root {b : Bool} (h : (k, .flag b) ∈ members s) (fallback : Bool) :
    Json.getBool (root s) (ascii k) fallback = b := by
  simp only [Json.getBool, find_root h, Scalar.value]

/-- A record without its doubles. -/
def ServerStatus.counts (s : ServerStatus) : ServerStatus :=
  { s with simP99Ms := 0, encodeP99Ms := 0, dilation := 0 }

variable (s) in
/-- A record whose wide integers are all held by doubles. -/
structure Held : Prop where
  uptimeSeconds : Doubles.Exact s.uptimeSeconds.toNat
  simTick : Doubles.Exact s.simTick.toNat
  objectsSpawned : Doubles.Exact s.objectsSpawned.toNat
  projectiles : Doubles.Exact s.projectiles.toNat
  downstreamBytes : Doubles.Exact s.downstreamBytes.toNat
  upstreamBytes : Doubles.Exact s.upstreamBytes.toNat
  datagramsIn : Doubles.Exact s.datagramsIn.toNat
  datagramsOut : Doubles.Exact s.datagramsOut.toNat
  baselineBytes : Doubles.Exact s.baselineBytes.toNat

variable (s) in
/-- Where the members stand in a record. -/
theorem mem_members {i : Nat} {m : String × Scalar} (h : (members s)[i]? = some m) :
    m ∈ members s := List.mem_of_getElem? h

theorem narrow_version (v : UInt8) : (UInt32.ofNat v.toNat).toUInt8 = v := by
  have hv := v.toNat_lt
  rw [← UInt8.toNat_inj, UInt32.toNat_toUInt8, UInt32.toNat_ofNat_of_lt' (Nat.lt_trans hv (by decide)),
    Nat.mod_eq_of_lt hv]

theorem narrow_port (v : UInt16) : (UInt32.ofNat v.toNat).toUInt16 = v := by
  have hv := v.toNat_lt
  rw [← UInt16.toNat_inj, UInt32.toNat_toUInt16,
    UInt32.toNat_ofNat_of_lt' (Nat.lt_trans hv (by decide)), Nat.mod_eq_of_lt hv]

/-- A record whose wide integers are held is read back, doubles apart. -/
theorem readStatus_held (h : Held s) : ∃ t, readStatus (root s) = some t ∧ t.counts = s.counts := by
  have hversion := getUint32_root (mem_members s (i := 0) rfl)
    (Nat.lt_trans s.protocolVersion.toNat_lt (by decide)) STATUS_PROTOCOL_VERSION.toUInt32
  have huptime := (getUint64_root (mem_members s (i := 1) rfl) 0).mpr h.uptimeSeconds
  have htick := (getUint64_root (mem_members s (i := 2) rfl) 0).mpr h.simTick
  have hpending := getUint32_root (mem_members s (i := 3) rfl) s.connectionsPending.toNat_lt 0
  have hactive := getUint32_root (mem_members s (i := 4) rfl) s.connectionsActive.toNat_lt 0
  have hspawned := (getUint64_root (mem_members s (i := 5) rfl) 0).mpr h.objectsSpawned
  have hprojectiles := (getUint64_root (mem_members s (i := 6) rfl) 0).mpr h.projectiles
  have hdown := (getUint64_root (mem_members s (i := 10) rfl) 0).mpr h.downstreamBytes
  have hup := (getUint64_root (mem_members s (i := 11) rfl) 0).mpr h.upstreamBytes
  have hin := (getUint64_root (mem_members s (i := 12) rfl) 0).mpr h.datagramsIn
  have hout := (getUint64_root (mem_members s (i := 13) rfl) 0).mpr h.datagramsOut
  have hbaseline := (getUint64_root (mem_members s (i := 14) rfl) 0).mpr h.baselineBytes
  have hport := getUint32_root (mem_members s (i := 15) rfl)
    (Nat.lt_trans s.listenPort.toNat_lt (by decide)) 0
  have hdev := getBool_root (mem_members s (i := 16) rfl) false
  have hpersistence := getBool_root (mem_members s (i := 17) rfl) false
  simp only [readStatus, hversion, huptime, htick, hpending, hactive, hspawned, hprojectiles,
    hdown, hup, hin, hout, hbaseline, hport, hdev, hpersistence, Option.bind_eq_bind,
    Option.bind_some]
  refine ⟨_, rfl, ?_⟩
  simp only [ServerStatus.counts, UInt32.ofNat_toNat, narrow_version, narrow_port]

/-- What is read back is held. -/
theorem held_of_read {t : ServerStatus} (h : readStatus (root s) = some t)
    (hcounts : t.counts = s.counts) : Held s := by
  unfold readStatus at h
  obtain ⟨_, _, h⟩ := Option.bind_eq_some_iff.mp h
  obtain ⟨uptime, huptime, h⟩ := Option.bind_eq_some_iff.mp h
  obtain ⟨tick, htick, h⟩ := Option.bind_eq_some_iff.mp h
  obtain ⟨_, _, h⟩ := Option.bind_eq_some_iff.mp h
  obtain ⟨_, _, h⟩ := Option.bind_eq_some_iff.mp h
  obtain ⟨spawned, hspawned, h⟩ := Option.bind_eq_some_iff.mp h
  obtain ⟨projectiles, hprojectiles, h⟩ := Option.bind_eq_some_iff.mp h
  obtain ⟨down, hdown, h⟩ := Option.bind_eq_some_iff.mp h
  obtain ⟨up, hup, h⟩ := Option.bind_eq_some_iff.mp h
  obtain ⟨dgramsIn, hin, h⟩ := Option.bind_eq_some_iff.mp h
  obtain ⟨out, hout, h⟩ := Option.bind_eq_some_iff.mp h
  obtain ⟨baseline, hbaseline, h⟩ := Option.bind_eq_some_iff.mp h
  obtain ⟨_, _, h⟩ := Option.bind_eq_some_iff.mp h
  rw [← Option.some.inj h] at hcounts
  simp only [ServerStatus.counts, ServerStatus.mk.injEq] at hcounts
  obtain ⟨_, rfl, rfl, _, _, rfl, rfl, _, _, _, rfl, rfl, rfl, rfl, rfl, _⟩ := hcounts
  exact ⟨(getUint64_root (mem_members s (i := 1) rfl) 0).mp huptime,
    (getUint64_root (mem_members s (i := 2) rfl) 0).mp htick,
    (getUint64_root (mem_members s (i := 5) rfl) 0).mp hspawned,
    (getUint64_root (mem_members s (i := 6) rfl) 0).mp hprojectiles,
    (getUint64_root (mem_members s (i := 10) rfl) 0).mp hdown,
    (getUint64_root (mem_members s (i := 11) rfl) 0).mp hup,
    (getUint64_root (mem_members s (i := 12) rfl) 0).mp hin,
    (getUint64_root (mem_members s (i := 13) rfl) 0).mp hout,
    (getUint64_root (mem_members s (i := 14) rfl) 0).mp hbaseline⟩

theorem parseStatusJson_encode (h : s.Finite) :
    parseStatusJson (encodeStatusJson s) = (readStatus (root s)).map some := by
  rw [parseStatusJson, parse_encode h]
  rfl

/-- The text of a record is accepted and gives its integers and flags back exactly if every
    wide integer is held by a double. -/
theorem counts_restored_iff (h : s.Finite) :
    (∃ t, parseStatusJson (encodeStatusJson s) = some (some t) ∧ t.counts = s.counts) ↔
      Held s := by
  rw [parseStatusJson_encode h]
  constructor
  · rintro ⟨t, ht, hcounts⟩
    obtain ⟨t', hread, ht'⟩ := Option.map_eq_some_iff.mp ht
    rw [Option.some.inj ht'] at hread
    exact held_of_read hread hcounts
  · intro hheld
    obtain ⟨t, hread, hcounts⟩ := readStatus_held hheld
    exact ⟨t, by rw [hread]; rfl, hcounts⟩

/-- A server at tick `n`. -/
def atTick (n : UInt64) : ServerStatus := { simTick := n }

theorem atTick_finite (n : UInt64) : (atTick n).Finite := by
  constructor <;> (simp only [atTick]; decide +kernel)

/-- A tick that is held comes back. -/
theorem tick_restored : ∃ t, parseStatusJson (encodeStatusJson (atTick 9007199254740992)) =
    some (some t) ∧ t.counts = (atTick 9007199254740992).counts :=
  (counts_restored_iff (atTick_finite 9007199254740992)).mpr
    ⟨by decide, by decide, by decide, by decide, by decide, by decide, by decide, by decide,
      by decide⟩

/-- The first tick that no double holds does not come back. -/
theorem tick_lost : (atTick 9007199254740993).Finite ∧
    ¬ ∃ t, parseStatusJson (encodeStatusJson (atTick 9007199254740993)) = some (some t) ∧
      t.counts = (atTick 9007199254740993).counts := by
  refine ⟨atTick_finite _, ?_⟩
  rintro ⟨t, ht, hcounts⟩
  rw [parseStatusJson_encode (atTick_finite _)] at ht
  obtain ⟨t', hread, ht'⟩ := Option.map_eq_some_iff.mp ht
  rw [Option.some.inj ht'] at hread
  exact absurd (held_of_read hread hcounts).simTick (by decide)

end Records

end Net

end EarthRise
