import Mathlib.Data.Nat.Basic
import Mathlib.Tactic.Ring

/-!
# Natural Numbers as Doubles

Which natural numbers a double holds.

A double has fifty-three bits, so a number with more has to end in zeros to be held: as
many as it has bits too many. The nearest double to a number is a multiple of that power of
two in any case, so a number that is not one does not come back when the double is cut off
to a whole number.

Rounding is that of the format: the number is shifted to fifty-three bits, rounded by what
was shifted out, and shifted once more if that was one bit too many. Nothing here depends
on which way a number is rounded.

## Main definitions

* `Exact`: A number that a double holds.
* `truncated`: The whole part of a double.

## Theorems

* `unpack_pack`: Packing and unpacking a normal double.
* `ofScientific_shape`: The double nearest to a number.
* `truncated_nearest`: What comes back of it.
-/

namespace EarthRise

namespace Doubles

open Float.Model
open Float.Model.UnpackedFloat

/-- A number whose bits from the fifty-fourth on are zero. -/
def Exact (n : Nat) : Prop := 2 ^ (n.log2 - 52) ∣ n

instance (n : Nat) : Decidable (Exact n) := inferInstanceAs (Decidable (_ ∣ _))

/-- Numbers of fifty-three bits are held. -/
theorem exact_of_lt {n : Nat} (h : n < 2 ^ 53) : Exact n := by
  rcases Nat.eq_zero_or_pos n with rfl | hpos
  · exact Nat.dvd_zero _
  · have hlog := (Nat.log2_lt hpos.ne').mpr h
    rw [Exact, Nat.sub_eq_zero_of_le (Nat.le_of_lt_succ hlog)]
    exact Nat.one_dvd n

/-- The nearest double to a number. -/
def nearest (n : Nat) : Float := .ofModel (.ofScientific n 0)

/-- The whole part of a double, if it is finite. -/
def truncated (x : Float) : Option Int :=
  match x.toModel.unpack with
  | .finite s m e _ =>
    some (s.apply ((if 0 ≤ e then m * 2 ^ e.toNat else m / 2 ^ (-e).toNat : Nat) : Int))
  | .zero _ => some 0
  | _ => none

section Shifts

theorem shift_succ (em : ExtendedMantissa) (k : Nat) :
    em >>> (k + 1) = (em >>> k).shiftRightOne := rfl

/-- A shift divides. -/
theorem mantissa_shift (em : ExtendedMantissa) (k : Nat) :
    (em >>> k).mantissa = em.mantissa / 2 ^ k := by
  induction k with
  | zero => exact (Nat.div_one _).symm
  | succ k ih =>
    rw [shift_succ, pow_succ, ← Nat.div_div_eq_div_mul, ← ih]
    rfl

/-- Where only zeros are shifted out, nothing is left to round. -/
theorem shift_zeros {m k : Nat} (h : 2 ^ k ∣ m) :
    (⟨m, false, false⟩ : ExtendedMantissa) >>> k = ⟨m / 2 ^ k, false, false⟩ := by
  induction k with
  | zero =>
    rw [pow_zero, Nat.div_one]
    rfl
  | succ k ih =>
    have heven : m / 2 ^ k % 2 = 0 := by
      obtain ⟨c, rfl⟩ := h
      rw [pow_succ, Nat.mul_assoc, Nat.mul_div_cancel_left _ (Nat.two_pow_pos k)]
      exact Nat.mul_mod_right 2 c
    rw [shift_succ, ih (Nat.dvd_trans (Nat.pow_dvd_pow 2 (Nat.le_succ k)) h),
      ExtendedMantissa.shiftRightOne, heven, Nat.div_div_eq_div_mul, ← pow_succ]
    rfl

/-- Rounding adds one at most. -/
theorem rounded_cases (em : ExtendedMantissa) :
    em.roundedMantissa = em.mantissa ∨ em.roundedMantissa = em.mantissa + 1 := by
  obtain ⟨m, round, sticky⟩ := em
  cases round <;> cases sticky
  · exact .inl rfl
  · exact .inl rfl
  · show m + m % 2 = m ∨ m + m % 2 = m + 1
    omega
  · exact .inr rfl

theorem rounded_zeros (m : Nat) : (⟨m, false, false⟩ : ExtendedMantissa).roundedMantissa = m := rfl

/-- The exponent a number of this size has in the format. -/
theorem target (t : Int) : Format.binary64.targetExponent t = max (t - 53) (-1074) := rfl

/-- A shift to the exponent of the format, by as many bits as it takes. -/
theorem shiftToTarget {m k : Nat} {e : Int}
    (hk : Format.binary64.targetExponent (totalExponent m e) = e + k) :
    shiftToTargetExponent .binary64 m e .exact =
      ((⟨m, false, false⟩ : ExtendedMantissa) >>> k, e + k) := by
  have hcount : (e + (k : Int) - e).toNat = k := by omega
  simp only [shiftToTargetExponent, shiftToExponent, hk, hcount]
  rfl

end Shifts

section Packing

theorem unpackSign_pack {spec : Format} (s : Sign) (e : BitVec spec.exponentBits)
    (m : BitVec spec.mantissaBitsWithoutImplicit) :
    Sign.ofBitVec (unpackSign (packComponents spec s e m)) = s := by
  have hbits : unpackSign (packComponents spec s e m) = s.toBitVec := by
    ext i hi
    obtain rfl : i = 0 := by omega
    delta unpackSign
    simp [packComponents, BitVec.getLsbD_append, BitVec.getElem_append]
  rw [hbits]
  cases s <;> rfl

/-- The bit that is left out in a normal double. -/
theorem implicit_bit {m : Nat} (hm : m.log2 = 52) : (1#1 ++ BitVec.ofNat 52 m).toNat = m := by
  have hpos : m ≠ 0 := fun h => absurd hm (by rw [h]; decide)
  have hlow := Nat.log2_self_le hpos
  have hhigh := Nat.lt_log2_self (n := m)
  rw [hm] at hlow hhigh
  have hrest : (BitVec.ofNat 52 m).toNat = m - 2 ^ 52 := by
    rw [BitVec.toNat_ofNat, Nat.mod_eq_sub_mod hlow, Nat.mod_eq_of_lt (by omega)]
  rw [BitVec.toNat_append, hrest, ← Nat.shiftLeft_add_eq_or_of_lt (by omega)]
  show 1 <<< 52 + (m - 2 ^ 52) = m
  rw [Nat.shiftLeft_eq]
  omega

theorem finite_congr {s s' : Sign} {m m' : Nat} {e e' : Int} {h : 0 < m} {h' : 0 < m'}
    (hs : s = s') (hm : m = m') (he : e = e') : finite s m e h = finite s' m' e' h' := by
  subst hs hm he
  rfl

/-- A normal double is unpacked to what was packed. -/
theorem unpack_pack (s : Sign) {m : Nat} {e : Int} (hpos : 0 < m) (hm : m.log2 = 52)
    (hlow : -1074 ≤ e) (hhigh : e ≤ 971) :
    UnpackedFloat.unpack .binary64 (UnpackedFloat.pack .binary64 (.finite s m e hpos)) =
      .finite s m e hpos := by
  obtain ⟨b, hb⟩ : ∃ b : Nat, (b : Int) = e + 1075 := ⟨(e + 1075).toNat, by omega⟩
  have hbiased : (e + (Format.binary64.exponentBias : Int) + (52 : Nat)).toNat = b := by
    show (e + 1023 + 52).toNat = b
    omega
  have hexponent : (BitVec.ofNat 11 b).toNat = b := by
    rw [BitVec.toNat_ofNat, Nat.mod_eq_of_lt (by omega)]
  have hones : BitVec.ofNat 11 b ≠ -1#11 := fun h => by
    have := congrArg BitVec.toNat h
    rw [hexponent] at this
    change b = 2047 at this
    omega
  have hzero : BitVec.ofNat 11 b ≠ 0#11 := fun h => by
    have := congrArg BitVec.toNat h
    rw [hexponent] at this
    change b = 0 at this
    omega
  have hpack : UnpackedFloat.pack .binary64 (.finite s m e hpos) =
      packComponents .binary64 s (BitVec.ofNat 11 b) (BitVec.ofNat 52 m) := by
    have hsmall : ¬ 2 ^ Format.binary64.exponentBits ≤ b + 1 := by
      change ¬ 2048 ≤ b + 1
      omega
    rw [← hbiased] at hsmall ⊢
    exact (if_neg hsmall).trans (if_pos (congrArg (· + 1) hm))
  -- What is unpacked is what was put together.
  have hexp : unpackExponent (packComponents .binary64 s (BitVec.ofNat 11 b) (BitVec.ofNat 52 m)) =
      BitVec.ofNat 11 b := unpackExponent_packComponents
  have hman : unpackMantissa (packComponents .binary64 s (BitVec.ofNat 11 b) (BitVec.ofNat 52 m)) =
      BitVec.ofNat 52 m := unpackMantissa_packComponents
  rw [hpack]
  delta UnpackedFloat.unpack
  refine (if_neg (by rw [hexp]; exact hones)).trans ?_
  refine (if_neg (by rw [hexp]; exact hzero)).trans ?_
  refine finite_congr (unpackSign_pack s _ _) ?_ ?_
  · rw [hman]
    exact implicit_bit hm
  · rw [hexp, hexponent]
    show (b : Int) - (1023 + 52) = e
    omega

end Packing

section Nearest

variable {e : Int}

/-- Fifty-three bits stay as they are. -/
theorem second_shift {r : Nat} (hr : r.log2 = 52) (he : -1074 ≤ e) :
    shiftToTargetExponent .binary64 r e .exact = (⟨r, false, false⟩, e) := by
  have hk : Format.binary64.targetExponent (totalExponent r e) = e + (0 : Nat) := by
    rw [target, totalExponent, hr]
    omega
  rw [shiftToTarget hk]
  exact Prod.ext rfl (Int.add_zero e)

/-- One bit too many is shifted out, and it is a zero. -/
theorem second_shift_carry (he : -1074 ≤ e) :
    shiftToTargetExponent .binary64 (2 ^ 53) e .exact = (⟨2 ^ 52, false, false⟩, e + 1) := by
  have hk : Format.binary64.targetExponent (totalExponent (2 ^ 53) e) = e + (1 : Nat) := by
    rw [target, totalExponent, Nat.log2_two_pow]
    omega
  rw [shiftToTarget hk, shift_zeros (Nat.pow_dvd_pow 2 (by decide))]
  rfl

/-- What is made of a mantissa that has its last shift behind it. -/
def rounded (s : Sign) (q : ExtendedMantissa × Int) : UnpackedFloat :=
  if h : q.1.mantissa = 0 then .zero s else .finite s q.1.mantissa q.2 (Nat.pos_of_ne_zero h)

/-- Shifted, rounded, and shifted once more. -/
theorem round_eq (spec : Format) (s : Sign) (M : Nat) (e : Int) :
    roundWithAccuracy spec s M e .exact =
      rounded s (shiftToTargetExponent spec (shiftToTargetExponent spec M e .exact).1.roundedMantissa
        (shiftToTargetExponent spec M e .exact).2 .exact) := rfl

/-- Rounding gives fifty-three bits, at the exponent that was aimed at or the next. -/
theorem round_shape {s : Sign} {M k : Nat}
    (hk : Format.binary64.targetExponent (totalExponent M e) = e + k) (he : -1074 ≤ e + k)
    (hlow : 2 ^ 52 ≤ M / 2 ^ k) (hhigh : M / 2 ^ k < 2 ^ 53) :
    ∃ (r : Nat) (e' : Int) (hr : 0 < r),
      roundWithAccuracy .binary64 s M e .exact = .finite s r e' hr ∧ r.log2 = 52 ∧
        e + k ≤ e' ∧ e' ≤ e + k + 1 ∧ (2 ^ k ∣ M → r = M / 2 ^ k ∧ e' = e + k) := by
  have hfirst := shiftToTarget hk
  obtain ⟨em, hem⟩ : ∃ em, (⟨M, false, false⟩ : ExtendedMantissa) >>> k = em := ⟨_, rfl⟩
  have hmantissa : em.mantissa = M / 2 ^ k := by rw [← hem, mantissa_shift]
  have hzeros : 2 ^ k ∣ M → em.roundedMantissa = M / 2 ^ k := by
    intro h
    rw [← hem, shift_zeros h, rounded_zeros]
  have hcases := rounded_cases em
  rw [hmantissa] at hcases
  rw [hem] at hfirst
  by_cases hcarry : em.roundedMantissa = 2 ^ 53
  · -- A carry out of the fifty-three bits: the bits were not zeros that were shifted out.
    refine ⟨2 ^ 52, e + k + 1, by decide, ?_, Nat.log2_two_pow, by omega, le_refl _, fun h => ?_⟩
    · rw [round_eq, hfirst]
      show rounded s (shiftToTargetExponent .binary64 em.roundedMantissa (e + k) .exact) = _
      rw [hcarry, second_shift_carry he]
      rfl
    · exact absurd (hzeros h) (by omega)
  · have hlog : em.roundedMantissa.log2 = 52 :=
      (Nat.log2_eq_iff (by omega)).mpr ⟨by omega, by omega⟩
    have hpos : em.roundedMantissa ≠ 0 := by omega
    refine ⟨em.roundedMantissa, e + k, Nat.pos_of_ne_zero hpos, ?_, hlog, le_refl _, by omega,
      fun h => ⟨hzeros h, rfl⟩⟩
    rw [round_eq, hfirst]
    show rounded s (shiftToTargetExponent .binary64 em.roundedMantissa (e + k) .exact) = _
    rw [second_shift hlog he]
    exact dif_neg hpos

variable {n : Nat}

/-- The double nearest to a number, before it is packed. -/
theorem ofScientific_shape (hn : 0 < n) :
    ∃ (r : Nat) (e : Int) (hr : 0 < r),
      UnpackedFloat.ofScientific .binary64 n 0 = .finite .positive r e hr ∧ r.log2 = 52 ∧
        (n.log2 : Int) - 52 ≤ e ∧ e ≤ n.log2 - 51 ∧
        (2 ^ (n.log2 + 1) ∣ n * 2 ^ 53 →
          r = n * 2 ^ 53 / 2 ^ (n.log2 + 1) ∧ e = n.log2 - 52) := by
  have hself := Nat.log2_self_le hn.ne'
  have hnext := Nat.lt_log2_self (n := n)
  have hlog : (n * 2 ^ 53).log2 = n.log2 + 53 := by
    refine (Nat.log2_eq_iff (Nat.mul_ne_zero hn.ne' (by decide))).mpr ⟨?_, ?_⟩
    · rw [pow_add]
      exact Nat.mul_le_mul_right _ hself
    · rw [Nat.add_right_comm, pow_add]
      exact Nat.mul_lt_mul_of_pos_right hnext (by decide)
  have hk : Format.binary64.targetExponent (totalExponent (n * 2 ^ 53) (-53)) =
      -53 + ((n.log2 + 1 : Nat) : Int) := by
    rw [target, totalExponent, hlog]
    omega
  have hlow : 2 ^ 52 ≤ n * 2 ^ 53 / 2 ^ (n.log2 + 1) := by
    rw [Nat.le_div_iff_mul_le (Nat.two_pow_pos _), ← pow_add, Nat.add_comm n.log2,
      ← Nat.add_assoc, pow_add, Nat.mul_comm]
    exact Nat.mul_le_mul_right _ hself
  have hhigh : n * 2 ^ 53 / 2 ^ (n.log2 + 1) < 2 ^ 53 := by
    rw [Nat.div_lt_iff_lt_mul (Nat.two_pow_pos _), Nat.mul_comm]
    exact Nat.mul_lt_mul_of_pos_left hnext (by decide)
  obtain ⟨r, e, hr, hround, hrlog, hle, hge, hzeros⟩ :=
    round_shape (s := .positive) hk (by omega) hlow hhigh
  refine ⟨r, e, hr, ?_, hrlog, by omega, by omega, fun h => ⟨(hzeros h).1, ?_⟩⟩
  · have hmantissa : n <<< Format.binary64.mantissaBits * 10 ^ (0 : Int).toNat = n * 2 ^ 53 := by
      rw [Int.toNat_zero, pow_zero, Nat.mul_one, Nat.shiftLeft_eq]
      rfl
    have hlarge : ¬ (0 : Int) > 2 ^ Format.binary64.exponentBits := by decide
    have hsmall : ¬ (0 : Int) < -((2 ^ Format.binary64.exponentBits : Int) + n.log2) := by
      have : (0 : Int) ≤ 2 ^ Format.binary64.exponentBits := by decide
      omega
    rw [← hround, ← hmantissa, UnpackedFloat.ofScientific, dif_neg hn.ne', if_neg hlarge,
      if_neg hsmall, if_pos (le_refl _)]
    rfl
  · have := (hzeros h).2
    omega

/-- The double nearest to a number is unpacked to what it was rounded to. -/
theorem unpack_nearest {r : Nat} {hr : 0 < r}
    (h : UnpackedFloat.ofScientific .binary64 n 0 = .finite .positive r e hr) (hrlog : r.log2 = 52)
    (hlow : -1074 ≤ e) (hhigh : e ≤ 971) :
    (nearest n).toModel.unpack = .finite .positive r e hr := by
  rw [← unpack_pack .positive hr hrlog hlow hhigh, ← h]
  rfl

/-- A number comes back from the nearest double exactly if a double holds it. -/
theorem truncated_nearest (hn : n.log2 < 1023) :
    truncated (nearest n) = some (n : Int) ↔ Exact n := by
  rcases Nat.eq_zero_or_pos n with rfl | hpos
  · exact iff_of_true (by decide +kernel) (Nat.dvd_zero _)
  obtain ⟨r, e, hr, hround, hrlog, hle, hge, hzeros⟩ := ofScientific_shape hpos
  have hunpack := unpack_nearest hround hrlog (by omega) (by omega)
  have hvalue : truncated (nearest n) =
      some (((if 0 ≤ e then r * 2 ^ e.toNat else r / 2 ^ (-e).toNat : Nat) : Int)) := by
    rw [truncated, hunpack]
    rfl
  rw [hvalue, Option.some.injEq, Nat.cast_inj]
  rcases Nat.lt_or_ge n.log2 52 with hsmall | hbig
  · -- Fewer bits than a double has: what is appended to the number is cut off again.
    obtain ⟨k, hk⟩ : ∃ k, n.log2 + 1 + k = 53 := ⟨52 - n.log2, by omega⟩
    have hsplit : n * 2 ^ 53 = n * 2 ^ k * 2 ^ (n.log2 + 1) := by
      rw [Nat.mul_assoc, ← pow_add, Nat.add_comm k, hk]
    obtain ⟨hr, he⟩ := hzeros (hsplit ▸ Nat.dvd_mul_left _ _)
    rw [hsplit, Nat.mul_div_cancel _ (Nat.two_pow_pos _)] at hr
    have hcount : (-e).toNat = k := by omega
    refine iff_of_true ?_ (exact_of_lt ((Nat.log2_lt hpos.ne').mp (by omega)))
    rw [if_neg (by omega), hcount, hr, Nat.mul_div_cancel _ (Nat.two_pow_pos _)]
  · obtain ⟨k, hk⟩ : ∃ k, n.log2 = 52 + k := ⟨n.log2 - 52, by omega⟩
    have hexact : Exact n ↔ 2 ^ k ∣ n := by rw [Exact, hk, Nat.add_sub_cancel_left]
    rw [if_pos (by omega), hexact]
    constructor
    · -- The double is a multiple of the power of two that is asked for.
      intro h
      have hdvd : 2 ^ k ∣ r * 2 ^ e.toNat := Dvd.dvd.mul_left (Nat.pow_dvd_pow 2 (by omega)) r
      rwa [h] at hdvd
    · rintro ⟨c, hc⟩
      have hpow : 2 ^ (n.log2 + 1) = 2 ^ k * 2 ^ 53 := by
        rw [hk, ← pow_add]
        congr 1
        omega
      have hsplit : n * 2 ^ 53 = c * 2 ^ (n.log2 + 1) := by
        rw [hpow, ← Nat.mul_assoc, Nat.mul_comm c, ← hc]
      obtain ⟨hr, he⟩ := hzeros (hsplit ▸ Nat.dvd_mul_left _ _)
      rw [hsplit, Nat.mul_div_cancel _ (Nat.two_pow_pos _)] at hr
      have hcount : e.toNat = k := by omega
      rw [hcount, hr, Nat.mul_comm, ← hc]

end Nearest

end Doubles

end EarthRise
