import Mathlib.Algebra.Order.Floor.Ring
import Mathlib.Data.Int.Log
import Mathlib.Data.Rat.Floor
import Mathlib.Tactic.Linarith
import Mathlib.Tactic.NormNum

/-!
# The Nearest Double to a Rational Number

Rounding to fifty-three bits, as a function of rational numbers that are not negative. A number
is divided by the distance of the doubles around it, rounded to a whole number, to the even one
halfway, and multiplied again. There is no overflow here, so this is the rounding of numbers that
are not too large.

The distance changes at the powers of two. These are doubles themselves, so of two numbers on
either side of one the greater is not rounded below the other.

## Main definitions

* `halfEven`: The nearest whole number.
* `ulp`: The distance of the doubles around a number.
* `nearest`: The nearest double.

## Theorems

* `nearest_mono`: Rounding keeps the order.
* `nearest_natCast`: Whole numbers up to `2 ^ 53` are doubles.
-/

namespace EarthRise

namespace NearestDouble

/-- The nearest whole number, the even one halfway between two. -/
def halfEven (x : ℚ) : ℤ :=
  if x - ⌊x⌋ < 1 / 2 then ⌊x⌋
  else if 1 / 2 < x - ⌊x⌋ then ⌊x⌋ + 1
  else if ⌊x⌋ % 2 = 0 then ⌊x⌋ else ⌊x⌋ + 1

theorem halfEven_cases (x : ℚ) : halfEven x = ⌊x⌋ ∨ halfEven x = ⌊x⌋ + 1 := by
  unfold halfEven
  split_ifs
  · exact .inl rfl
  · exact .inr rfl
  · exact .inl rfl
  · exact .inr rfl

@[simp] theorem halfEven_intCast (k : ℤ) : halfEven k = k := by
  unfold halfEven
  rw [Int.floor_intCast, sub_self, if_pos (by norm_num)]

theorem halfEven_mono {x y : ℚ} (h : x ≤ y) : halfEven x ≤ halfEven y := by
  rcases lt_or_eq_of_le (Int.floor_le_floor h) with hlt | heq
  · -- A whole number is between the two.
    have hx := halfEven_cases x
    have hy := halfEven_cases y
    omega
  · unfold halfEven
    rw [← heq]
    split_ifs
    all_goals first
      | omega
      | linarith

/-- The distance of the doubles around a number. -/
def ulp (x : ℚ) : ℚ := 2 ^ max (Int.log 2 x - 52) (-1074)

theorem ulp_pos (x : ℚ) : 0 < ulp x := zpow_pos two_pos _

/-- The nearest double to a number that is not negative. -/
def nearest (x : ℚ) : ℚ := halfEven (x / ulp x) * ulp x

variable {x : ℚ}

/-- A multiple of the distance that is not above a number is not above the nearest double. -/
theorem le_nearest (k : ℤ) (h : k * ulp x ≤ x) : k * ulp x ≤ nearest x := by
  have hk := halfEven_mono ((le_div_iff₀ (ulp_pos x)).mpr h)
  rw [halfEven_intCast] at hk
  exact mul_le_mul_of_nonneg_right (Int.cast_le.mpr hk) (ulp_pos x).le

theorem nearest_le (k : ℤ) (h : x ≤ k * ulp x) : nearest x ≤ k * ulp x := by
  have hk := halfEven_mono ((div_le_iff₀ (ulp_pos x)).mpr h)
  rw [halfEven_intCast] at hk
  exact mul_le_mul_of_nonneg_right (Int.cast_le.mpr hk) (ulp_pos x).le

/-- A multiple of the distance is a double. -/
theorem nearest_eq (k : ℤ) (h : x = k * ulp x) : nearest x = x :=
  le_antisymm ((nearest_le k h.le).trans h.ge) (h.le.trans (le_nearest k h.ge))

@[simp] theorem nearest_zero : nearest 0 = 0 := nearest_eq 0 (by rw [Int.cast_zero, zero_mul])

theorem nearest_nonneg (h : 0 ≤ x) : 0 ≤ nearest x := by
  have hle := le_nearest (x := x) 0 (by rwa [Int.cast_zero, zero_mul])
  rwa [Int.cast_zero, zero_mul] at hle

/-- A power of two is a multiple of the distance of smaller exponent. -/
theorem zpow_multiple {e u : ℤ} (h : u ≤ e) : ∃ k : ℤ, (2 : ℚ) ^ e = k * 2 ^ u := by
  rcases Int.eq_ofNat_of_zero_le (Int.sub_nonneg.mpr h) with ⟨n, hn⟩
  refine ⟨2 ^ n, ?_⟩
  rw [show e = n + u by omega, zpow_add₀ two_ne_zero, zpow_natCast]
  norm_num

theorem nearest_mono {x y : ℚ} (hx : 0 ≤ x) (h : x ≤ y) : nearest x ≤ nearest y := by
  rcases eq_or_lt_of_le hx with rfl | hpos
  · rw [nearest_zero]
    exact nearest_nonneg h
  have hlog : Int.log 2 x ≤ Int.log 2 y := Int.log_mono_right hpos h
  by_cases hulp : max (Int.log 2 x - 52) (-1074) = max (Int.log 2 y - 52) (-1074)
  · have hsame : ulp x = ulp y := by
      unfold ulp
      rw [hulp]
    unfold nearest
    rw [hsame]
    refine mul_le_mul_of_nonneg_right (Int.cast_le.mpr (halfEven_mono ?_)) (ulp_pos y).le
    exact div_le_div_of_nonneg_right h (ulp_pos y).le
  · -- The power of two at the foot of the greater one is a double, and between the two.
    have hfoot : (2 : ℚ) ^ Int.log 2 y ≤ y := by
      have hle := Int.zpow_log_le_self (b := 2) (by decide) (hpos.trans_le h)
      exact_mod_cast hle
    have hhead : x ≤ (2 : ℚ) ^ Int.log 2 y := by
      have hlt := Int.lt_zpow_succ_log_self (b := 2) (by decide) x
      have hpow : (2 : ℚ) ^ (Int.log 2 x + 1) ≤ 2 ^ Int.log 2 y :=
        zpow_le_zpow_right₀ one_le_two (by omega)
      exact (le_of_lt (by exact_mod_cast hlt)).trans hpow
    rcases zpow_multiple (e := Int.log 2 y) (u := max (Int.log 2 x - 52) (-1074)) (by omega)
      with ⟨k, hk⟩
    rcases zpow_multiple (e := Int.log 2 y) (u := max (Int.log 2 y - 52) (-1074)) (by omega)
      with ⟨j, hj⟩
    calc nearest x ≤ k * ulp x := nearest_le k (hhead.trans hk.le)
      _ = j * ulp y := hk.symm.trans hj
      _ ≤ nearest y := le_nearest j (hj.ge.trans hfoot)

/-- Whole numbers up to `2 ^ 53` are doubles. -/
theorem nearest_natCast {n : Nat} (h : n ≤ 2 ^ 53) : nearest n = n := by
  have hlog : Int.log 2 (n : ℚ) ≤ 53 := by
    rw [Int.log_natCast]
    have hle := Nat.log_mono_right (b := 2) h
    rw [Nat.log_pow (by decide)] at hle
    exact_mod_cast hle
  rcases Nat.eq_or_lt_of_le h with rfl | hlt
  · have hulp : ulp ((2 ^ 53 : Nat) : ℚ) = 2 := by
      unfold ulp
      rw [Int.log_natCast, Nat.log_pow (by decide)]
      norm_num
    refine nearest_eq (2 ^ 52) ?_
    rw [hulp]
    norm_num
  · have hsmall : max (Int.log 2 (n : ℚ) - 52) (-1074) ≤ 0 := by
      have hlt' : Int.log 2 (n : ℚ) < 53 := by
        rw [Int.log_natCast]
        exact_mod_cast Nat.log_lt_of_lt_pow' (by decide) hlt
      omega
    rcases zpow_multiple hsmall with ⟨k, hk⟩
    rw [zpow_zero] at hk
    refine nearest_eq (n * k) ?_
    unfold ulp
    rw [Int.cast_mul, Int.cast_natCast, mul_assoc, ← hk, mul_one]

/-- Rounding does not pass a whole number. -/
theorem ceil_nearest {n : Nat} (hx : 0 ≤ x) (h : x ≤ n) (hn : n ≤ 2 ^ 53) :
    ⌈nearest x⌉₊ ≤ ⌈x⌉₊ ∧ ⌈x⌉₊ ≤ ⌈nearest x⌉₊ + 1 := by
  have hceil : ⌈x⌉₊ ≤ n := Nat.ceil_le.mpr h
  constructor
  · have hle := nearest_mono hx (Nat.le_ceil x)
    rw [nearest_natCast (hceil.trans hn)] at hle
    exact Nat.ceil_le.mpr hle
  · rcases Nat.eq_zero_or_pos ⌈x⌉₊ with h0 | hpos
    · rw [h0]
      exact Nat.zero_le _
    · -- What is above a whole number is rounded to no less.
      have hlt : ((⌈x⌉₊ - 1 : Nat) : ℚ) < x := Nat.lt_ceil.mp (Nat.sub_lt hpos one_pos)
      have hle := nearest_mono (Nat.cast_nonneg _) hlt.le
      rw [nearest_natCast ((Nat.sub_le _ _).trans (hceil.trans hn))] at hle
      have hmono := Nat.cast_le.mp (hle.trans (Nat.le_ceil (nearest x)))
      omega

end NearestDouble

end EarthRise
