import Mathlib.Algebra.Order.Field.Basic
import Mathlib.Algebra.Order.Ring.Pow
import Mathlib.Data.Nat.Sqrt
import Mathlib.Data.Rat.Defs
import Mathlib.Algebra.Order.Field.Rat
import Mathlib.Tactic.Linarith
import Mathlib.Tactic.Positivity
import Mathlib.Tactic.Ring

/-!
# Rounded Arithmetic

Operations that are exact up to a relative error, and what a length computed with them
is still good for.

A rounding is any function that stays within the error `u` of the number it rounds; a
root is one whose square is as good. Numbers too large or too small for a format are
not considered.

A length is the rounded root of rounded sums of rounded squares. Adding squares can
only help a lower bound, so the length is at least each of its legs, short of seven
errors (`leg_le`).

## Main definitions

* `Arithmetic`: A rounding and a root, with their error.
* `Arithmetic.length`: A length, rounded at each operation.
* `Arithmetic.longRoots`: Exact rationals and roots to sixty bits.

## Theorems

* `abs_le_fl`, `fl_nonneg`: What a rounding keeps.
* `leg_le`: A length and its legs.
-/

namespace EarthRise

/-- A rounding and a square root that are off by a share `u` at most. -/
structure Arithmetic (K : Type*) [Field K] [LinearOrder K] (u : K) where
  fl : K → K
  sqrt : K → K
  fl_error : ∀ x, |fl x - x| ≤ u * |x|
  sqrt_nonneg : ∀ x, 0 ≤ sqrt x
  le_sqrt : ∀ x, 0 ≤ x → (1 - u) ^ 2 * x ≤ sqrt x ^ 2
  sqrt_le : ∀ x, 0 ≤ x → sqrt x ^ 2 ≤ (1 + u) ^ 2 * x

namespace Arithmetic

variable {K : Type*} [Field K] [LinearOrder K] [IsStrictOrderedRing K] {u : K}
  (A : Arithmetic K u) {x : ℚ}

theorem fl_zero : A.fl 0 = 0 := by
  have h := A.fl_error 0
  rw [sub_zero, abs_zero, mul_zero] at h
  exact abs_eq_zero.mp (le_antisymm h (abs_nonneg _))

theorem sqrt_zero : A.sqrt 0 = 0 := by
  have h := A.sqrt_le 0 (le_refl 0)
  rw [mul_zero] at h
  exact pow_eq_zero_iff (two_ne_zero) |>.mp (le_antisymm h (sq_nonneg _))

/-- A rounding loses a share of the size at most. -/
theorem abs_le_fl (x : K) : (1 - u) * |x| ≤ |A.fl x| := by
  have herr := A.fl_error x
  have hsplit : |x| - |A.fl x| ≤ |A.fl x - x| := by
    rw [abs_sub_comm]
    exact abs_sub_abs_le_abs_sub x (A.fl x)
  linarith

theorem fl_ge {x : K} (hx : 0 ≤ x) : (1 - u) * x ≤ A.fl x := by
  have herr := (abs_le.mp (A.fl_error x)).1
  rw [abs_of_nonneg hx] at herr
  linarith

theorem fl_nonneg (hu : u ≤ 1) {x : K} (hx : 0 ≤ x) : 0 ≤ A.fl x :=
  le_trans (mul_nonneg (sub_nonneg.mpr hu) hx) (A.fl_ge hx)

/-- A rounded square of a rounded number. -/
theorem square_le (hu : u ≤ 1) (x : K) : (1 - u) ^ 3 * x ^ 2 ≤ A.fl (A.fl x * A.fl x) := by
  have hshare := sub_nonneg.mpr hu
  have hsq : ((1 - u) * |x|) ^ 2 ≤ |A.fl x| ^ 2 :=
    pow_le_pow_left₀ (mul_nonneg hshare (abs_nonneg x)) (A.abs_le_fl x) 2
  rw [mul_pow, sq_abs, sq_abs] at hsq
  calc (1 - u) ^ 3 * x ^ 2 = (1 - u) * ((1 - u) ^ 2 * x ^ 2) := by ring
    _ ≤ (1 - u) * (A.fl x) ^ 2 := mul_le_mul_of_nonneg_left hsq hshare
    _ = (1 - u) * (A.fl x * A.fl x) := by rw [sq]
    _ ≤ A.fl (A.fl x * A.fl x) := A.fl_ge (mul_self_nonneg _)

/-- The length of a vector, each operation rounded: the legs, their squares, the sums
    from left to right, the root. -/
def length (x y z : K) : K :=
  A.sqrt (A.fl (A.fl (A.fl (A.fl x * A.fl x) + A.fl (A.fl y * A.fl y)) +
    A.fl (A.fl z * A.fl z)))

theorem length_zero : A.length 0 0 0 = 0 := by
  unfold length
  simp only [A.fl_zero, mul_zero, add_zero, A.sqrt_zero]

/-- A rounded sum of two numbers that are not negative. -/
theorem add_ge (hu : u ≤ 1) {a b : K} (ha : 0 ≤ a) (hb : 0 ≤ b) :
    (1 - u) * a ≤ A.fl (a + b) ∧ (1 - u) * b ≤ A.fl (a + b) := by
  have hsum := A.fl_ge (add_nonneg ha hb)
  have hshare := sub_nonneg.mpr hu
  exact ⟨le_trans (mul_le_mul_of_nonneg_left (le_add_of_nonneg_right hb) hshare) hsum,
    le_trans (mul_le_mul_of_nonneg_left (le_add_of_nonneg_left ha) hshare) hsum⟩

/-- A length is no shorter than any of its legs, short of seven errors. -/
theorem leg_le (hu0 : 0 ≤ u) (hu : u ≤ 1) (x y z : K) :
    (1 - u) ^ 7 * x ^ 2 ≤ A.length x y z ^ 2 ∧ (1 - u) ^ 7 * y ^ 2 ≤ A.length x y z ^ 2 ∧
      (1 - u) ^ 7 * z ^ 2 ≤ A.length x y z ^ 2 := by
  have hshare := sub_nonneg.mpr hu
  have hx0 := A.fl_nonneg hu (mul_self_nonneg (A.fl x))
  have hy0 := A.fl_nonneg hu (mul_self_nonneg (A.fl y))
  have hz0 := A.fl_nonneg hu (mul_self_nonneg (A.fl z))
  have hxy0 := A.fl_nonneg hu (add_nonneg hx0 hy0)
  rcases A.add_ge hu hx0 hy0 with ⟨hx, hy⟩
  rcases A.add_ge hu hxy0 hz0 with ⟨hxy, hz⟩
  have hroot := A.le_sqrt _ (A.fl_nonneg hu (add_nonneg hxy0 hz0))
  -- A square that reaches the last sum after two more roundings.
  have hfinish : ∀ q, (1 - u) ^ 2 * A.fl (A.fl q * A.fl q) ≤
      A.fl (A.fl (A.fl (A.fl x * A.fl x) + A.fl (A.fl y * A.fl y)) + A.fl (A.fl z * A.fl z)) →
      (1 - u) ^ 7 * q ^ 2 ≤ A.length x y z ^ 2 := by
    intro q hq
    have hsquare := mul_le_mul_of_nonneg_left (A.square_le hu q) (pow_nonneg hshare 2)
    calc (1 - u) ^ 7 * q ^ 2 = (1 - u) ^ 2 * ((1 - u) ^ 2 * ((1 - u) ^ 3 * q ^ 2)) := by ring
      _ ≤ (1 - u) ^ 2 * A.fl (A.fl (A.fl (A.fl x * A.fl x) + A.fl (A.fl y * A.fl y)) +
            A.fl (A.fl z * A.fl z)) :=
          mul_le_mul_of_nonneg_left (le_trans hsquare hq) (pow_nonneg hshare 2)
      _ ≤ A.length x y z ^ 2 := hroot
  refine ⟨hfinish x ?_, hfinish y ?_, hfinish z ?_⟩
  · rw [sq, mul_assoc]
    exact le_trans (mul_le_mul_of_nonneg_left hx hshare) hxy
  · rw [sq, mul_assoc]
    exact le_trans (mul_le_mul_of_nonneg_left hy hshare) hxy
  · rw [sq, mul_assoc]
    have hless : (1 - u) * A.fl (A.fl z * A.fl z) ≤ A.fl (A.fl z * A.fl z) :=
      mul_le_of_le_one_left hz0 (by linarith)
    exact le_trans (mul_le_mul_of_nonneg_left hless hshare) hz

/-! ## An arithmetic -/

/-- The root of a fraction, from the integer root of numerator times denominator with
    sixty more bits. -/
def longRoot (x : ℚ) : ℚ := (Nat.sqrt (x.num.toNat * x.den * 4 ^ 60) : ℚ) / (2 ^ 60 * x.den)

/-- The number under the integer root. -/
theorem longRoot_arg (hx : 0 ≤ x) :
    ((x.num.toNat * x.den * 4 ^ 60 : Nat) : ℚ) = x * (2 ^ 60 * x.den) ^ 2 := by
  have hnum : ((x.num.toNat : Nat) : ℚ) = x.num := by
    have hcast : ((x.num.toNat : Nat) : Int) = x.num := Int.toNat_of_nonneg (Rat.num_nonneg.mpr hx)
    rw [← Int.cast_natCast, hcast]
  have hden : (x.den : ℚ) ≠ 0 := Nat.cast_ne_zero.mpr x.den_nz
  have hfrac : (x.num : ℚ) = x * x.den := by
    rw [← div_eq_iff hden]
    exact Rat.num_div_den x
  rw [Nat.cast_mul, Nat.cast_mul, Nat.cast_pow, Nat.cast_ofNat, hnum, hfrac]
  ring

theorem longRoot_le (hx : 0 ≤ x) : longRoot x ^ 2 ≤ x := by
  have hden : (0 : ℚ) < 2 ^ 60 * x.den :=
    mul_pos (by norm_num) (Nat.cast_pos.mpr x.den_pos)
  unfold longRoot
  rw [div_pow, div_le_iff₀ (pow_pos hden 2), ← longRoot_arg hx, ← Nat.cast_pow]
  exact Nat.cast_le.mpr (Nat.sqrt_le' _)

/-- The integer root has at least sixty bits, so what it rounds off is below its share. -/
theorem le_longRoot (hx : 0 ≤ x) : (1 - 1 / 2 ^ 53) ^ 2 * x ≤ longRoot x ^ 2 := by
  rcases lt_or_eq_of_le hx with hpos | rfl
  · have hden : (0 : ℚ) < 2 ^ 60 * x.den :=
      mul_pos (by norm_num) (Nat.cast_pos.mpr x.den_pos)
    have hbig : 2 ^ 60 ≤ Nat.sqrt (x.num.toNat * x.den * 4 ^ 60) := by
      rw [Nat.le_sqrt]
      have hnum : 0 < x.num.toNat := by
        have := Rat.num_pos.mpr hpos
        omega
      have hone : 1 ≤ x.num.toNat * x.den := Nat.mul_pos hnum x.den_pos
      calc 2 ^ 60 * 2 ^ 60 = 1 * 4 ^ 60 := by norm_num
        _ ≤ x.num.toNat * x.den * 4 ^ 60 := Nat.mul_le_mul_right _ hone
    have hsucc := Nat.lt_succ_sqrt' (x.num.toNat * x.den * 4 ^ 60)
    unfold longRoot
    rw [div_pow, le_div_iff₀ (pow_pos hden 2), mul_assoc, ← longRoot_arg hx]
    generalize Nat.sqrt (x.num.toNat * x.den * 4 ^ 60) = s at hbig hsucc ⊢
    have hs : (2 ^ 60 : ℚ) ≤ s := by
      have hcast : ((2 ^ 60 : Nat) : ℚ) ≤ s := Nat.cast_le.mpr hbig
      rwa [Nat.cast_pow, Nat.cast_ofNat] at hcast
    have harg : ((x.num.toNat * x.den * 4 ^ 60 : Nat) : ℚ) ≤ ((s : ℚ) + 1) ^ 2 := by
      have hcast : ((x.num.toNat * x.den * 4 ^ 60 : Nat) : ℚ) ≤ ((s + 1) ^ 2 : Nat) :=
        Nat.cast_le.mpr (Nat.le_of_lt hsucc)
      rwa [Nat.cast_pow, Nat.cast_add, Nat.cast_one] at hcast
    have hshare : (1 - 1 / 2 ^ 53 : ℚ) * (s + 1) ≤ s := by linarith
    calc (1 - 1 / 2 ^ 53 : ℚ) ^ 2 * ((x.num.toNat * x.den * 4 ^ 60 : Nat) : ℚ)
        ≤ (1 - 1 / 2 ^ 53 : ℚ) ^ 2 * ((s : ℚ) + 1) ^ 2 :=
          mul_le_mul_of_nonneg_left harg (sq_nonneg _)
      _ = ((1 - 1 / 2 ^ 53 : ℚ) * (s + 1)) ^ 2 := by ring
      _ ≤ (s : ℚ) ^ 2 := pow_le_pow_left₀ (mul_nonneg (by norm_num) (by positivity)) hshare 2
  · rw [mul_zero]
    exact sq_nonneg _

/-- Exact sums and products, and roots with an error well below that of a double. -/
def longRoots : Arithmetic ℚ (1 / 2 ^ 53) where
  fl := id
  sqrt := longRoot
  fl_error := fun x => by
    rw [id_eq, sub_self, abs_zero]
    exact mul_nonneg (by norm_num) (abs_nonneg x)
  sqrt_nonneg := fun x => by
    unfold longRoot
    positivity
  le_sqrt := fun _ hx => le_longRoot hx
  sqrt_le := fun x hx => by
    have hone : x ≤ (1 + 1 / 2 ^ 53) ^ 2 * x := le_mul_of_one_le_left hx (by norm_num)
    exact le_trans (longRoot_le hx) hone

end Arithmetic

end EarthRise
