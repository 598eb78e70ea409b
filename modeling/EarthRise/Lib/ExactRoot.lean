import EarthRise.Lib.Exact
import Mathlib.Analysis.Complex.Trigonometric
import Mathlib.Analysis.Real.Sqrt

/-!
# Exact Roots

An exact format with the roots of all numbers and with rounding that treats negative numbers
as positive ones, which the real numbers are. Nothing is evaluated over it; it says what the
code computes up to rounding.

A share of a distance that is rounded to an integer stays within the distance. It is not zero
if it is at least one half, and it is all of the distance if it is within one half of it.

## Main definitions

* `ExactRoot`: A format with exact roots.

## Theorems

* `ExactRound.exists_nat_ge`: A format that rounds has no numbers above all integers.
* `lround_share_nonneg`, `lround_share_le`: The bounds of a rounded share.
* `one_le_lround_share`, `le_lround_share`: When it is not zero, and when it is everything.
-/

namespace EarthRise

/-- An exact format that has the roots of its numbers. -/
class ExactRoot (F : Type) extends ExactRound F where
  lround_neg : ∀ x : F, lround (-x) = -lround x
  sqrt_nonneg : ∀ x : F, 0 ≤ x → 0 ≤ Floating.sqrt x
  sqrt_mul_self : ∀ x : F, 0 ≤ x → Floating.sqrt x * Floating.sqrt x = x

/-- The closest integer to a real number, a half away from zero. -/
noncomputable def roundReal (x : ℝ) : Int := if 0 ≤ x then round x else -round (-x)

theorem roundReal_neg (x : ℝ) : roundReal (-x) = -roundReal x := by
  unfold roundReal
  rcases lt_trichotomy x 0 with hx | rfl | hx
  · rw [if_pos (by linarith), if_neg (by linarith), neg_neg]
  · simp only [neg_zero, le_refl, if_true, round_zero]
  · rw [if_neg (by linarith), if_pos hx.le, neg_neg]

theorem le_roundReal (x : ℝ) (n : Int) (hx : 0 ≤ x) : n ≤ roundReal x ↔ (n : ℝ) ≤ x + 1 / 2 := by
  have hround : roundReal x = ⌊x + 1 / 2⌋ := (if_pos hx).trans (round_eq x)
  rw [hround]
  exact Int.le_floor

noncomputable instance : ExactRoot ℝ where
  toField := inferInstance
  toLinearOrder := inferInstance
  add_le_add_left := fun _ _ => add_le_add_left
  le_of_add_le_add_left := fun _ _ _ => le_of_add_le_add_left
  zero_le_one := zero_le_one
  mul_lt_mul_of_pos_left := fun _ h _ _ hab => mul_lt_mul_of_pos_left hab h
  mul_lt_mul_of_pos_right := fun _ h _ _ hab => mul_lt_mul_of_pos_right hab h
  decLt := inferInstance
  decLe := inferInstance
  decEq := inferInstance
  ofInt := fun n => n
  sqrt := Real.sqrt
  floor := fun x => ⌊x⌋
  lround := roundReal
  trunc := fun x => if 0 ≤ x then ⌊x⌋ else ⌈x⌉
  ofInt_eq := fun _ => rfl
  ofScientific_eq := fun m s e => (Rat.cast_ofScientific m s e).symm
  le_lround := le_roundReal
  lround_neg := roundReal_neg
  sqrt_nonneg := fun x _ => Real.sqrt_nonneg x
  sqrt_mul_self := fun _ hx => Real.mul_self_sqrt hx

noncomputable instance : Widens ℝ ℝ where
  widen := id
  narrow := id
  cos := Real.cos
  sin := Real.sin
  bits := fun _ => 0

noncomputable instance : ExactWidens ℝ where
  widen_eq := fun _ => rfl
  narrow_eq := fun _ => rfl

/-- Rounding leaves no number out of the reach of the integers. -/
theorem ExactRound.exists_nat_ge {F : Type} [ExactRound F] (x : F) : ∃ n : ℕ, x ≤ n := by
  rcases le_total x 0 with hx | hx
  · exact ⟨0, by rwa [Nat.cast_zero]⟩
  · have hbound : ¬ lround x + 1 ≤ lround x := by omega
    rw [ExactRound.le_lround x _ hx, not_le] at hbound
    refine ⟨(lround x + 1).toNat, ?_⟩
    have hcast : ((lround x + 1 : Int) : F) ≤ ((lround x + 1).toNat : F) := by
      rw [← Int.cast_natCast]
      exact Int.cast_le.mpr (Int.self_le_toNat _)
    linarith

namespace ExactRoot

variable {F : Type} [ExactRoot F] {f : F}

theorem lround_share_nonneg (hf : 0 ≤ f) (n : ℕ) : 0 ≤ lround ((n : F) * f) := by
  have hx : 0 ≤ (n : F) * f := mul_nonneg n.cast_nonneg hf
  refine (ExactRound.le_lround _ 0 hx).mpr ?_
  rw [Int.cast_zero]
  linarith

theorem one_le_lround_share (hf : 0 ≤ f) (n : ℕ) :
    1 ≤ lround ((n : F) * f) ↔ 1 ≤ 2 * ((n : F) * f) := by
  have hx : 0 ≤ (n : F) * f := mul_nonneg n.cast_nonneg hf
  rw [ExactRound.le_lround _ 1 hx, Int.cast_one]
  constructor
  · intro h
    linarith
  · intro h
    linarith

theorem le_lround_share (hf : 0 ≤ f) (n : ℕ) :
    (n : Int) ≤ lround ((n : F) * f) ↔ 2 * (n : F) - 1 ≤ 2 * ((n : F) * f) := by
  have hx : 0 ≤ (n : F) * f := mul_nonneg n.cast_nonneg hf
  rw [ExactRound.le_lround _ n hx, Int.cast_natCast]
  constructor
  · intro h
    linarith
  · intro h
    linarith

theorem lround_share_le (hf : 0 ≤ f) (hf1 : f ≤ 1) (n : ℕ) :
    lround ((n : F) * f) ≤ n := by
  have hx : 0 ≤ (n : F) * f := mul_nonneg n.cast_nonneg hf
  have hle : (n : F) * f ≤ n := mul_le_of_le_one_right n.cast_nonneg hf1
  by_contra hgt
  have hnext := (ExactRound.le_lround _ ((n : Int) + 1) hx).mp (by omega)
  push_cast at hnext
  linarith

end ExactRoot

end EarthRise
