import EarthRise.Lib.Arith
import Mathlib.Algebra.Order.Field.Basic
import Mathlib.Algebra.Order.Field.Rat
import Mathlib.Tactic.Linarith
import Mathlib.Tactic.Positivity
import Mathlib.Tactic.NormNum.OfScientific

/-!
# Exact Arithmetic

Number formats without rounding, for what is only true up to rounding on a machine.

The numbers are those of an ordered field and the operations are the field's own. Nothing is
asked of roots and of conversions to integers, which no field gives: what is proved over an
exact format holds with any of them. Where rounding is what a result is about, the format is
one that rounds to the closest integer, or one that cuts off what is behind the point. The rational numbers are such a format, with roots
rounded down to an integer.

## Main definitions

* `Exact`: A format that computes exactly.
* `ExactRound`, `ExactTrunc`: One that rounds to the closest integer, and one that cuts off.
* `ExactWidens`: One that is the narrow and the wide one.

## Theorems

* `fmax_eq_max`, `fmin_eq_min`: The larger and the smaller of two.
* `ofScientific_pos`: Literals are positive, but for zero.
-/

namespace EarthRise

/-- A format that computes exactly. -/
class Exact (F : Type) extends Floating F, Field F, LinearOrder F, IsStrictOrderedRing F where
  ofInt_eq : ∀ n : Int, ofInt n = (n : F)
  /-- Literals are read as they are written. -/
  ofScientific_eq : ∀ (m : Nat) (s : Bool) (e : Nat),
    (OfScientific.ofScientific m s e : F) = ((OfScientific.ofScientific m s e : ℚ) : F)

instance : Exact ℚ where
  toField := inferInstance
  toLinearOrder := inferInstance
  add_le_add_left := fun _ _ => add_le_add_left
  le_of_add_le_add_left := fun _ _ _ => le_of_add_le_add_left
  zero_le_one := zero_le_one
  mul_lt_mul_of_pos_left := fun _ h _ _ hab => mul_lt_mul_of_pos_left hab h
  mul_lt_mul_of_pos_right := fun _ h _ _ hab => mul_lt_mul_of_pos_right hab h
  decLt := inferInstance
  decLe := inferInstance
  decEq := inferInstance
  ofInt := fun n => n
  sqrt := fun x => (Nat.sqrt ⌊x⌋₊ : ℚ)
  floor := fun x => ⌊x⌋
  lround := fun x => if 0 ≤ x then ⌊x + 1 / 2⌋ else ⌈x - 1 / 2⌉
  trunc := fun x => if 0 ≤ x then ⌊x⌋ else ⌈x⌉
  ofInt_eq := fun _ => rfl
  ofScientific_eq := fun _ _ _ => (Rat.cast_id _).symm

/-- An exact format that rounds to the closest integer, a half upward from zero on. -/
class ExactRound (F : Type) extends Exact F where
  le_lround : ∀ (x : F) (n : Int), 0 ≤ x → (n ≤ lround x ↔ (n : F) ≤ x + 1 / 2)

theorem le_lround_rat (x : ℚ) (n : Int) (hx : 0 ≤ x) : n ≤ lround x ↔ (n : ℚ) ≤ x + 1 / 2 := by
  have hround : lround x = ⌊x + 1 / 2⌋ := if_pos hx
  rw [hround]
  exact Int.le_floor

instance exactRoundRat : ExactRound ℚ where
  le_lround := le_lround_rat

/-- An exact format whose integer parts are the largest integers that are not above, from zero
    on. -/
class ExactTrunc (F : Type) extends Exact F where
  le_trunc : ∀ (x : F) (n : Int), 0 ≤ x → (n ≤ trunc x ↔ (n : F) ≤ x)

theorem le_trunc_rat (x : ℚ) (n : Int) (hx : 0 ≤ x) : n ≤ trunc x ↔ (n : ℚ) ≤ x := by
  have htrunc : trunc x = ⌊x⌋ := if_pos hx
  rw [htrunc]
  exact Int.le_floor

instance exactTruncRat : ExactTrunc ℚ where
  le_trunc := le_trunc_rat

/-- An exact format that is the narrow one and the wide one. -/
class ExactWidens (F : Type) [Exact F] extends Widens F F where
  widen_eq : ∀ x : F, widen x = x
  narrow_eq : ∀ x : F, narrow x = x

/-- One format for the narrow and the wide numbers. No angle but the right one is needed to
    place something around a point. -/
instance : Widens ℚ ℚ where
  widen := id
  narrow := id
  cos := fun _ => 1
  sin := fun _ => 0
  bits := fun _ => 0

theorem widen_rat (x : ℚ) : widen x = x := rfl

theorem narrow_rat (x : ℚ) : narrow x = x := rfl

instance exactWidensRat : ExactWidens ℚ where
  widen_eq := widen_rat
  narrow_eq := narrow_rat

example : lround (19.7 : ℚ) = 20 ∧ lround (-2.5 : ℚ) = -3 ∧ trunc (-2.5 : ℚ) = -2 := by
  decide +kernel

namespace Exact

variable {F : Type} [Exact F]

theorem fmax_eq_max (a b : F) : fmax a b = max a b := by
  unfold fmax
  split
  · rename_i h
    exact (max_eq_right h.le).symm
  · rename_i h
    exact (max_eq_left (not_lt.mp h)).symm

theorem fmin_eq_min (a b : F) : fmin a b = min a b := by
  unfold fmin
  split
  · rename_i h
    exact (min_eq_right h.le).symm
  · rename_i h
    exact (min_eq_left (not_lt.mp h)).symm

/-- The literal of one half. -/
theorem half : (0.5 : F) = 1 / 2 := by
  rw [ofScientific_eq]
  norm_num

theorem ofScientific_pos {m : Nat} (hm : 0 < m) (s : Bool) (e : Nat) :
    (0 : F) < OfScientific.ofScientific m s e := by
  rw [ofScientific_eq]
  refine Rat.cast_pos.mpr ?_
  show 0 < Rat.ofScientific m s e
  cases s with
  | true =>
      rw [Rat.ofScientific_true_def, Rat.mkRat_eq_div]
      positivity
  | false =>
      rw [Rat.ofScientific_false_def]
      positivity

end Exact

end EarthRise
