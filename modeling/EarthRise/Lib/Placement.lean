import Mathlib.Data.List.Forall2
import Mathlib.Data.Nat.Find
import Mathlib.Tactic.Common

/-!
# Placing Blocks One After the Other

Blocks that are laid out from a position on, each at the next multiple of its alignment. What is
placed later starts where what was placed before has ended, so the blocks keep clear of each
other, and all of them end by where the last one does.

## Main definitions

* `alignUp`: The next multiple.
* `Shape`, `Block`: What is to be placed, and where it is.
* `place`, `extent`: The blocks, and where the last one ends.

## Theorems

* `place_within`, `place_apart`, `place_aligned`: The layout.
* `exists_first_over`: If not all fit, there is a first that does not.
-/

namespace EarthRise

namespace Placement

/-- The least multiple of `a` that is not below `x`. -/
def alignUp (a x : Nat) : Nat := x + (a - x % a) % a

theorem le_alignUp (a x : Nat) : x ≤ alignUp a x := Nat.le_add_right _ _

theorem dvd_alignUp (a x : Nat) (ha : 0 < a) : a ∣ alignUp a x := by
  unfold alignUp
  by_cases h0 : x % a = 0
  · rw [h0, Nat.sub_zero, Nat.mod_self, Nat.add_zero]
    exact Nat.dvd_of_mod_eq_zero h0
  · have hlt := Nat.mod_lt x ha
    rw [Nat.mod_eq_of_lt (by omega)]
    refine ⟨x / a + 1, ?_⟩
    have hdiv := Nat.div_add_mod x a
    rw [Nat.mul_add, Nat.mul_one]
    omega

/-- What is to be placed. -/
structure Shape where
  alignment : Nat
  size : Nat
  pos : 0 < alignment

structure Block where
  start : Nat
  size : Nat
  deriving DecidableEq, Repr

def Block.stop (b : Block) : Nat := b.start + b.size

/-- Where a shape ends that is placed at `x`. -/
def Shape.finish (s : Shape) (x : Nat) : Nat := alignUp s.alignment x + s.size

theorem Shape.le_finish (s : Shape) (x : Nat) : x ≤ s.finish x :=
  Nat.le_trans (le_alignUp s.alignment x) (Nat.le_add_right _ _)

def place : Nat → List Shape → List Block
  | _, [] => []
  | x, s :: ss => ⟨alignUp s.alignment x, s.size⟩ :: place (s.finish x) ss

def extent : Nat → List Shape → Nat
  | x, [] => x
  | x, s :: ss => extent (s.finish x) ss

theorem le_extent (x : Nat) (ss : List Shape) : x ≤ extent x ss := by
  induction ss generalizing x with
  | nil => exact Nat.le_refl x
  | cons s ss ih => exact Nat.le_trans (s.le_finish x) (ih _)

theorem extent_append (x : Nat) (ss ts : List Shape) :
    extent x (ss ++ ts) = extent (extent x ss) ts := by
  induction ss generalizing x with
  | nil => rfl
  | cons s ss ih => exact ih _

theorem place_within (x : Nat) (ss : List Shape) :
    ∀ b ∈ place x ss, x ≤ b.start ∧ b.stop ≤ extent x ss := by
  induction ss generalizing x with
  | nil => exact fun b hb => absurd hb List.not_mem_nil
  | cons s ss ih =>
      intro b hb
      rw [place, List.mem_cons] at hb
      rcases hb with rfl | hb
      · exact ⟨le_alignUp s.alignment x, le_extent _ ss⟩
      · rcases ih _ b hb with ⟨hstart, hstop⟩
        exact ⟨Nat.le_trans (s.le_finish x) hstart, hstop⟩

/-- A block starts where those before it have ended. -/
theorem place_apart (x : Nat) (ss : List Shape) :
    (place x ss).Pairwise fun b c => b.stop ≤ c.start := by
  induction ss generalizing x with
  | nil => exact List.Pairwise.nil
  | cons s ss ih =>
      exact List.pairwise_cons.mpr ⟨fun c hc => (place_within _ ss c hc).1, ih _⟩

theorem place_aligned (x : Nat) (ss : List Shape) :
    List.Forall₂ (fun s b => s.alignment ∣ b.start ∧ b.size = s.size) ss (place x ss) := by
  induction ss generalizing x with
  | nil => exact List.Forall₂.nil
  | cons s ss ih => exact List.Forall₂.cons ⟨dvd_alignUp s.alignment x s.pos, rfl⟩ (ih _)

/-- If the shapes do not all end by `n`, there is a first that does not. -/
theorem exists_first_over (x n : Nat) (ss : List Shape) (hx : x ≤ n) (hover : n < extent x ss) :
    ∃ i s, ss[i]? = some s ∧ extent x (ss.take i) ≤ n ∧ n < extent x (ss.take (i + 1)) := by
  induction ss generalizing x with
  | nil => exact absurd hover (Nat.not_lt.mpr hx)
  | cons s ss ih =>
      by_cases hs : s.finish x ≤ n
      · rcases ih (s.finish x) hs hover with ⟨i, t, ht, hle, hlt⟩
        exact ⟨i + 1, t, ht, hle, hlt⟩
      · exact ⟨0, s, rfl, hx, Nat.lt_of_not_le hs⟩

end Placement

end EarthRise
