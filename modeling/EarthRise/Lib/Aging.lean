import Mathlib.Algebra.Order.Field.Basic
import Mathlib.Data.Finset.Card
import Mathlib.Order.Interval.Finset.Nat
import Mathlib.Data.Nat.Find
import Mathlib.Tactic.Linarith
import Mathlib.Tactic.Ring

/-!
# Aging

Queues in which waiting raises a priority in proportion to what it started from.

One served goes back to its start and ages again, and one that waits is overtaken
only by those whose start is higher. The higher start is no help once the waiting
one is above it: from then on, one served again has itself waited for a fixed share
of the time. Within the last such share nobody is served twice, so those served in
it are no more than there are.

## Main definitions

* `aged`: A start, after a wait.

## Theorems

* `wait_of_ahead`: How long one that is ahead has waited.
* `served_bound`: How often others can go first.
-/

namespace EarthRise

namespace Aging

variable {F : Type*} [Field F]

/-- A start `a` after `s` turns of waiting, each of which adds the share `σ` of it. -/
def aged (a σ : F) (s : Nat) : F := a * (1 + σ * s)

variable {a r σ : F}

theorem aged_zero : aged a σ 0 = a := by
  unfold aged
  rw [Nat.cast_zero, mul_zero, add_zero, mul_one]

theorem aged_add (s i : Nat) : aged a σ (s + i) = aged a σ s + a * σ * i := by
  unfold aged
  rw [Nat.cast_add]
  ring

variable [LinearOrder F] [IsStrictOrderedRing F]

theorem aged_lt (ha : 0 < a) (hσ : 0 < σ) {s s' : Nat} (h : s < s') : aged a σ s < aged a σ s' := by
  have hs : (s : F) < s' := Nat.cast_lt.mpr h
  exact mul_lt_mul_of_pos_left (add_lt_add_right (mul_lt_mul_of_pos_left hs hσ) 1) ha

theorem aged_mono (ha : 0 < a) (hσ : 0 < σ) {s s' : Nat} (h : s ≤ s') :
    aged a σ s ≤ aged a σ s' := by
  rcases Nat.eq_or_lt_of_le h with rfl | hlt
  · exact le_refl _
  · exact le_of_lt (aged_lt ha hσ hlt)

theorem aged_start_mono (hσ : 0 < σ) (h : a ≤ r) (s : Nat) : aged a σ s ≤ aged r σ s := by
  have hs : (0 : F) ≤ s := Nat.cast_nonneg s
  exact mul_le_mul_of_nonneg_right h (add_nonneg zero_le_one (mul_nonneg (le_of_lt hσ) hs))

/-- One that is ahead of another which was over its start `i` turns ago has waited for
    more than the share `a / r` of these turns. -/
theorem wait_of_ahead (hσ : 0 < σ) {s i d : Nat} (hover : r < aged a σ s)
    (hahead : aged a σ (s + i) ≤ aged r σ d) : a * i < r * d := by
  rw [aged_add] at hahead
  have hr : aged r σ d = r + r * σ * d := by
    unfold aged
    ring
  rw [hr] at hahead
  have hlt : σ * (a * i) < σ * (r * d) := by linarith
  exact lt_of_mul_lt_mul_left hlt (le_of_lt hσ)

/-- If one from a set goes first at each of `T` turns, and each that does so again has
    waited for more than the share `a / r` of the turns so far, then `T` is at most
    `r / a` times the size of the set and one. -/
theorem served_bound {ι : Type*} (T : Nat) (y : Nat → ι) (S : Finset ι) (ha : 0 < a)
    (har : a ≤ r) (hmem : ∀ i < T, y i ∈ S)
    (hgap : ∀ i < T, ∀ j < i, y j = y i → a * i < r * (i - j : Nat)) :
    a * T ≤ r * (S.card + 1) := by
  classical
  have hr : 0 < r := lt_of_lt_of_le ha har
  have hex : ∃ m : Nat, (r - a) * T ≤ r * m := by
    refine ⟨T, ?_⟩
    have hT : (0 : F) ≤ T := Nat.cast_nonneg T
    have haT : 0 ≤ a * T := mul_nonneg (le_of_lt ha) hT
    linarith
  -- Within the turns from `m` on nobody goes first twice.
  have hm : (r - a) * T ≤ r * (Nat.find hex : Nat) := Nat.find_spec hex
  have hinj : Set.InjOn y (Finset.Ico (Nat.find hex) T : Set Nat) := by
    have hlt : ∀ i j, Nat.find hex ≤ j → j < i → i < T → y j ≠ y i := by
      intro i j hj hji hi heq
      have hwait := hgap i hi j hji heq
      have hiT : (i : F) ≤ T := Nat.cast_le.mpr (Nat.le_of_lt hi)
      have hjm : ((Nat.find hex : Nat) : F) ≤ j := Nat.cast_le.mpr hj
      rw [Nat.cast_sub (Nat.le_of_lt hji)] at hwait
      have hri : (r - a) * i ≤ (r - a) * T :=
        mul_le_mul_of_nonneg_left hiT (sub_nonneg.mpr har)
      have hrj : r * (Nat.find hex : Nat) ≤ r * j := mul_le_mul_of_nonneg_left hjm (le_of_lt hr)
      linarith
    intro i hi j hj heq
    rw [Finset.coe_Ico, Set.mem_Ico] at hi hj
    rcases Nat.lt_trichotomy i j with h | h | h
    · exact absurd heq (hlt j i hi.1 h hj.2)
    · exact h
    · exact absurd heq.symm (hlt i j hj.1 h hi.2)
  have hcard : T - Nat.find hex ≤ S.card := by
    rw [← Nat.card_Ico, ← Finset.card_image_of_injOn hinj]
    refine Finset.card_le_card ?_
    intro x hx
    rcases Finset.mem_image.mp hx with ⟨i, hi, rfl⟩
    exact hmem i (Finset.mem_Ico.mp hi).2
  have hcard' : (T : F) ≤ S.card + (Nat.find hex : Nat) := by
    rw [← Nat.cast_add]
    exact Nat.cast_le.mpr (by omega)
  rcases Nat.eq_zero_or_pos (Nat.find hex) with h0 | hpos
  · rw [h0, Nat.cast_zero, add_zero] at hcard'
    have hT : a * T ≤ r * S.card := by
      have hS : (0 : F) ≤ S.card := Nat.cast_nonneg _
      calc a * T ≤ a * S.card := mul_le_mul_of_nonneg_left hcard' (le_of_lt ha)
        _ ≤ r * S.card := mul_le_mul_of_nonneg_right har hS
    linarith
  · -- One turn less would have been too few to hold the share.
    have hless := Nat.find_min hex (Nat.sub_lt hpos Nat.one_pos)
    rw [not_le, Nat.cast_sub hpos, Nat.cast_one] at hless
    have hTr : r * T ≤ r * (S.card + (Nat.find hex : Nat)) :=
      mul_le_mul_of_nonneg_left hcard' (le_of_lt hr)
    linarith

end Aging

end EarthRise
