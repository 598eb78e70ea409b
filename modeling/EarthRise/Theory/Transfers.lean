import EarthRise.Core.SimStep
import EarthRise.Lib.Exact

/-!
# Transfers of Resources

What a transfer moves, in exact arithmetic.

Mining, unloading and claiming loot each take from one place what they add to another, slot by
slot and within the room that is left. A build only takes. So no hold ends up with less than
nothing or more than its capacity, and the places together hold no more than before.

## Main definitions

* `Amounts.Nonneg`, `Hold.Fits`: Amounts of which none is negative, and a hold that holds such
  amounts within its capacity.

## Theorems

* `harvestStep_moves`, `depositAll_moves`, `takeLoot_moves`: The transfers.
* `pay_fits`: The cost of a ship.
-/

namespace EarthRise

namespace Shard

section

variable {F : Type} [Exact F]

/-- No amount is negative. -/
structure Amounts.Nonneg (a : Amounts F) : Prop where
  ore : 0 ≤ a.ore
  ice : 0 ≤ a.ice
  gas : 0 ≤ a.gas

/-- A hold holds amounts that are not negative, within its capacity. -/
structure Hold.Fits (h : Hold F) : Prop where
  nonneg : h.amount.Nonneg
  within : sumSlots h.amount ≤ h.capacity

variable {a b : Amounts F} {h : Hold F} {r : ResourceType} {x : F}

theorem sumSlots_eq (a : Amounts F) : sumSlots a = a.ore + a.ice + a.gas := by
  unfold sumSlots
  rw [zero_add]

theorem sumSlots_zero : sumSlots (Amounts.zero : Amounts F) = 0 := by
  rw [sumSlots_eq]
  exact (add_zero _).trans (add_zero _)

theorem zero_nonneg : (Amounts.zero : Amounts F).Nonneg := ⟨le_refl _, le_refl _, le_refl _⟩

theorem Amounts.Nonneg.get (ha : a.Nonneg) (r : ResourceType) : 0 ≤ a.get r := by
  cases r with
  | ore => exact ha.ore
  | ice => exact ha.ice
  | gas => exact ha.gas

theorem Amounts.Nonneg.sum (ha : a.Nonneg) : 0 ≤ sumSlots a := by
  rw [sumSlots_eq]
  linarith [ha.ore, ha.ice, ha.gas]

theorem Amounts.Nonneg.set (ha : a.Nonneg) (hx : 0 ≤ x) (r : ResourceType) :
    (a.set r x).Nonneg := by
  cases r with
  | ore => exact ⟨hx, ha.ice, ha.gas⟩
  | ice => exact ⟨ha.ore, hx, ha.gas⟩
  | gas => exact ⟨ha.ore, ha.ice, hx⟩

/-- One slot changes, and the sum with it. -/
theorem sumSlots_set (a : Amounts F) (r : ResourceType) (x : F) :
    sumSlots (a.set r x) = sumSlots a - a.get r + x := by
  rw [sumSlots_eq, sumSlots_eq]
  cases r <;> simp only [Amounts.set, Amounts.get] <;> ring

theorem empty_fits {capacity : F} (h : 0 ≤ capacity) : (Hold.empty capacity).Fits :=
  ⟨zero_nonneg, by
    rw [show sumSlots (Hold.empty capacity).amount = 0 from sumSlots_zero]
    exact h⟩

theorem Hold.Fits.sum (hh : h.Fits) : 0 ≤ sumSlots h.amount := hh.nonneg.sum

/-- What is free in a hold that fits. -/
theorem Hold.Fits.free (hh : h.Fits) : h.free = h.capacity - sumSlots h.amount := by
  unfold Hold.free
  simp only []
  split
  · rfl
  · rename_i hfull
    linarith [hh.within, not_lt.mp hfull]

/-- A hold takes in something that it has room for. -/
theorem Hold.Fits.add (hh : h.Fits) (hx : 0 ≤ x)
    (hroom : sumSlots h.amount + x ≤ h.capacity) (r : ResourceType) :
    ({ h with amount := h.amount.set r (h.amount.get r + x) } : Hold F).Fits := by
  refine ⟨hh.nonneg.set (add_nonneg (hh.nonneg.get r) hx) r, ?_⟩
  show sumSlots (h.amount.set r (h.amount.get r + x)) ≤ h.capacity
  rw [sumSlots_set]
  linarith

/-- A hold gives out something that it has. -/
theorem Hold.Fits.sub (hh : h.Fits) (hx : 0 ≤ x) (hhas : x ≤ h.amount.get r) :
    ({ h with amount := h.amount.set r (h.amount.get r - x) } : Hold F).Fits := by
  refine ⟨hh.nonneg.set (sub_nonneg.mpr hhas) r, ?_⟩
  show sumSlots (h.amount.set r (h.amount.get r - x)) ≤ h.capacity
  rw [sumSlots_set]
  linarith [hh.within]

/-! ## Mining -/

theorem harvestStep_moves {node : ResourceNodeTag F} {cargo : Hold F} (rate dt : F)
    (hnode : 0 ≤ node.remaining) (hcargo : cargo.Fits) :
    0 ≤ (harvestStep node cargo rate dt).2.1.remaining ∧
      (harvestStep node cargo rate dt).2.2.Fits ∧
      (harvestStep node cargo rate dt).2.1.remaining +
          sumSlots (harvestStep node cargo rate dt).2.2.amount =
        node.remaining + sumSlots cargo.amount := by
  unfold harvestStep
  simp only [Exact.fmin_eq_min]
  split
  · exact ⟨hnode, hcargo, rfl⟩
  · rename_i hwant
    have hle : min (min (rate * dt) node.remaining) cargo.free ≤ node.remaining :=
      (min_le_left _ _).trans (min_le_right _ _)
    have hroom : min (min (rate * dt) node.remaining) cargo.free ≤ cargo.free := min_le_right _ _
    rw [hcargo.free] at hroom hle hwant ⊢
    refine ⟨sub_nonneg.mpr hle, hcargo.add (not_le.mp hwant).le (by linarith) node.type, ?_⟩
    simp only []
    rw [sumSlots_set]
    ring

/-! ## Unloading -/

theorem depositEach_moves (l : List ResourceType) (moved : F) {cargo storage : Hold F}
    (hcargo : cargo.Fits) (hstorage : storage.Fits) :
    (depositEach l moved cargo storage).2.1.Fits ∧
      (depositEach l moved cargo storage).2.2.Fits ∧
      sumSlots (depositEach l moved cargo storage).2.1.amount +
          sumSlots (depositEach l moved cargo storage).2.2.amount =
        sumSlots cargo.amount + sumSlots storage.amount := by
  induction l generalizing moved cargo storage with
  | nil => exact ⟨hcargo, hstorage, rfl⟩
  | cons r rest ih =>
      unfold depositEach
      simp only [Exact.fmin_eq_min]
      split
      · exact ⟨hcargo, hstorage, rfl⟩
      · rename_i hfull
        have htake : 0 ≤ min (cargo.amount.get r) storage.free :=
          le_min (hcargo.nonneg.get r) (not_le.mp hfull).le
        have hroom : min (cargo.amount.get r) storage.free ≤ storage.free := min_le_right _ _
        have hleft := hcargo.sub htake (min_le_left _ _)
        have hgot := hstorage.add htake (by linarith [hstorage.free]) r
        rcases ih (moved + min (cargo.amount.get r) storage.free) hleft hgot with
          ⟨hfits, hfits', hsum⟩
        refine ⟨hfits, hfits', hsum.trans ?_⟩
        simp only []
        rw [sumSlots_set, sumSlots_set]
        ring

theorem depositAll_moves {cargo storage : Hold F} (hcargo : cargo.Fits)
    (hstorage : storage.Fits) :
    (depositAll cargo storage).2.1.Fits ∧ (depositAll cargo storage).2.2.Fits ∧
      sumSlots (depositAll cargo storage).2.1.amount +
          sumSlots (depositAll cargo storage).2.2.amount =
        sumSlots cargo.amount + sumSlots storage.amount :=
  depositEach_moves _ _ hcargo hstorage

/-! ## Loot -/

theorem takeLoot_moves (l : List ResourceType) {cargo : Hold F} {items : Amounts F} (value : Int)
    (hcargo : cargo.Fits) (hitems : items.Nonneg) :
    (ServerUniverse.takeLoot l cargo items value).1.Fits ∧
      sumSlots (ServerUniverse.takeLoot l cargo items value).1.amount ≤
        sumSlots cargo.amount + sumSlots items := by
  induction l generalizing cargo items value with
  | nil => exact ⟨hcargo, le_add_of_nonneg_right hitems.sum⟩
  | cons r rest ih =>
      unfold ServerUniverse.takeLoot
      simp only [Exact.fmin_eq_min, Exact.fmax_eq_max]
      have hspace : max 0 (cargo.capacity - sumSlots cargo.amount) =
          cargo.capacity - sumSlots cargo.amount := max_eq_right (sub_nonneg.mpr hcargo.within)
      rw [hspace]
      have htake : 0 ≤ min (items.get r) (cargo.capacity - sumSlots cargo.amount) :=
        le_min (hitems.get r) (sub_nonneg.mpr hcargo.within)
      have hle : min (items.get r) (cargo.capacity - sumSlots cargo.amount) ≤ items.get r :=
        min_le_left _ _
      have hroom : min (items.get r) (cargo.capacity - sumSlots cargo.amount) ≤
          cargo.capacity - sumSlots cargo.amount := min_le_right _ _
      have hgot := hcargo.add htake (by linarith) r
      have hleft := hitems.set (sub_nonneg.mpr hle) r
      rcases ih (value + trunc (min (items.get r) (cargo.capacity - sumSlots cargo.amount)))
        hgot hleft with ⟨hfits, hsum⟩
      refine ⟨hfits, hsum.trans (le_of_eq ?_)⟩
      simp only []
      rw [sumSlots_set, sumSlots_set]
      ring

/-! ## Building -/

theorem pay_fits {s : Hold F} {e : EconomyTuning F} (hs : s.Fits) (hcan : canAfford s e)
    (hore : 0 ≤ e.buildOreCost) (hice : 0 ≤ e.buildIceCost) :
    (pay s e).Fits ∧ sumSlots (pay s e).amount ≤ sumSlots s.amount := by
  have hsum : sumSlots (pay s e).amount ≤ sumSlots s.amount := by
    rw [sumSlots_eq, sumSlots_eq]
    simp only [pay]
    linarith
  refine ⟨⟨⟨sub_nonneg.mpr hcan.1, sub_nonneg.mpr hcan.2, hs.nonneg.gas⟩, ?_⟩, hsum⟩
  exact hsum.trans hs.within

end

end Shard

end EarthRise
