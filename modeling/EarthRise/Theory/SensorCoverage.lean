import EarthRise.Core.Sensing
import EarthRise.Theory.Subscriptions
import Mathlib.Tactic.NormNum

/-!
# Sensor Coverage

Why what a sensor detects is in the cells that its player subscribes to.

A sector is a floored quotient, so a step of less than `R` sides along an axis crosses
at most `R` borders, wherever it starts and on either side of zero. A range spans its
number of sides rounded up, and a position within the range is within it on every axis.
Rounding does not get in the way: a position one cell too far is at least a metre too
far, and the errors of the distance are well below a metre as long as the number of
cells fits.

That number is an `int`. For a range whose cells do not fit, the code's conversion
means nothing, and nothing is covered (`range_unfit`). So the ranges that fit are
exactly the ones that are covered (`covered_iff`).

## Main definitions

* `Machine.Fits`: The cells of a range can be counted.
* `Machine.Covers`: Whatever a range detects is in its cells.

## Theorems

* `mem_collectNeighbourhood`: The cells of a cube.
* `sector_close`: A short step crosses few borders.
* `cells_of_detected`: Detected within `N` metres is at most `N` metres off.
* `eyeCells_eq`: When the walk over the sensors is defined.
* `covered_iff`: When ranges are covered, and players see what they detect.
-/

namespace EarthRise

namespace Sim

open Universe

/-! ## Cells -/

/-- The cells of a cube are those within the half-width on every axis. -/
theorem mem_collectNeighbourhood (c s : SectorId) (R : Int) (hR : 0 ≤ R)
    (hx : |s.x - c.x| ≤ R) (hy : |s.y - c.y| ≤ R) (hz : |s.z - c.z| ≤ R) :
    s ∈ collectNeighbourhood c R := by
  unfold collectNeighbourhood
  rw [if_neg (not_lt.mpr hR)]
  have hoffset : ∀ d : Int, |d| ≤ R →
      d ∈ (List.range (2 * R + 1).toNat).map fun i => (i : Int) - R := by
    intro d hd
    rcases abs_le.mp hd with ⟨hlow, hhigh⟩
    have hlt : (d + R).toNat < (2 * R + 1).toNat := by omega
    have hback : ((d + R).toNat : Int) - R = d := by omega
    simp only [List.bind_eq_flatMap, List.pure_def, List.mem_map, List.mem_flatMap,
      List.mem_range, List.mem_singleton]
    exact ⟨_, ⟨(d + R).toNat, hlt, rfl⟩, hback⟩
  refine List.mem_flatMap.mpr ⟨s.x - c.x, hoffset _ hx, ?_⟩
  refine List.mem_flatMap.mpr ⟨s.y - c.y, hoffset _ hy, ?_⟩
  refine List.mem_map.mpr ⟨s.z - c.z, hoffset _ hz, ?_⟩
  simp only [add_sub_cancel]

/-- Along one axis, a step of at most `R` sides crosses at most `R` borders. -/
theorem sector_close {a b R : Int} (h : |b - a| ≤ R * sectorSize) :
    |b / sectorSize - a / sectorSize| ≤ R := by
  unfold sectorSize at h ⊢
  rw [abs_le] at h ⊢
  omega

namespace Machine

/-- The cells of a range fit an `int`, and so does the count that ends the walk. -/
def Fits (range : ℚ) : Prop := ⌈range / sectorSize⌉ < 2147483647

instance (range : ℚ) : Decidable (Fits range) := inferInstanceAs (Decidable (_ < _))

/-- The number of cells of a range, never below zero. -/
def cellsOf (range : ℚ) : Int := max 0 ⌈range / sectorSize⌉

variable {range : ℚ}

theorem neighbourhood_of_fits (h : Fits range) (eye : UniversePos) :
    neighbourhood eye range =
      some (Sim.collectNeighbourhood (universeToSector eye) (cellsOf range)) := by
  have hsize : (0 : ℚ) < (sectorSize : ℚ) := by norm_num [sectorSize]
  unfold neighbourhood sectorRadiusForRange cellsOf
  by_cases hle : range ≤ 0
  · have hceil : ⌈range / sectorSize⌉ ≤ 0 :=
      Int.ceil_le.mpr (by rw [Int.cast_zero]; exact div_nonpos_of_nonpos_of_nonneg hle hsize.le)
    rw [if_pos hle, Option.bind_some, max_eq_left hceil]
    exact if_neg (by decide)
  · have hceil : 0 < ⌈range / sectorSize⌉ :=
      Int.ceil_pos.mpr (div_pos (not_le.mp hle) hsize)
    unfold Fits at h
    unfold intOf
    rw [if_neg hle, if_pos ⟨by omega, by omega⟩, Option.bind_some, max_eq_right hceil.le]
    exact if_neg (by omega)

theorem neighbourhood_of_not_fits (h : ¬ Fits range) (eye : UniversePos) :
    neighbourhood eye range = none := by
  have hsize : (0 : ℚ) < (sectorSize : ℚ) := by norm_num [sectorSize]
  have hpos : ¬ range ≤ 0 := by
    intro hle
    refine h ?_
    have hceil : ⌈range / sectorSize⌉ ≤ 0 :=
      Int.ceil_le.mpr (by rw [Int.cast_zero]; exact div_nonpos_of_nonpos_of_nonneg hle hsize.le)
    unfold Fits
    omega
  unfold Fits at h
  unfold neighbourhood sectorRadiusForRange intOf
  rw [if_neg hpos]
  by_cases hint : -2147483648 ≤ ⌈range / sectorSize⌉ ∧ ⌈range / sectorSize⌉ ≤ 2147483647
  · rw [if_pos hint, Option.bind_some]
    exact if_pos (by omega)
  · rw [if_neg hint]
    rfl

/-! ## Distances -/

/-- A leg of a rounded length that is no longer than `N` metres is no longer than `N`
    metres: it is whole, and the error is less than a metre. -/
theorem leg_of_length {N d : Int} {l : ℚ} (hN : 0 ≤ N) (hbig : N ≤ 2147483647 * sectorSize)
    (hl : 0 ≤ l) (hle : l ≤ N) (hleg : (1 - 1 / 2 ^ 53 : ℚ) ^ 7 * (d : ℚ) ^ 2 ≤ l ^ 2) :
    |d| ≤ N := by
  by_contra hlong
  have hd : ((N : ℚ) + 1) ≤ |(d : ℚ)| := by
    have hd' : N + 1 ≤ |d| := by omega
    have hcast : ((N + 1 : Int) : ℚ) ≤ ((|d| : Int) : ℚ) := Int.cast_le.mpr hd'
    rwa [Int.cast_add, Int.cast_one, Int.cast_abs] at hcast
  have hN' : (0 : ℚ) ≤ N := Int.cast_nonneg hN
  have hbig' : (N : ℚ) ≤ 2 ^ 45 := by
    have hcast : ((N : Int) : ℚ) ≤ ((2 ^ 45 : Int) : ℚ) :=
      Int.cast_le.mpr (by unfold sectorSize at hbig; omega)
    rwa [Int.cast_pow, Int.cast_ofNat] at hcast
  have hsq : ((N : ℚ) + 1) ^ 2 ≤ (d : ℚ) ^ 2 := by
    rw [← sq_abs (d : ℚ)]
    exact pow_le_pow_left₀ (by linarith) hd 2
  have hl2 : l ^ 2 ≤ (N : ℚ) ^ 2 := pow_le_pow_left₀ hl hle 2
  -- Seven errors are less than the metre, up to this many metres.
  have hseven : (1 - 7 / 2 ^ 53 : ℚ) ≤ (1 - 1 / 2 ^ 53) ^ 7 := by norm_num
  have hlow : (1 - 7 / 2 ^ 53 : ℚ) * ((N : ℚ) + 1) ^ 2 ≤ (N : ℚ) ^ 2 := by
    calc (1 - 7 / 2 ^ 53 : ℚ) * ((N : ℚ) + 1) ^ 2
        ≤ (1 - 1 / 2 ^ 53) ^ 7 * ((N : ℚ) + 1) ^ 2 :=
          mul_le_mul_of_nonneg_right hseven (sq_nonneg _)
      _ ≤ (1 - 1 / 2 ^ 53) ^ 7 * (d : ℚ) ^ 2 := mul_le_mul_of_nonneg_left hsq (by norm_num)
      _ ≤ l ^ 2 := hleg
      _ ≤ (N : ℚ) ^ 2 := hl2
  have hshare : ((N : ℚ) + 1) ^ 2 ≤ (2 ^ 45 + 1) * ((N : ℚ) + 1) := by
    rw [sq]
    exact mul_le_mul_of_nonneg_right (by linarith) (by linarith)
  have hexpand : ((N : ℚ) + 1) ^ 2 = (N : ℚ) ^ 2 + 2 * N + 1 := by ring
  nlinarith only [hlow, hshare, hexpand, hN']

/-- A range is at most the sides that its cells span. -/
theorem range_le_cells (range : ℚ) : range ≤ ((cellsOf range * sectorSize : Int) : ℚ) := by
  have hsize : (0 : ℚ) < (sectorSize : ℚ) := by norm_num [sectorSize]
  have hceil : range / sectorSize ≤ (cellsOf range : ℚ) :=
    le_trans (Int.le_ceil _) (Int.cast_le.mpr (le_max_right _ _))
  rw [Int.cast_mul]
  exact (div_le_iff₀ hsize).mp hceil

/-- What a range detects is in the cells it spans. -/
theorem cells_of_detected (A : Doubles) {eye target : UniversePos} (hfits : Fits range)
    (h : sensorDetect A eye target range = true) :
    universeToSector target ∈
      Sim.collectNeighbourhood (universeToSector eye) (cellsOf range) := by
  have hdist : universeDistance A eye target ≤ range := of_decide_eq_true h
  have hle := le_trans hdist (range_le_cells range)
  have hcells : 0 ≤ cellsOf range := le_max_left _ _
  have hfew : cellsOf range < 2147483647 := max_lt (by decide) hfits
  have hN : 0 ≤ cellsOf range * sectorSize := mul_nonneg hcells (by decide)
  have hbig : cellsOf range * sectorSize ≤ 2147483647 * sectorSize :=
    mul_le_mul_of_nonneg_right hfew.le (by decide)
  rcases A.leg_le (by norm_num) (by norm_num) ((target.x - eye.x : Int) : ℚ)
    ((target.y - eye.y : Int) : ℚ) ((target.z - eye.z : Int) : ℚ) with ⟨hx, hy, hz⟩
  exact mem_collectNeighbourhood _ _ _ hcells
    (sector_close (leg_of_length hN hbig (A.sqrt_nonneg _) hle hx))
    (sector_close (leg_of_length hN hbig (A.sqrt_nonneg _) hle hy))
    (sector_close (leg_of_length hN hbig (A.sqrt_nonneg _) hle hz))

/-! ## Sensors of a universe -/

/-- Whatever the range detects around a position is in its cells. -/
def Covers (A : Doubles) (range : ℚ) : Prop :=
  ∀ eye target, sensorDetect A eye target range = true →
    ∃ cells, neighbourhood eye range = some cells ∧ universeToSector target ∈ cells

/-- The cells of every owned sensor fit. -/
def EyesFit (l : List (NetId × Entity)) : Prop :=
  ∀ e ∈ l, e.2.repl.ownerPlayer ≠ 0 → ∀ range, e.2.sensorRange = some range → Fits range

/-- Players see what their sensors detect. -/
def Sees (A : Doubles) (u u' : ServerUniverse) : Prop :=
  ∀ player ≠ 0, ∀ eye ∈ u.eyes player, ∀ n e, u.entities.find? n = some e →
    sensorDetect A eye.1 e.repl.pos eye.2 = true → n ∈ u'.interest.visibleTo player

theorem covers_iff (A : Doubles) (h0 : 0 ≤ range) : Covers A range ↔ Fits range := by
  constructor
  · intro hcovers
    by_contra hfits
    have hself : sensorDetect A ⟨0, 0, 0⟩ ⟨0, 0, 0⟩ range = true := by
      unfold sensorDetect universeDistance
      rw [decide_eq_true_eq]
      simp only [sub_self, Int.cast_zero, A.length_zero]
      exact h0
    rcases hcovers _ _ hself with ⟨cells, hcells, _⟩
    rw [neighbourhood_of_not_fits hfits] at hcells
    exact absurd hcells nofun
  · exact fun hfits eye target hd =>
      ⟨_, neighbourhood_of_fits hfits eye, cells_of_detected A hfits hd⟩

theorem cellsOf_eq (range : ℚ) : Sim.sectorRadiusForRange range = cellsOf range := by
  have hsize : (0 : ℚ) < (sectorSize : ℚ) := by norm_num [sectorSize]
  unfold Sim.sectorRadiusForRange cellsOf
  by_cases hle : range ≤ 0
  · have hceil : ⌈range / sectorSize⌉ ≤ 0 :=
      Int.ceil_le.mpr (by rw [Int.cast_zero]; exact div_nonpos_of_nonpos_of_nonneg hle hsize.le)
    rw [if_pos hle, max_eq_left hceil]
  · have hceil : 0 < ⌈range / sectorSize⌉ := Int.ceil_pos.mpr (div_pos (not_le.mp hle) hsize)
    rw [if_neg hle, max_eq_right hceil.le]

/-- What an owned sensor adds to its player's cells, without the machine's limits. -/
def eyeOf : NetId × Entity → Option (NetId × List SectorId) := fun (_, e) =>
  if e.repl.ownerPlayer = 0 then none
  else
    e.sensorRange.map fun range =>
      (e.repl.ownerPlayer, Sim.collectNeighbourhood (universeToSector e.repl.pos)
        (Sim.sectorRadiusForRange range))

/-- The walk over the sensors is the one without limits if every sensor fits, and is
    undefined if one does not. -/
theorem eyeCells_eq (l : List (NetId × Entity)) :
    (EyesFit l → eyeCells l = some (l.filterMap eyeOf)) ∧ (¬ EyesFit l → eyeCells l = none) := by
  induction l with
  | nil => exact ⟨fun _ => rfl, fun h => absurd (fun e he => absurd he List.not_mem_nil) h⟩
  | cons e l ih =>
      have hcons : EyesFit (e :: l) ↔ (e.2.repl.ownerPlayer ≠ 0 →
          ∀ range, e.2.sensorRange = some range → Fits range) ∧ EyesFit l := List.forall_mem_cons
      rw [hcons, List.filterMap_cons]
      unfold eyeCells eyeOf
      simp only
      cases hrange : e.2.sensorRange with
      | none =>
          simp only [Option.map_none, ite_self, reduceCtorEq, false_implies, implies_true,
            true_and]
          exact ih
      | some range =>
          by_cases howner : e.2.repl.ownerPlayer = 0
          · simp only [howner, ne_eq, not_true_eq_false, false_implies, true_and, if_true]
            exact ih
          · simp only [howner, ne_eq, not_false_eq_true, true_implies, Option.some.injEq,
              forall_eq', if_false, Option.map_some]
            by_cases hfits : Fits range
            · rw [neighbourhood_of_fits hfits, Option.bind_some, cellsOf_eq]
              refine ⟨fun h => ?_, fun h => ?_⟩
              · rw [ih.1 h.2]
                rfl
              · rw [ih.2 fun hl => h ⟨hfits, hl⟩]
                rfl
            · rw [neighbourhood_of_not_fits hfits]
              exact ⟨fun h => absurd h.1 hfits, fun _ => rfl⟩

theorem updateInterest_eq (u : ServerUniverse) :
    (EyesFit u.entities.entries → updateInterest u = some u.updateInterest) ∧
      (¬ EyesFit u.entities.entries → updateInterest u = none) := by
  rcases eyeCells_eq u.entities.entries with ⟨hfit, hunfit⟩
  unfold updateInterest
  refine ⟨fun h => ?_, fun h => ?_⟩
  · rw [hfit h]
    rfl
  · rw [hunfit h]
    rfl

/-- A player's eye puts its cells among the player's. -/
theorem sees_of_fit (A : Doubles) (u : ServerUniverse) (h : EyesFit u.entities.entries) :
    Sees A u u.updateInterest := by
  rintro player hplayer eye heye n e he hd
  unfold ServerUniverse.eyes at heye
  rcases List.mem_filterMap.mp heye with ⟨⟨m, o⟩, ho, hsome⟩
  by_cases hown : o.repl.ownerPlayer = player
  · simp only [if_pos hown] at hsome
    rcases Option.map_eq_some_iff.mp hsome with ⟨range, hrange, rfl⟩
    have howner : o.repl.ownerPlayer ≠ 0 := hown ▸ hplayer
    have hcell := cells_of_detected A (h (m, o) ho howner range hrange) hd
    have hmem : (player, Sim.collectNeighbourhood (universeToSector o.repl.pos)
        (Sim.sectorRadiusForRange range)) ∈ u.entities.entries.filterMap eyeOf := by
      refine List.mem_filterMap.mpr ⟨(m, o), ho, ?_⟩
      unfold eyeOf
      simp only [hown, if_neg hplayer, hrange, Option.map_some]
    rw [InterestGrid.mem_visibleTo]
    refine ⟨_, u.find?_homed he, (u.mem_subscriptions_updateInterest player _).mpr (Or.inl ?_)⟩
    have hcells : u.sensorCells.find? player = some (((u.entities.entries.filterMap eyeOf).filter
        fun e => e.1 = player).flatMap Prod.snd) :=
      (OrdMap.find?_collect _ player).trans (if_pos ⟨_, hmem, rfl⟩)
    refine ⟨_, hcells, Or.inl (List.mem_flatMap.mpr ⟨_, List.mem_filter.mpr ⟨hmem, ?_⟩, ?_⟩)⟩
    · exact decide_eq_true rfl
    · rw [cellsOf_eq]
      exact hcell
  · simp only [if_neg hown] at hsome
    exact absurd hsome nofun

/-- A range is covered, from every position, if and only if its cells fit; and players see
    what their sensors detect, after an update of the interest grid, if and only if the
    cells of all owned sensors do. -/
theorem covered_iff (A : Doubles) :
    (∀ range, 0 ≤ range → (Covers A range ↔ Fits range)) ∧
    ∀ u, (∃ u', updateInterest u = some u' ∧ Sees A u u') ↔ EyesFit u.entities.entries := by
  refine ⟨fun range h0 => covers_iff A h0, fun u => ⟨?_, fun h => ?_⟩⟩
  · rintro ⟨u', hu', _⟩
    by_contra hunfit
    rw [(updateInterest_eq u).2 hunfit] at hu'
    exact absurd hu' nofun
  · exact ⟨_, (updateInterest_eq u).1 h, sees_of_fit A u h⟩

/-- The range of a base. -/
theorem covered_iff_base : Covers Arithmetic.longRoots 12000 :=
  ((covered_iff Arithmetic.longRoots).1 12000 (by norm_num)).mpr (by decide +kernel)

/-- A range of 2^46 metres detects what is in the same place, and has no cells. -/
theorem range_unfit : 0 ≤ (2 ^ 46 : ℚ) ∧
    sensorDetect Arithmetic.longRoots ⟨0, 0, 0⟩ ⟨0, 0, 0⟩ (2 ^ 46) = true ∧
    ¬ Covers Arithmetic.longRoots (2 ^ 46) := by
  have hself : sensorDetect Arithmetic.longRoots ⟨0, 0, 0⟩ ⟨0, 0, 0⟩ (2 ^ 46) = true := by
    decide +kernel
  refine ⟨by norm_num, hself, fun hcovers => ?_⟩
  rcases hcovers _ _ hself with ⟨cells, hcells, _⟩
  have hnone : neighbourhood ⟨0, 0, 0⟩ (2 ^ 46) = none := by decide +kernel
  rw [hnone] at hcells
  exact absurd hcells nofun

end Machine

end Sim

end EarthRise
