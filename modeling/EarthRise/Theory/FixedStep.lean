import EarthRise.Core.FixedStep
import EarthRise.Lib.Exact
import EarthRise.Lib.Run
import Mathlib.Tactic.NormNum
import Mathlib.Tactic.Ring

/-!
# The Clock Keeps Its Accounts

What a clock says after any frames, steps and reports, in exact arithmetic.

A frame begins with less than a step left over and takes in five steps at most, so there are
less than six, and what it gives out and what it keeps add up to that. When it has given out
five there is less than one left: the limit of a frame never holds a whole step back. What was
given out and what is left over is what was taken in.

The factor moves a share of the way to a target between the floor and one, so it stays between
them. While the steps are in their budget the target is one, and each report takes a twentieth
off the distance, which is below the millionth that snaps after so many of them.

## Main definitions

* `Metered`: A clock, and what went into it and came out.
* `Metered.Steady`: What is asked of it.

## Theorems

* `dilate_mem`: The factor stays between the floor and one.
* `dilate_under`, `deficit_run`: A load below the budget.
* `Filled.step`: What a frame, a step and a report keep.
* `factor_run`: What moves the factor.
* `clock_steady`: Every run of a clock.
-/

namespace EarthRise

namespace Clock

variable {D : Type} [Exact D] {factor : D}

/-! ## The factor -/

theorem clamp_mem {v lo hi : D} (h : lo ≤ hi) : lo ≤ clamp v lo hi ∧ clamp v lo hi ≤ hi := by
  unfold clamp
  split
  · exact ⟨le_refl _, h⟩
  · split
    · exact ⟨h, le_refl _⟩
    · rename_i hlo hhi
      exact ⟨not_lt.mp hlo, not_lt.mp hhi⟩

theorem snap_mem {lo factor : D} (hlo : lo ≤ factor) (hhi : factor ≤ 1) :
    lo ≤ snap factor ∧ snap factor ≤ 1 := by
  unfold snap
  split
  · exact ⟨hlo.trans hhi, le_refl _⟩
  · exact ⟨hlo, hhi⟩

/-- The factor stays between the floor and one, whatever is reported. -/
theorem dilate_mem (factor measuredSeconds budgetSeconds : D) {cfg : DilationConfig D}
    (hfloor : cfg.floor ≤ 1) : cfg.floor ≤ dilate factor measuredSeconds budgetSeconds cfg ∧
      dilate factor measuredSeconds budgetSeconds cfg ≤ 1 :=
  snap_mem (clamp_mem hfloor).1 (clamp_mem hfloor).2

theorem simDeltaSeconds_eq : (simDeltaSeconds : D) = 1 / 30 := by
  unfold simDeltaSeconds
  rw [Exact.ofScientific_eq, Exact.ofInt_eq]
  norm_num [simTicksPerSecond]

theorem simDelta_pos : (0 : D) < simDeltaSeconds := by
  rw [simDeltaSeconds_eq]
  norm_num

/-- The literals of the balance. -/
theorem default_eq : (DilationConfig.default : DilationConfig D) = ⟨1 / 10, 1, 1 / 4, 1 / 20⟩ := by
  unfold DilationConfig.default
  rw [DilationConfig.mk.injEq]
  refine ⟨?_, ?_, ?_, ?_⟩ <;> (rw [Exact.ofScientific_eq]; norm_num)

/-- A step within the budget takes a twentieth off the distance to one, or all of it. -/
theorem dilate_under {factor cost : D} (hfactor : factor ≤ 1) (hcost : cost ≤ simDeltaSeconds) :
    dilate factor cost simDeltaSeconds .default = 1 ∨
      1 - dilate factor cost simDeltaSeconds .default ≤ 19 / 20 * (1 - factor) := by
  have hload : ¬ (1 : D) < cost / simDeltaSeconds := by
    rw [not_lt, div_le_one simDelta_pos]
    exact hcost
  unfold dilate easeTo dilationTarget snap
  simp only [default_eq, if_pos simDelta_pos, if_neg hload, if_neg (not_lt.mpr hfactor)]
  split
  · exact .inl rfl
  · refine .inr ?_
    unfold clamp
    split
    · linarith
    · split <;> linarith

/-- A factor whose distance to one is below a millionth is one. -/
theorem snap_eq_one (h : 1 - snap factor < 1 / 1000000) : snap factor = 1 := by
  have hsmall : (1e-6 : D) = 1 / 1000000 := by
    rw [Exact.ofScientific_eq]
    norm_num
  unfold snap at h ⊢
  rw [hsmall] at h ⊢
  split
  · rfl
  · rename_i hno
    rw [if_neg hno] at h
    exact absurd (by linarith) hno

/-- The factor after so many reports. -/
def factorAfter (factor : D) (costs : List D) : D :=
  costs.foldl (fun f cost => dilate f cost simDeltaSeconds .default) factor

/-- Each report within the budget takes a twentieth off the distance to one. -/
theorem deficit_run (hfactor : factor ≤ 1) (costs : List D)
    (hcosts : ∀ cost ∈ costs, cost ≤ simDeltaSeconds) :
    factorAfter factor costs ≤ 1 ∧
      1 - factorAfter factor costs ≤ (19 / 20) ^ costs.length * (1 - factor) := by
  induction costs generalizing factor with
  | nil => simp [factorAfter, hfactor]
  | cons cost costs ih =>
      have hfloor : (DilationConfig.default : DilationConfig D).floor ≤ 1 := by
        rw [default_eq]
        norm_num
      have hnext := (dilate_mem factor cost simDeltaSeconds hfloor).2
      have hrest := ih hnext fun c hc => hcosts c (List.mem_cons_of_mem _ hc)
      refine ⟨hrest.1, hrest.2.trans ?_⟩
      have hstep : 1 - dilate factor cost simDeltaSeconds .default ≤ 19 / 20 * (1 - factor) := by
        rcases dilate_under hfactor (hcosts cost List.mem_cons_self) with hone | hless
        · rw [hone, sub_self]
          exact mul_nonneg (by norm_num) (sub_nonneg.mpr hfactor)
        · exact hless
      calc (19 / 20 : D) ^ costs.length * (1 - dilate factor cost simDeltaSeconds .default)
          ≤ (19 / 20) ^ costs.length * (19 / 20 * (1 - factor)) :=
            mul_le_mul_of_nonneg_left hstep (pow_nonneg (by norm_num) _)
        _ = (19 / 20) ^ (cost :: costs).length * (1 - factor) := by
            rw [List.length_cons, pow_succ]
            ring

/-- Two hundred and seventy reports are enough. -/
theorem small_deficit : (19 / 20 : D) ^ 270 < 1 / 1000000 := by
  have hhalf : (19 / 20 : D) ^ 135 < 1 / 1000 := by norm_num
  calc (19 / 20 : D) ^ 270 = (19 / 20) ^ 135 * (19 / 20) ^ 135 := by rw [← pow_add]
    _ < 1 / 1000 * (1 / 1000) :=
        mul_lt_mul'' hhalf hhalf (pow_nonneg (by norm_num) _) (pow_nonneg (by norm_num) _)
    _ = 1 / 1000000 := by norm_num

/-- Under a load that stays within the budget the factor comes back to one. -/
theorem factor_returns (hfloor : 0 ≤ factor) (hfactor : factor ≤ 1) (costs : List D)
    (hcosts : ∀ cost ∈ costs, cost ≤ simDeltaSeconds) (hmany : 270 ≤ costs.length) :
    factorAfter factor costs = 1 := by
  rcases List.eq_nil_or_concat' costs with rfl | ⟨before, cost, rfl⟩
  · simp at hmany
  · have hrun := (deficit_run hfactor _ hcosts).2
    have hpow : (19 / 20 : D) ^ (before ++ [cost]).length ≤ (19 / 20) ^ 270 :=
      pow_le_pow_of_le_one (by norm_num) (by norm_num) hmany
    have hless : (19 / 20 : D) ^ (before ++ [cost]).length * (1 - factor) ≤
        (19 / 20) ^ (before ++ [cost]).length :=
      mul_le_of_le_one_right (pow_nonneg (by norm_num) _) (by linarith)
    have hsmall := hrun.trans_lt ((hless.trans hpow).trans_lt small_deficit)
    unfold factorAfter at hsmall ⊢
    rw [List.foldl_append] at hsmall ⊢
    exact snap_eq_one hsmall

/-! ## The accounts of a clock -/

/-- What is done with a clock: a frame of so many seconds, a step, and a report of how long a
    step took. -/
inductive ClockCall (D : Type)
  | tick (elapsed : D)
  | consume
  | report (measuredSeconds : D)

/-- A clock, whether the steps of the frame are all taken, the steps since the start and in the
    frame, and the time that was let in. -/
structure Metered (D : Type) where
  clock : FixedStepAccumulator D
  drained : Bool
  ticks : Nat
  frameSteps : Nat
  intake : D

namespace Metered

def start (freq counter : Int) : Metered D := ⟨.start freq counter, true, 0, 0, 0⟩

/-- A frame is of no negative length and begins when the last one is drained. -/
def step (s : Metered D) : ClockCall D → Option (Metered D)
  | .tick elapsed =>
      if 0 ≤ elapsed ∧ s.drained then some
        { s with
          clock := s.clock.gather elapsed
          drained := false
          frameSteps := 0
          intake := s.intake + min elapsed (5 * simDeltaSeconds) * s.clock.factor }
      else none
  | .consume => some
      { s with
        clock := s.clock.consumeStep.2
        drained := !s.clock.consumeStep.1
        ticks := s.ticks + s.clock.consumeStep.1.toNat
        frameSteps := s.frameSteps + s.clock.consumeStep.1.toNat }
  | .report measuredSeconds => some { s with clock := s.clock.reportTickCost measuredSeconds }

/-- What the reports of a run say. -/
def costs : List (ClockCall D) → List D
  | [] => []
  | .report cost :: calls => cost :: costs calls
  | _ :: calls => costs calls

/-- Less than a step is left over between the frames, a frame has five steps at most, what came
    out and what is left over is what was let in, and the factor is in its bounds. From here on
    it is one after so many reports, among any frames and steps, if all are within the budget. -/
structure Steady [ExactWidens D] (s : Metered D) : Prop where
  rest : s.drained = true → 0 ≤ s.clock.accumulator ∧ s.clock.accumulator < simDeltaSeconds
  alpha : s.drained = true → 0 ≤ (s.clock.getAlpha : D) ∧ (s.clock.getAlpha : D) < 1
  limited : s.frameSteps ≤ maxCatchUpTicksPerFrame
  counted : s.clock.simTickCount = UInt64.ofNat s.ticks
  balance : s.ticks * simDeltaSeconds + s.clock.accumulator = s.intake
  factor : s.clock.dilationCfg.floor ≤ s.clock.factor ∧ s.clock.factor ≤ 1
  recovers : ∃ n, ∀ calls t, Run.runLabels step s calls = some t →
    (∀ cost ∈ costs calls, cost ≤ simDeltaSeconds) → n ≤ (costs calls).length → t.clock.factor = 1

/-- A frame had less than six steps' time, of which it gave out what it counted. -/
structure Filled (s : Metered D) : Prop where
  nonneg : 0 ≤ s.clock.accumulator
  frame : s.clock.accumulator + s.clock.stepsThisFrame * simDeltaSeconds < 6 * simDeltaSeconds
  drained : s.drained = true → s.clock.accumulator < simDeltaSeconds
  steps : s.clock.stepsThisFrame = s.frameSteps
  limited : s.frameSteps ≤ maxCatchUpTicksPerFrame
  counted : s.clock.simTickCount = UInt64.ofNat s.ticks
  balance : s.ticks * simDeltaSeconds + s.clock.accumulator = s.intake
  config : s.clock.dilationCfg = .default
  factor : s.clock.dilationCfg.floor ≤ s.clock.factor ∧ s.clock.factor ≤ 1

theorem filled_start (freq counter : Int) : Filled (start freq counter : Metered D) where
  nonneg := le_refl _
  frame := by
    have hpos : (0 : D) < simDeltaSeconds := simDelta_pos
    simp [start, FixedStepAccumulator.start, hpos]
  drained _ := simDelta_pos
  steps := rfl
  limited := Nat.zero_le _
  counted := rfl
  balance := by simp [start, FixedStepAccumulator.start]
  config := rfl
  factor := by
    simp only [start, FixedStepAccumulator.start, default_eq]
    norm_num

/-- A frame lets in five steps at most. -/
theorem clampElapsed_eq (elapsed : D) :
    clampElapsed elapsed = min elapsed (5 * simDeltaSeconds) := by
  have hmax : (simDeltaSeconds * ofInt maxCatchUpTicksPerFrame : D) = 5 * simDeltaSeconds := by
    rw [Exact.ofInt_eq, mul_comm]
    norm_num [maxCatchUpTicksPerFrame]
  unfold clampElapsed
  simp only [hmax]
  split
  · rename_i hlt
    exact (min_eq_right hlt.le).symm
  · rename_i hle
    exact (min_eq_left (not_lt.mp hle)).symm

variable {s : Metered D}

theorem Filled.tick (hs : Filled s) {elapsed : D} (helapsed : 0 ≤ elapsed)
    (hdrained : s.drained = true) : Filled
      { s with
        clock := s.clock.gather elapsed
        drained := false
        frameSteps := 0
        intake := s.intake + min elapsed (5 * simDeltaSeconds) * s.clock.factor } := by
  have hpos : (0 : D) < simDeltaSeconds := simDelta_pos
  have hlow : 0 ≤ min elapsed (5 * simDeltaSeconds) := le_min helapsed (by linarith)
  have hfloor := hs.factor.1
  rw [hs.config, default_eq] at hfloor
  have hfactor : 0 ≤ s.clock.factor := le_trans (by norm_num) hfloor
  have hin : 0 ≤ min elapsed (5 * simDeltaSeconds) * s.clock.factor := mul_nonneg hlow hfactor
  have hless : min elapsed (5 * simDeltaSeconds) * s.clock.factor ≤ 5 * simDeltaSeconds :=
    (mul_le_of_le_one_right hlow hs.factor.2).trans (min_le_right _ _)
  unfold FixedStepAccumulator.gather
  rw [clampElapsed_eq]
  refine ⟨add_nonneg hs.nonneg hin, ?_, fun h => absurd h Bool.false_ne_true, rfl,
    Nat.zero_le _, hs.counted, ?_, hs.config, hs.factor⟩
  · -- Less than a step was left over, and five come in at most.
    have hrest := hs.drained hdrained
    simp only [Nat.cast_zero, zero_mul, add_zero]
    linarith
  · linarith [hs.balance]

variable {s t : Metered D}

theorem Filled.consume (hs : Filled s) (hstep : s.step .consume = some t) :
    Filled t := by
  rw [Metered.step, Option.some.injEq] at hstep
  subst hstep
  have hframe := hs.frame
  unfold FixedStepAccumulator.consumeStep
  split
  · -- The frame has had all its steps, so less than one is left.
    rename_i hfull
    have hfive : s.clock.stepsThisFrame = 5 :=
      le_antisymm (hs.steps.le.trans hs.limited) hfull
    rw [hfive] at hframe
    push_cast at hframe
    exact ⟨hs.nonneg, hs.frame, fun _ => by linarith, hs.steps, hs.limited, hs.counted, hs.balance,
      hs.config, hs.factor⟩
  · rename_i hroom
    split
    · rename_i hless
      exact ⟨hs.nonneg, hs.frame, fun _ => hless, hs.steps, hs.limited, hs.counted, hs.balance,
        hs.config, hs.factor⟩
    · rename_i hwhole
      refine ⟨sub_nonneg.mpr (not_lt.mp hwhole), ?_, fun h => ?_, ?_, ?_, ?_, ?_, hs.config,
        hs.factor⟩
      · push_cast
        linarith
      · simp at h
      · simp [hs.steps]
      · have hsteps := hs.steps
        simp only [Bool.toNat_true]
        omega
      · simp only [hs.counted, Bool.toNat_true, UInt64.ofNat_add]
        rfl
      · have hbalance := hs.balance
        simp only [Bool.toNat_true]
        push_cast
        linarith

theorem Filled.report (hs : Filled s) (cost : D) :
    Filled { s with clock := s.clock.reportTickCost cost } where
  nonneg := hs.nonneg
  frame := hs.frame
  drained := hs.drained
  steps := hs.steps
  limited := hs.limited
  counted := hs.counted
  balance := hs.balance
  config := hs.config
  factor := by
    have hfloor : s.clock.dilationCfg.floor ≤ 1 := by
      rw [hs.config, default_eq]
      norm_num
    exact dilate_mem s.clock.factor cost simDeltaSeconds hfloor

theorem Filled.step (hs : Filled s) (c : ClockCall D)
    (hstep : s.step c = some t) : Filled t := by
  cases c with
  | tick elapsed =>
      rw [Metered.step] at hstep
      split at hstep
      · rename_i h
        rw [Option.some.injEq] at hstep
        subst hstep
        exact hs.tick h.1 h.2
      · exact absurd hstep nofun
  | consume => exact hs.consume hstep
  | report cost =>
      rw [Metered.step, Option.some.injEq] at hstep
      subst hstep
      exact hs.report cost

/-- Of a run only the reports move the factor. -/
theorem factor_run (calls : List (ClockCall D))
    (hconfig : s.clock.dilationCfg = .default) (hrun : Run.runLabels step s calls = some t) :
    t.clock.factor = factorAfter s.clock.factor (costs calls) := by
  induction calls generalizing s with
  | nil =>
      rw [Run.runLabels, Option.some.injEq] at hrun
      rw [← hrun]
      rfl
  | cons c calls ih =>
      rcases Option.bind_eq_some_iff.mp hrun with ⟨m, hm, hrest⟩
      cases c with
      | tick elapsed =>
          rw [step] at hm
          split at hm
          · rw [Option.some.injEq] at hm
            subst hm
            refine (ih ?_ hrest).trans rfl
            exact hconfig
          · cases hm
      | consume =>
          rw [step, Option.some.injEq] at hm
          subst hm
          have hkept : s.clock.consumeStep.2.factor = s.clock.factor ∧
              s.clock.consumeStep.2.dilationCfg = s.clock.dilationCfg := by
            unfold FixedStepAccumulator.consumeStep
            split
            · exact ⟨rfl, rfl⟩
            · split <;> exact ⟨rfl, rfl⟩
          rw [ih (hkept.2.trans hconfig) hrest, hkept.1]
          rfl
      | report cost =>
          rw [step, Option.some.injEq] at hm
          subst hm
          rw [ih (s := { s with clock := s.clock.reportTickCost cost }) hconfig hrest]
          simp only [FixedStepAccumulator.reportTickCost, hconfig, costs, factorAfter,
            List.foldl_cons]

/-! ## Every run -/

theorem Filled.steady [ExactWidens D] (hs : Filled s) : Steady s where
  rest h := ⟨hs.nonneg, hs.drained h⟩
  alpha h := by
    unfold FixedStepAccumulator.getAlpha
    rw [ExactWidens.narrow_eq, div_lt_one simDelta_pos]
    exact ⟨div_nonneg hs.nonneg simDelta_pos.le, hs.drained h⟩
  limited := hs.limited
  counted := hs.counted
  balance := hs.balance
  factor := hs.factor
  recovers := by
    refine ⟨270, fun calls t hrun hcosts hmany => ?_⟩
    have hfloor := hs.factor.1
    rw [hs.config, default_eq] at hfloor
    rw [factor_run calls hs.config hrun]
    exact factor_returns (le_trans (by norm_num) hfloor) hs.factor.2 _ hcosts hmany

/-- Whatever times are measured and whatever costs are reported, a clock whose steps are taken
    after each frame keeps its accounts. -/
theorem clock_steady [ExactWidens D] (freq counter : Int) {s : Metered D}
    (h : Run.Reaches step Run.free (start freq counter) s) : Steady s :=
  (Run.Reaches.invariant (fun _ c _ hs _ hstep => Filled.step hs c hstep) h
    (filled_start freq counter)).steady

/-- A long frame, from which five steps are taken, one of them far too slow. -/
theorem clock_steady_overrun : ∃ s : Metered ℚ,
    Run.Reaches step Run.free (start 10000000 0) s ∧ s.ticks = 5 ∧ s.clock.factor = 31 / 40 ∧
      Steady s := by
  have hrun : (Run.runLabels step (start 10000000 0 : Metered ℚ)
      [.tick 2, .consume, .consume, .consume, .consume, .consume, .report 1, .consume]).any
        (fun s => s.ticks = 5 ∧ s.clock.factor = 31 / 40) = true := by decide +kernel
  rcases Run.exists_of_runLabels _ hrun with ⟨s, hreach, hs⟩
  have hends := of_decide_eq_true hs
  exact ⟨s, hreach, hends.1, hends.2, clock_steady 10000000 0 hreach⟩

end Metered

end Clock

end EarthRise
