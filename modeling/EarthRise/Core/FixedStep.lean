import EarthRise.Lib.Arith

/-!
# The Fixed-Step Clock

How much simulated time passes for the time that is measured.

A frame measures the time since the last one, cuts it to five steps, slows it down by the
dilation factor, and adds it to what is left over. Steps are taken out of that one by one, at
most five in a frame, and what remains tells how far the picture is between two states.

The factor follows the load. A step that takes longer than its budget draws the factor down,
by a quarter of the way; one that does not lets it come back, by a twentieth, and near one it
snaps to one.

## Main definitions

* `DilationConfig`, `dilate`: The factor.
* `FixedStepAccumulator`: The clock.
* `FixedStepAccumulator.tick`, `FixedStepAccumulator.consumeStep`: A frame and a step.
-/

namespace EarthRise

namespace Clock

/-- The balance of the dilation. -/
structure DilationConfig (D : Type) where
  floor : D
  onsetLoad : D
  easeDown : D
  easeUp : D
  deriving DecidableEq

/-- A clock: the frequency and the last reading of the machine's counter, the time that is left
    over, the steps that were taken since the start and in this frame, and the factor. -/
structure FixedStepAccumulator (D : Type) where
  freq : Int
  last : Int
  accumulator : D
  simTickCount : UInt64
  stepsThisFrame : Nat
  factor : D
  dilationCfg : DilationConfig D
  deriving DecidableEq

section

variable {F D : Type} [Floating F] [Floating D] [Widens F D]

/-- A number between two bounds. -/
def clamp (v lo hi : D) : D := if v < lo then lo else if hi < v then hi else v

def DilationConfig.default : DilationConfig D := ⟨0.10, 1.00, 0.25, 0.05⟩

/-- Full speed, from close to it on. -/
def snap (factor : D) : D := if 1 - 1e-6 < factor then 1 else factor

/-- The factor at which a load fits into its budget. -/
def dilationTarget (load : D) (cfg : DilationConfig D) : D :=
  if cfg.onsetLoad < load then clamp (cfg.onsetLoad / load) cfg.floor 1 else 1

/-- A factor moves to a target, faster down than up. -/
def easeTo (factor target : D) (cfg : DilationConfig D) : D :=
  let ease := if target < factor then cfg.easeDown else cfg.easeUp
  snap (clamp (factor + (target - factor) * ease) cfg.floor 1)

/-- The factor after a step that took so long. -/
def dilate (factor measuredSeconds budgetSeconds : D) (cfg : DilationConfig D) : D :=
  let budget := if 0 < budgetSeconds then budgetSeconds else 1e-9
  easeTo factor (dilationTarget (measuredSeconds / budget) cfg) cfg

def simTicksPerSecond : Int := 30

def simDeltaSeconds : D := 1.0 / ofInt simTicksPerSecond

def maxCatchUpTicksPerFrame : Nat := 5

/-- A frame is never longer than the steps it can take. -/
def clampElapsed (elapsed : D) : D :=
  let maxElapsed : D := simDeltaSeconds * ofInt maxCatchUpTicksPerFrame
  if maxElapsed < elapsed then maxElapsed else elapsed

namespace FixedStepAccumulator

def start (freq counter : Int) : FixedStepAccumulator D where
  freq := freq
  last := counter
  accumulator := 0
  simTickCount := 0
  stepsThisFrame := 0
  factor := 1
  dilationCfg := .default

/-- A frame of so many seconds. -/
def gather (a : FixedStepAccumulator D) (elapsed : D) : FixedStepAccumulator D :=
  { a with
    accumulator := a.accumulator + clampElapsed elapsed * a.factor
    stepsThisFrame := 0 }

/-- A frame up to a reading of the counter. -/
def tick (a : FixedStepAccumulator D) (now : Int) : FixedStepAccumulator D :=
  { a.gather (ofInt (now - a.last) / ofInt a.freq) with last := now }

def reportTickCost (a : FixedStepAccumulator D) (measuredSeconds : D) : FixedStepAccumulator D :=
  { a with factor := dilate a.factor measuredSeconds simDeltaSeconds a.dilationCfg }

/-- Take a step, if a whole one is left and the frame has not had all of its own. -/
def consumeStep (a : FixedStepAccumulator D) : Bool × FixedStepAccumulator D :=
  if maxCatchUpTicksPerFrame ≤ a.stepsThisFrame then (false, a)
  else if a.accumulator < simDeltaSeconds then (false, a)
  else (true,
    { a with
      accumulator := a.accumulator - simDeltaSeconds
      simTickCount := a.simTickCount + 1
      stepsThisFrame := a.stepsThisFrame + 1 })

/-- How far the picture is between two states. -/
def getAlpha (a : FixedStepAccumulator D) : F := narrow (a.accumulator / simDeltaSeconds)

end FixedStepAccumulator

end

end Clock

end EarthRise
