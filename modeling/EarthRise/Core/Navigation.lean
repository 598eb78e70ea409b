import EarthRise.Core.Economy

/-!
# Movement and Navigation

How a unit moves: with its velocity, toward a point, and through the phases of a warp
or a jump; and what the AI of an NPC makes of what it sees.

Positions are integers and distances are wide numbers; a step toward a point rounds
each axis. A warp aligns and then flies, a jump spools and then cools down, and a
disruptor ends either.

## Main definitions

* `universeDistance`, `stepToward`, `stepStandoff`: Distances and steps.
* `beginWarp`, `beginJump`, `stepNav`: Travel.
* `integrateMovement`, `clampSpeed`: Velocity.
* `nextAiState`: The AI.
-/

namespace EarthRise

namespace Shard

open Universe (Vec3 UniversePos)

/-- The balance of navigation. -/
structure NavTuning (F : Type) where
  warpSpeedShip : F
  warpSpeedBase : F
  warpAlignSeconds : F
  jumpFuelShip : F
  jumpFuelBase : F
  jumpSpoolShip : F
  jumpSpoolBase : F
  jumpCooldownSeconds : F
  beaconUseRange : F
  shipFuelMax : F
  baseFuelMax : F
  deriving DecidableEq

def NavTuning.default {F : Type} [Floating F] : NavTuning F where
  warpSpeedShip := 6000.0
  warpSpeedBase := 2000.0
  warpAlignSeconds := 3.0
  jumpFuelShip := 20.0
  jumpFuelBase := 60.0
  jumpSpoolShip := 5.0
  jumpSpoolBase := 12.0
  jumpCooldownSeconds := 10.0
  beaconUseRange := 2000.0
  shipFuelMax := 100.0
  baseFuelMax := 300.0

/-- Why a jump was refused, if it was. -/
inductive JumpReject
  | accepted
  | notAtBeacon
  | notLinked
  | noFuel
  | busy
  deriving DecidableEq, Repr

/-- What a step of a journey did. -/
inductive NavEvent
  | none
  | arrived
  | jumped
  | droppedOut
  deriving DecidableEq, Repr

section

variable {F D : Type} [Floating F] [Floating D] [Widens F D]

/-! ## Distances and steps -/

def universeDistance (a b : UniversePos) : D :=
  let dx : D := ofInt (b.x - a.x)
  let dy : D := ofInt (b.y - a.y)
  let dz : D := ofInt (b.z - a.z)
  Floating.sqrt (dx * dx + dy * dy + dz * dz)

/-- Go a part of the way to a target, each axis to the closest metre. -/
def advance (pos target : UniversePos) (frac : D) : UniversePos where
  x := pos.x + lround (ofInt (target.x - pos.x) * frac)
  y := pos.y + lround (ofInt (target.y - pos.y) * frac)
  z := pos.z + lround (ofInt (target.z - pos.z) * frac)

/-- Step toward a target, and whether the step covers the way. -/
def stepToward (pos target : UniversePos) (maxStep : D) : UniversePos × Bool :=
  let dist : D := universeDistance pos target
  if dist ≤ 0 then (pos, true)
  else
    let step := if dist ≤ maxStep then dist else maxStep
    (advance pos target (step / dist), dist ≤ step)

/-- Step a unit toward a target; on arrival it stands on the metre. -/
def Transform.stepToward (tr : Transform F) (target : UniversePos) (maxStep : D) : Transform F :=
  let (pos, arrived) := Shard.stepToward tr.pos target maxStep
  { pos := pos, localOffset := if arrived then Vec3.zero else tr.localOffset }

/-- Close in to a distance from a target, and whether the unit is within it. -/
def stepStandoff (tr : Transform F) (target : UniversePos) (maxStep range : D) :
    Transform F × Bool :=
  let dist : D := universeDistance tr.pos target
  if dist ≤ range then (tr, true)
  else
    let tr' := tr.stepToward target (fmin maxStep (dist - range))
    (tr', (universeDistance tr'.pos target : D) ≤ range)

/-! ## Travel -/

/-- Whether a unit is free to jump and has the fuel. -/
def checkJumpReady (nav : NavState F) (fuel : Fuel F) (cost : F) : JumpReject :=
  if nav.phase ≠ .idle then .busy
  else if fuel.current < cost then .noFuel
  else .accepted

def beginWarp (nav : NavState F) (dest : UniversePos) (warpSpeed alignSeconds : F) : NavState F :=
  { nav with
    phase := .align, target := dest, warpSpeed := warpSpeed, timer := alignSeconds
    interdicted := false, jumpTarget := 0xFFFF }

def beginJump (nav : NavState F) (dest : UniversePos) (destBeaconIndex : UInt16)
    (spoolSeconds : F) : NavState F :=
  { nav with
    phase := .spool, target := dest, jumpTarget := destBeaconIndex, timer := spoolSeconds
    interdicted := false }

/-- One step of a journey. -/
def stepNav (nav : NavState F) (tr : Transform F) (tuning : NavTuning F) (dt : F) :
    NavEvent × NavState F × Transform F :=
  match nav.phase with
  | .idle => (.none, nav, tr)
  | .align =>
      let timer := nav.timer - dt
      if timer ≤ 0 then (.none, { nav with phase := .warp, timer := 0 }, tr)
      else (.none, { nav with timer := timer }, tr)
  | .warp =>
      if nav.interdicted then
        (.droppedOut, { nav with interdicted := false, phase := .idle }, tr)
      else
        let dist : D := universeDistance tr.pos nav.target
        let step := widen nav.warpSpeed * widen dt
        if dist ≤ 0 ∨ dist ≤ step then
          (.arrived, { nav with phase := .idle }, .of nav.target)
        else
          (.none, nav, { tr with pos := advance tr.pos nav.target (step / dist) })
  | .spool =>
      if nav.interdicted then
        (.droppedOut, { nav with interdicted := false, phase := .idle }, tr)
      else
        let timer := nav.timer - dt
        if timer ≤ 0 then
          (.jumped, { nav with phase := .cooldown, timer := tuning.jumpCooldownSeconds },
            .of nav.target)
        else (.none, { nav with timer := timer }, tr)
  | .cooldown =>
      let timer := nav.timer - dt
      if timer ≤ 0 then (.none, { nav with phase := .idle, timer := 0 }, tr)
      else (.none, { nav with timer := timer }, tr)

/-! ## Velocity -/

/-- Carry the whole metres of an offset over into the position. -/
def foldAxis (pos : Int) (offset : F) : Int × F :=
  let whole := Floating.floor offset
  (pos + trunc whole, offset - whole)

def integrateMovement (t : Transform F) (v : Vec3 F) (dt : F) : Transform F :=
  let x := foldAxis t.pos.x (t.localOffset.x + v.x * dt)
  let y := foldAxis t.pos.y (t.localOffset.y + v.y * dt)
  let z := foldAxis t.pos.z (t.localOffset.z + v.z * dt)
  { pos := ⟨x.1, y.1, z.1⟩, localOffset := ⟨x.2, y.2, z.2⟩ }

def clampSpeed (vel : Vec3 F) (maxSpeed : F) : Vec3 F :=
  let sq := vel.x * vel.x + vel.y * vel.y + vel.z * vel.z
  let maxSq := maxSpeed * maxSpeed
  if sq ≤ maxSq ∨ sq ≤ 0 then vel
  else
    let scale := maxSpeed / Floating.sqrt sq
    ⟨vel.x * scale, vel.y * scale, vel.z * scale⟩

/-! ## The AI -/

/-- An NPC flees when its hull is low, fights what is close, and else defends. -/
def nextAiState (ai : NpcAi F) (hasTarget targetInAggro : Bool) (hpFrac : F) : AiState :=
  if hpFrac ≤ ai.fleeHpFrac then .flee
  else if hasTarget ∧ targetInAggro then .aggro
  else .defend

end

end Shard

end EarthRise
