import EarthRise.Core.Interest
import EarthRise.Core.Shard

/-!
# The Universe and Who Looks at It

The simulated universe together with the interest grid of its players.

The grid follows the entities at the end of each step, and every player with a sensor is
then subscribed to the sectors around its sensors. A unit that sets out subscribes its
owner ahead to the sectors around its destination. What is destroyed leaves the grid.

The code takes an entity out of the grid where it destroys it. A step of the model does so
when the simulation is done, for all ids that lead to nothing by then; the grid is not read
in between.

## Main definitions

* `Observed`: The universe, the grid, and the sector that was last travelled to.
* `Observed.beginWarpTo`, `Observed.beginJumpTo`, `Observed.applyFleetCommand`: Commands.
* `Observed.updateInterest`, `Observed.apply`, `Observed.restoreState`: Steps, the other
  calls and restarts.
-/

namespace EarthRise

namespace Shard

open Ecs (EntityHandle)
open Universe (UniversePos SectorId universeToSector sectorSize)
open Sim (InterestGrid NetId collectNeighbourhood)

/-- A net id as the grid has it. -/
def gridId (n : UInt32) : NetId := n.toFin

structure Observed (F D : Type) where
  sim : ServerUniverse F D
  interest : InterestGrid
  lastTravelSector : SectorId

section

variable {F D : Type} [Floating F] [Floating D] [Widens F D]

/-- The smallest integer that is not below a number. -/
def ceil (x : D) : Int :=
  let whole := Floating.floor x
  if whole = x then trunc whole else trunc whole + 1

/-- How many sectors a sensor reaches out. -/
def sectorRadiusForRange (metres : F) : Int :=
  if metres ≤ 0 then 0 else ceil (widen metres / ofInt sectorSize : D)

namespace Observed

def fresh : Observed F D := ⟨.fresh, .fresh, ⟨0, 0, 0⟩⟩

/-! ## Travel -/

def onTravelStart (o : Observed F D) (dest : UniversePos) : Observed F D :=
  { o with lastTravelSector := universeToSector dest }

/-- Subscribe the owner of a unit ahead to where it travels. -/
def prefetchTravelInterest (o : Observed F D) (netId : UInt32) (dest : UniversePos) :
    Observed F D :=
  match o.sim.ents.find netId with
  | none => o
  | some c =>
      match c.ownerId with
      | none => o
      | some owner =>
          if owner = 0 then o
          else { o with
            interest := o.interest.preSubscribe (gridId owner) (universeToSector dest)
              (c.sensor.elim 1 (sectorRadiusForRange (D := D))) }

def beginWarpTo (o : Observed F D) (netId : UInt32) (dest : UniversePos) : Bool × Observed F D :=
  let r := o.sim.beginWarpTo netId dest
  let o := { o with sim := r.2 }
  (r.1, if r.1 then (o.onTravelStart dest).prefetchTravelInterest netId dest else o)

/-- Where the beacon of a name is. -/
def beaconPos (u : ServerUniverse F D) (name : String) : Option UniversePos :=
  (Assoc.lookup u.beaconName name).bind fun i =>
    (u.dataset.beacons[i.toNat]?).map BeaconDef.pos

def beginJumpTo (o : Observed F D) (netId : UInt32) (destBeacon : String) :
    JumpReject × Observed F D :=
  let r := o.sim.beginJumpTo netId destBeacon
  let o := { o with sim := r.2 }
  (r.1,
    if r.1 = .accepted then
      (beaconPos o.sim destBeacon).elim o fun dest =>
        (o.onTravelStart dest).prefetchTravelInterest netId dest
    else o)

/-! ## Commands -/

/-- Claim a loot container, which is gone then, from the grid as well. -/
def claimLoot (o : Observed F D) (claimer container : UInt32) : Bool × Observed F D :=
  let r := o.sim.claimLoot claimer container
  (r.1, { o with
    sim := r.2
    interest := if r.1 then o.interest.remove (gridId container) else o.interest })

def applyIntentToUnit (o : Observed F D) (unitNet : UInt32) (cmd : FleetCommand F) :
    Bool × Observed F D :=
  match cmd.intent with
  | .warp => o.beginWarpTo unitNet cmd.targetPoint
  | .jump =>
      let r := o.beginJumpTo unitNet cmd.beacon
      (r.1 = .accepted, r.2)
  | .claimLoot => o.claimLoot unitNet cmd.targetNetId
  | _ =>
      let r := o.sim.applyIntentToUnit unitNet cmd
      (r.1, { o with sim := r.2 })

/-- A command to each of the units that the player owns, and how many took it. -/
def applyFleetCommand (o : Observed F D) (player : UInt32) (cmd : FleetCommand F) :
    Nat × Observed F D :=
  cmd.units.foldl
    (fun r unitNet =>
      if (r.2.sim.ents.find unitNet).bind Components.ownerId = some player then
        let a := r.2.applyIntentToUnit unitNet cmd
        (if a.1 then r.1 + 1 else r.1, a.2)
      else r)
    (0, o)

/-! ## Steps -/

/-- What is gone leaves the grid. -/
def forget (g : InterestGrid) (e : Entities F) : InterestGrid :=
  { g with entitySector := g.entitySector.filter fun n _ =>
      (e.entityOf (UInt32.ofNat n.val)).isSome }

/-- The sensor neighbourhoods of each player's units. -/
def sensorCells (e : Entities F) : OrdMap NetId (List SectorId) :=
  let eyes := e.world.alive.filterMap fun c =>
    match c.ownerId, c.sensor with
    | some owner, some range =>
        if owner = 0 then none
        else some (gridId owner, collectNeighbourhood (universeToSector c.transform.pos)
          (sectorRadiusForRange (D := D) range))
    | _, _ => none
  OrdMap.empty.upsertAll (fun old cells => old.getD [] ++ cells) eyes

/-- Home every entity in its sector and subscribe every player to its sensors' cells. -/
def updateInterest (o : Observed F D) : Observed F D :=
  let homed := o.sim.ents.world.alive.foldl
    (fun g c => g.updateResidency (gridId c.netId) (universeToSector c.transform.pos)) o.interest
  { o with
    interest := (sensorCells (D := D) o.sim.ents).entries.foldl
      (fun g e => g.setSubscription e.1 e.2) homed }

def step (o : Observed F D) (dt : F) : Observed F D :=
  let u := o.sim.step dt
  ({ o with sim := u, interest := forget o.interest u.ents } : Observed F D).updateInterest

/-- A universe after a call. -/
def apply (o : Observed F D) : Op F → Observed F D
  | .beginWarpTo netId dest => (o.beginWarpTo netId dest).2
  | .beginJumpTo netId beacon => (o.beginJumpTo netId beacon).2
  | .applyFleetCommand player cmd => (o.applyFleetCommand player cmd).2
  | .claimLoot claimer container => (o.claimLoot claimer container).2
  | .despawnBase netId =>
      let r := o.sim.despawnBase netId
      { o with
        sim := r.2
        interest := if r.1 then o.interest.remove (gridId netId) else o.interest }
  | .step dt => o.step dt
  | op => { o with sim := o.sim.apply op }

/-- A restored universe, which nobody looks at yet. -/
def restoreState (o : Observed F D) (order : List EntityHandle) (s : PersistState F) :
    Observed F D :=
  { o with sim := o.sim.restoreState order s, interest := .fresh }

end Observed

end

end Shard

end EarthRise
