import EarthRise.Core.ServerUniverse
import EarthRise.Lib.Rounding
import EarthRise.Lib.Arith

/-!
# Sensors and Fog

The distance, the sensor check and the cells of a sensor, as far as the machine's
numbers decide them.

Distances are doubles, rounded at every operation. The conversion of a range to a
number of cells is to a signed 32-bit number; what does not fit is not converted to
anything in particular, and the counters of the walk over the cells have 32 bits as
well. `none` stands for what the language leaves undefined. Ranges are finite floats,
whose quotient by the side of a sector and the ceiling of it are exact doubles.

What a player detects: its own entities, the beacons, what it has scanned, and what its
sensors reach.

A contact that was scanned for long enough is revealed to the player for good. The time is a
floating-point number of any kind.

## Main definitions

* `Machine.sensorDetect`: The check, by a rounded distance.
* `Machine.sectorRadiusForRange`, `collectNeighbourhood`: The cells of a sensor.
* `Machine.updateInterest`: What is made of all sensors.
* `Fog`, `Fog.orderScan`: What the players have scanned.
* `ServerUniverse.detectedSet`: What a player detects.
* `Fog.Known`: What it detects wherever its sensors are.
-/

namespace EarthRise

namespace Sim

namespace Machine

open Universe

/-- The arithmetic of doubles: an error of half a unit in the last of 53 bits. -/
abbrev Doubles := Arithmetic ℚ (1 / 2 ^ 53)

/-- The straight-line distance of positions whose differences fit a coordinate. -/
def universeDistance (A : Doubles) (a b : UniversePos) : ℚ :=
  A.length ((b.x - a.x : Int) : ℚ) ((b.y - a.y : Int) : ℚ) ((b.z - a.z : Int) : ℚ)

def sensorDetect (A : Doubles) (observer target : UniversePos) (range : ℚ) : Bool :=
  universeDistance A observer target ≤ range

/-- The conversion to an `int`. -/
def intOf (x : Int) : Option Int := if -2147483648 ≤ x ∧ x ≤ 2147483647 then some x else none

/-- The cells that a sensor range spans. -/
def sectorRadiusForRange (metres : ℚ) : Option Int :=
  if metres ≤ 0 then some 0 else intOf ⌈metres / sectorSize⌉

/-- The cells of the cube of half-width `radiusCells`. A counter that has to pass the
    last `int` to end does not end. -/
def collectNeighbourhood (center : SectorId) (radiusCells : Int) : Option (List SectorId) :=
  if radiusCells = 2147483647 then none else some (Sim.collectNeighbourhood center radiusCells)

/-- The cells around one eye. -/
def neighbourhood (eye : UniversePos) (range : ℚ) : Option (List SectorId) :=
  (sectorRadiusForRange range).bind (collectNeighbourhood (universeToSector eye))

/-- The sensor neighbourhoods of the owned sensors, in the order of their entities. -/
def eyeCells : List (NetId × Entity) → Option (List (NetId × List SectorId))
  | [] => some []
  | (_, e) :: rest =>
      match e.sensorRange with
      | none => eyeCells rest
      | some range =>
          if e.repl.ownerPlayer = 0 then eyeCells rest
          else
            (neighbourhood e.repl.pos range).bind fun cells =>
              (eyeCells rest).map fun eyes => (e.repl.ownerPlayer, cells) :: eyes

/-- Home every entity in its sector and subscribe every player to its sensors'
    cells. -/
def updateInterest (u : ServerUniverse) : Option ServerUniverse :=
  (eyeCells u.entities.entries).map fun eyes =>
    let homed := u.entities.entries.foldl
      (fun g e => g.updateResidency e.1 (universeToSector e.2.repl.pos)) u.interest
    let perPlayer := OrdMap.empty.upsertAll (fun old cells => old.getD [] ++ cells) eyes
    { u with
      interest := perPlayer.entries.foldl (fun g e => g.setSubscription e.1 e.2) homed }

end Machine

open Universe

/-- What is revealed to each player, and how long the scans under way have gone on. -/
structure Fog (F : Type) where
  revealed : OrdMap NetId (List NetId)
  scanDwell : OrdMap Nat F

namespace Fog

variable {F : Type}

def fresh : Fog F := ⟨OrdMap.empty, OrdMap.empty⟩

/-- What a player has scanned. -/
def revealedTo (fog : Fog F) (player : NetId) : List NetId := (fog.revealed.find? player).getD []

def isRevealedTo (fog : Fog F) (player netId : NetId) : Bool := netId ∈ fog.revealedTo player

/-- The key of a player's scan of a contact: the two ids, of 32 bits each. -/
def scanKey (player target : NetId) : Nat := player.val * 2 ^ 32 + target.val

/-- Go on with the scan of a contact, and whether it is revealed by then. -/
def orderScan [Floating F] (u : ServerUniverse) (fog : Fog F) (player target : NetId)
    (dt scanSeconds : F) : Bool × Fog F :=
  if (u.entities.find? target).isNone then (false, fog)
  else if fog.isRevealedTo player target then (true, fog)
  else
    let dwell := (fog.scanDwell.find? (scanKey player target)).getD 0 + dt
    let scanDwell := fog.scanDwell.insert (scanKey player target) dwell
    if scanSeconds ≤ dwell then
      (true, ⟨fog.revealed.insert player (fog.revealedTo player ++ [target]), scanDwell⟩)
    else (false, { fog with scanDwell := scanDwell })

/-- What a player detects unconditionally: its own, a beacon or gate, and what it has
    scanned. -/
def Known (fog : Fog F) (player netId : NetId) (e : Entity) : Prop :=
  (e.repl.ownerPlayer = player ∨ e.repl.kind = .structure') ∨ netId ∈ fog.revealedTo player

instance (fog : Fog F) (player netId : NetId) (e : Entity) :
    Decidable (fog.Known player netId e) :=
  inferInstanceAs (Decidable (_ ∨ _))

end Fog

def sensorDetect (sqrt : ℚ → ℚ) (observer target : UniversePos) (range : ℚ) : Bool :=
  universeDistance sqrt observer target ≤ range

namespace ServerUniverse

/-- The sensors of a player: where they are, and how far they reach. -/
def eyes (u : ServerUniverse) (player : NetId) : List (UniversePos × ℚ) :=
  u.entities.entries.filterMap fun (_, e) =>
    if e.repl.ownerPlayer = player then e.sensorRange.map fun range => (e.repl.pos, range)
    else none

/-- What a player detects. -/
def detectedSet {F : Type} (sqrt : ℚ → ℚ) (u : ServerUniverse) (fog : Fog F) (player : NetId) :
    List NetId :=
  let eyes := u.eyes player
  u.entities.entries.filterMap fun (netId, e) =>
    if e.repl.ownerPlayer = player ∨ e.repl.kind = .structure' then some netId
    else if fog.isRevealedTo player netId then some netId
    else if eyes.any fun eye => sensorDetect sqrt eye.1 e.repl.pos eye.2 then some netId
    else none

end ServerUniverse

end Sim

end EarthRise
