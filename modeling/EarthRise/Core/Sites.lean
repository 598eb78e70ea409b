import EarthRise.Core.Shard

/-!
# Resource Sites and Beacons

What a universe says of its sites, and a record of what it was asked.

A site is named by an id. A universe counts the guardians of each site and reports a site as
cleared when its count comes to nothing. The record beside it has the ids that were given to
sites and the reports that the host has taken out.

The beacons that are alive, the universe that the live server starts with, and the part of a
jump that reads the list of beacons.

Loading a universe replaces the list of beacons and adds to the tables of names and of
entities. A name of an earlier list stays in the table, with the index that it had. What a
jump reads of the list is what the tables tell it, so whether it reads past the end is a
question of its own; `beginJumpTo` refuses there, and the source does not ask.

## Main definitions

* `npcSiteAlive`, `guardians`: The count that is kept, and the guardians that are alive.
* `Sites`, `Sites.call`, `Sites.restart`: A universe with the record of its sites.
* `liveBeacons`: The beacons that are alive.
* `loadUniverseFromCooked`: Loading from bytes.
* `readsPast`: A jump reads past the end of the list.
* `Setup`, `setup`: What is done to a universe before its units set out.
* `demoDataset`: The universe that the live server starts with.
-/

namespace EarthRise

namespace Shard

open Ecs (EntityHandle)

section

variable {F D : Type}

/-- The site that an entity guards. -/
def Components.post (c : Components F) : Option UInt16 := c.npcAi.map NpcAi.siteId

namespace ServerUniverse

/-- How many guardians of a site are left, by its count. -/
def npcSiteAlive (u : ServerUniverse F D) (siteId : UInt16) : Int :=
  (Assoc.lookup u.siteAlive siteId).getD 0

/-- How many guardians of a site are alive. -/
def guardians (u : ServerUniverse F D) (siteId : UInt16) : Nat :=
  u.ents.world.alive.countP fun c => c.post = some siteId

end ServerUniverse

/-- A universe, the ids that were given to sites and the reports that were taken out. -/
structure Sites (F D : Type) where
  running : ServerUniverse F D
  given : List UInt16
  drained : List UInt16

end

namespace Sites

variable {F D : Type} [Floating F] [Floating D] [Widens F D]

def start : Sites F D := ⟨.fresh, [], []⟩

/-- A call and what is noted of it. -/
def call (s : Sites F D) (o : Op F) : Sites F D where
  running := s.running.apply o
  given := match o with
    | .spawnNpcSite .. => s.given ++ [s.running.nextSiteId]
    | _ => s.given
  drained := match o with
    | .drain .clearedSites => s.drained ++ s.running.clearedSites
    | _ => s.drained

/-- A snapshot, restored into a universe that holds whatever it holds. -/
def restart (s : Sites F D) (into : ServerUniverse F D) (order : List EntityHandle) : Sites F D :=
  { s with running := into.restoreState order s.running.captureState }

end Sites

open Universe (Vec3 UniversePos)

section

variable {F D : Type}

/-- The index and the place of a beacon. -/
def Components.beacon (c : Components F) : Multiset (UInt16 × UniversePos) :=
  c.beaconTag.elim 0 fun i => {(i, c.transform.pos)}

/-- The index and the place of each beacon that a dataset has. -/
def UniverseDataset.sites (d : UniverseDataset F) : Multiset (UInt16 × UniversePos) :=
  ↑(d.beacons.zipIdx.map fun b => (UInt16.ofNat b.2, b.1.pos))

namespace ServerUniverse

/-- The beacons that are alive. -/
def liveBeacons (u : ServerUniverse F D) : Multiset (UInt16 × UniversePos) :=
  (u.ents.world.alive.map Components.beacon).sum

variable [Floating F] [Floating D] [Widens F D]

/-- Load a cooked universe, unless its bytes are refused. -/
def loadUniverseFromCooked (decode : List UInt8 → Option (UniverseDataset F))
    (u : ServerUniverse F D) (blob : List UInt8) : Bool × ServerUniverse F D :=
  match decode blob with
  | none => (false, u)
  | some data => (true, u.loadUniverse data)

/-- A jump gets to the list of beacons with an index that is past its end. -/
def readsPast (u : ServerUniverse F D) (netId : UInt32) (destBeacon : String) : Bool :=
  match u.ents.find netId with
  | none => false
  | some c =>
      match c.navState, c.fuel, Assoc.lookup u.beaconName destBeacon,
        u.nearestBeaconWithin c.transform.pos u.nav.beaconUseRange with
      | some _, some _, some destIdx, some srcIdx =>
          u.dataset.beacons.length ≤ srcIdx ∨ u.dataset.beacons.length ≤ destIdx.toNat
      | _, _, _, _ => false

end ServerUniverse

/-! ## Before the units set out -/

/-- A call that neither loads a universe nor may remove an entity. -/
def Op.Quiet : Op F → Prop
  | .loadUniverse _ | .applyFleetCommand .. | .claimLoot .. | .despawnBase _ | .step _ => False
  | _ => True

/-- What is done to a universe before its units set out: it is loaded, as often as one likes,
    and units are spawned and told what to do. -/
inductive Setup (F : Type)
  | load (data : UniverseDataset F)
  | loadFromCooked (blob : List UInt8)
  | call (o : Op F) (h : o.Quiet)

variable [Floating F] [Floating D] [Widens F D]

def setup (decode : List UInt8 → Option (UniverseDataset F)) (u : ServerUniverse F D) :
    Setup F → ServerUniverse F D
  | .load data => u.loadUniverse data
  | .loadFromCooked blob => (u.loadUniverseFromCooked decode blob).2
  | .call o _ => u.apply o

/-! ## The universe that the live server starts with -/

/-- Where the dev seed is: close to the far border of the first sector. -/
def demoX : Int := Universe.sectorSize - 200

def demoDataset : UniverseDataset F where
  beacons := [
    ⟨"DEMO_GATE_W", ⟨demoX - 900, 0, 260⟩, ["DEMO_GATE_E"]⟩,
    ⟨"DEMO_GATE_E", ⟨demoX + 900, 0, 260⟩, ["DEMO_GATE_W"]⟩]
  fields := []
  nav := .default
  economy := { EconomyTuning.default with
    cargoCapacity := 200.0
    harvestRate := 200.0
    harvesterSpeed := 1500.0
    harvestRange := 600.0
    buildOreCost := 200.0
    buildIceCost := 0
    buildSeconds := 6.0 }

end

end Shard

end EarthRise
