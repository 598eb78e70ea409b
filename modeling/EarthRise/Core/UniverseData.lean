import EarthRise.Core.Serde
import EarthRise.Core.Navigation
import EarthRise.Lib.Worklist

/-!
# The Cooked Universe

The layout that the tools cook and the server loads: regions, beacons with their links, the
fields of resources and the balance, as records of plain numbers and text, with the bytes
they are written as and the checks that they have to pass.

Names refer to one another as text. A security tier, a beacon kind and a resource type are
bytes, and only those with a name mean anything. The counts of the format are cast to their
widths when they are written.

The last check of the beacons is a search through the public ones, with a stack. It is
bounded by the number of beacons, which is as many turns as it can take.

## Main definitions

* `UniverseDataset` and its parts: The layout.
* `encodeUniverseDataset`, `decodeUniverseDataset`: The format.
* `navErrors`, `economyErrors`: The errors of a balance.
* `validateUniverseDataset`: The errors of a dataset.
-/

namespace EarthRise

namespace Cooked

open Serde
open Universe (Vec3)
open Shard (NavTuning EconomyTuning)

/-- Text as the bytes it is kept in. -/
abbrev Text := List UInt8

theorem Text.lawful : LawfulBEq Text := inferInstance

instance Text.decidableMem (t : Text) (l : List Text) : Decidable (t ∈ l) :=
  @List.instDecidableMemOfLawfulBEq Text _ Text.lawful t l

def securityHigh : UInt8 := 0

def kindPublic : UInt8 := 0

def kindClaimable : UInt8 := 1

structure SectorBounds where
  x0 : Int64
  x1 : Int64
  y0 : Int64
  y1 : Int64
  z0 : Int64
  z1 : Int64
  deriving DecidableEq

def SectorBounds.WellFormed (b : SectorBounds) : Prop :=
  b.x0 ≤ b.x1 ∧ b.y0 ≤ b.y1 ∧ b.z0 ≤ b.z1

instance SectorBounds.decidableWellFormed (b : SectorBounds) : Decidable b.WellFormed :=
  inferInstanceAs (Decidable (_ ∧ _))

structure RegionDef (F : Type) where
  name : Text
  security : UInt8
  bounds : SectorBounds
  yieldMult : F
  deriving DecidableEq

structure BeaconDef where
  name : Text
  region : Text
  pos : Vec3 Int64
  links : List Text
  kind : UInt8
  deriving DecidableEq

structure ResourceWeight (F : Type) where
  type : UInt8
  weight : F
  deriving DecidableEq

structure ResourceFieldDef (F : Type) where
  name : Text
  region : Text
  center : Vec3 Int64
  radius : F
  nodes : List (ResourceWeight F)
  countMin : UInt16
  countMax : UInt16
  yieldMin : Int32
  yieldMax : Int32
  respawnSeconds : UInt32
  deriving DecidableEq

structure UniverseDataset (F : Type) where
  regions : List (RegionDef F)
  beacons : List BeaconDef
  fields : List (ResourceFieldDef F)
  nav : NavTuning F
  economy : EconomyTuning F
  deriving DecidableEq

/-! ## The format -/

section

variable {F : Type} [FloatBits F]

def writeRegion (r : RegionDef F) : WriteM := do
  writeStr r.name
  writeUint8 r.security
  writeInt64 r.bounds.x0
  writeInt64 r.bounds.x1
  writeInt64 r.bounds.y0
  writeInt64 r.bounds.y1
  writeInt64 r.bounds.z0
  writeInt64 r.bounds.z1
  writeFloat r.yieldMult

def writeBeacon (b : BeaconDef) : WriteM := do
  writeStr b.name
  writeStr b.region
  writePos b.pos
  writeUint8 b.kind
  writeList16 writeStr b.links

def writeWeight (n : ResourceWeight F) : WriteM := do
  writeUint8 n.type
  writeFloat n.weight

def writeField (f : ResourceFieldDef F) : WriteM := do
  writeStr f.name
  writeStr f.region
  writePos f.center
  writeFloat f.radius
  writeList8 writeWeight f.nodes
  writeUint16 f.countMin
  writeUint16 f.countMax
  writeInt32 f.yieldMin
  writeInt32 f.yieldMax
  writeUint32 f.respawnSeconds

def writeNav (n : NavTuning F) : WriteM := do
  writeFloat n.warpSpeedShip
  writeFloat n.warpSpeedBase
  writeFloat n.warpAlignSeconds
  writeFloat n.jumpFuelShip
  writeFloat n.jumpFuelBase
  writeFloat n.jumpSpoolShip
  writeFloat n.jumpSpoolBase
  writeFloat n.jumpCooldownSeconds
  writeFloat n.beaconUseRange
  writeFloat n.shipFuelMax
  writeFloat n.baseFuelMax

def writeEconomy (e : EconomyTuning F) : WriteM := do
  writeUint16 e.fleetCap
  writeFloat e.cargoCapacity
  writeFloat e.storageCapacity
  writeFloat e.harvestRate
  writeFloat e.sensorRangeShip
  writeFloat e.sensorRangeBase
  writeFloat e.buildOreCost
  writeFloat e.buildIceCost
  writeFloat e.buildSeconds
  writeUint8 e.buildShipType
  writeFloat e.harvesterSpeed
  writeFloat e.harvestRange

def writeUniverseDataset (d : UniverseDataset F) : WriteM := do
  writeList16 writeRegion d.regions
  writeList16 writeBeacon d.beacons
  writeList16 writeField d.fields
  writeNav d.nav
  writeEconomy d.economy

def readRegion : ReadM (RegionDef F) := do
  let name ← readStr
  let security ← readUint8
  let x0 ← readInt64
  let x1 ← readInt64
  let y0 ← readInt64
  let y1 ← readInt64
  let z0 ← readInt64
  let z1 ← readInt64
  let yieldMult ← readFloat
  pure ⟨name, security, ⟨x0, x1, y0, y1, z0, z1⟩, yieldMult⟩

def readBeacon : ReadM BeaconDef := do
  let name ← readStr
  let region ← readStr
  let pos ← readPos
  let kind ← readUint8
  let links ← readList16 readStr
  pure ⟨name, region, pos, links, kind⟩

def readWeight : ReadM (ResourceWeight F) := do
  let type ← readUint8
  let weight ← readFloat
  pure ⟨type, weight⟩

def readField : ReadM (ResourceFieldDef F) := do
  let name ← readStr
  let region ← readStr
  let center ← readPos
  let radius ← readFloat
  let nodes ← readList8 readWeight
  let countMin ← readUint16
  let countMax ← readUint16
  let yieldMin ← readInt32
  let yieldMax ← readInt32
  let respawnSeconds ← readUint32
  pure ⟨name, region, center, radius, nodes, countMin, countMax, yieldMin, yieldMax,
    respawnSeconds⟩

def readNav : ReadM (NavTuning F) := do
  let warpSpeedShip ← readFloat
  let warpSpeedBase ← readFloat
  let warpAlignSeconds ← readFloat
  let jumpFuelShip ← readFloat
  let jumpFuelBase ← readFloat
  let jumpSpoolShip ← readFloat
  let jumpSpoolBase ← readFloat
  let jumpCooldownSeconds ← readFloat
  let beaconUseRange ← readFloat
  let shipFuelMax ← readFloat
  let baseFuelMax ← readFloat
  pure ⟨warpSpeedShip, warpSpeedBase, warpAlignSeconds, jumpFuelShip, jumpFuelBase,
    jumpSpoolShip, jumpSpoolBase, jumpCooldownSeconds, beaconUseRange, shipFuelMax, baseFuelMax⟩

def readEconomy : ReadM (EconomyTuning F) := do
  let fleetCap ← readUint16
  let cargoCapacity ← readFloat
  let storageCapacity ← readFloat
  let harvestRate ← readFloat
  let sensorRangeShip ← readFloat
  let sensorRangeBase ← readFloat
  let buildOreCost ← readFloat
  let buildIceCost ← readFloat
  let buildSeconds ← readFloat
  let buildShipType ← readUint8
  let harvesterSpeed ← readFloat
  let harvestRange ← readFloat
  pure ⟨fleetCap, cargoCapacity, storageCapacity, harvestRate, sensorRangeShip,
    sensorRangeBase, buildOreCost, buildIceCost, buildSeconds, buildShipType, harvesterSpeed,
    harvestRange⟩

def readUniverseDataset : ReadM (UniverseDataset F) := do
  let regions ← readList16 readRegion
  let beacons ← readList16 readBeacon
  let fields ← readList16 readField
  let nav ← readNav
  let economy ← readEconomy
  pure ⟨regions, beacons, fields, nav, economy⟩

def encodeUniverseDataset (d : UniverseDataset F) : List UInt8 :=
  encode (writeUniverseDataset d)

def decodeUniverseDataset (body : List UInt8) : Option (UniverseDataset F) :=
  decode readUniverseDataset body

end

/-! ## The checks -/

/-- What is wrong, with the names that the text of the error has. -/
inductive DatasetError
  | regionEmptyName
  | regionDuplicate (name : Text)
  | regionBounds (name : Text)
  | regionYield (name : Text)
  | beaconEmptyName
  | beaconDuplicate (name : Text)
  | beaconRegion (name region : Text)
  | beaconHighSec (name region : Text)
  | linkSelf (name : Text)
  | linkUnknown (name link : Text)
  | linkOneWay (name link : Text)
  | island (name : Text)
  | fieldEmptyName
  | fieldDuplicate (name : Text)
  | fieldRegion (name region : Text)
  | fieldRadius (name : Text)
  | fieldNoNodes (name : Text)
  | fieldWeight (name : Text) (type : UInt8)
  | fieldSum (name : Text)
  | fieldCount (name : Text)
  | fieldYield (name : Text)
  | tuning (message : String)
  deriving DecidableEq

/-- The error where the condition holds. -/
def errorIf {E : Type} (p : Prop) [Decidable p] (e : E) : List E := if p then [e] else []

/-- The errors of a list of named things: of each its name, which has to be there and not to
    have come before, and then what else is wrong with it. -/
def namedErrors {α : Type} (name : α → Text) (empty : DatasetError)
    (duplicate : Text → DatasetError) (errors : α → List DatasetError) :
    List Text → List α → List DatasetError
  | _, [] => []
  | seen, a :: as =>
      (if name a = [] then [empty] else errorIf (name a ∈ seen) (duplicate (name a))) ++
      errors a ++ namedErrors name empty duplicate errors
        (if name a = [] then seen else name a :: seen) as

namespace UniverseDataset

variable {F : Type} (d : UniverseDataset F)

def findRegion (n : Text) : Option (RegionDef F) := d.regions.find? fun r => r.name = n

/-- The names that the regions have. -/
def regionNames : List Text := (d.regions.map RegionDef.name).filter fun n => n ≠ []

/-- The region that a name stands for. -/
def regionOf (n : Text) : Option (RegionDef F) :=
  if n ∈ d.regionNames then d.findRegion n else none

/-- The first beacon of a name. -/
def beaconByName (n : Text) : Option BeaconDef :=
  (d.beacons.filter fun b => b.name ≠ []).find? fun b => b.name = n

def linkErrors (b : BeaconDef) (l : Text) : List DatasetError :=
  if l = b.name then [.linkSelf b.name]
  else
    match d.beaconByName l with
    | none => [.linkUnknown b.name l]
    | some back => errorIf (b.name ∉ back.links) (.linkOneWay b.name l)

def beaconErrors (b : BeaconDef) : List DatasetError :=
  if b.name = [] then []
  else
    errorIf (d.regionOf b.region).isNone (.beaconRegion b.name b.region) ++
    errorIf (b.kind = kindClaimable ∧ (d.regionOf b.region).any fun r => r.security = securityHigh)
      (.beaconHighSec b.name b.region) ++
    b.links.flatMap (d.linkErrors b)

/-! ### The public beacons -/

def publicBeacons : List BeaconDef :=
  d.beacons.filter fun b => b.name ≠ [] ∧ b.kind = kindPublic

/-- The public beacon that a name stands for. -/
def publicByName (n : Text) : Option BeaconDef :=
  (d.beaconByName n).filter fun b => b.kind = kindPublic

/-- The search from a beacon along the links to public ones. -/
def search (first : BeaconDef) : Worklist Text BeaconDef :=
  Worklist.loop d.publicByName BeaconDef.links d.beacons.length (.single first.name first)

def islandErrors : List DatasetError :=
  match d.publicBeacons with
  | first :: second :: rest =>
      (first :: second :: rest).flatMap fun b =>
        errorIf (b.name ∉ (d.search first).reached) (.island b.name)
  | _ => []

end UniverseDataset

section

variable {F : Type} [Floating F]

def regionErrors (r : RegionDef F) : List DatasetError :=
  errorIf (¬ r.bounds.WellFormed) (.regionBounds r.name) ++
  errorIf (r.yieldMult < 0) (.regionYield r.name)

/-- The sum of the weights, added up in their order. -/
def ResourceFieldDef.weightSum (f : ResourceFieldDef F) : F :=
  f.nodes.foldl (fun sum n => sum + n.weight) 0

def fieldErrors (d : UniverseDataset F) (f : ResourceFieldDef F) : List DatasetError :=
  errorIf (f.region ∉ d.regionNames) (.fieldRegion f.name f.region) ++
  errorIf (f.radius ≤ 0) (.fieldRadius f.name) ++
  errorIf (f.nodes = []) (.fieldNoNodes f.name) ++
  (f.nodes.flatMap fun n => errorIf (n.weight ≤ 0) (.fieldWeight f.name n.type)) ++
  errorIf (f.nodes ≠ [] ∧ (f.weightSum < 0.999 ∨ 1.001 < f.weightSum)) (.fieldSum f.name) ++
  errorIf (f.countMax < f.countMin) (.fieldCount f.name) ++
  errorIf (f.yieldMax < f.yieldMin) (.fieldYield f.name)

def navErrors (n : NavTuning F) : List String :=
  errorIf (n.warpSpeedShip ≤ 0 ∨ n.warpSpeedBase ≤ 0) "nav warp speed must be > 0" ++
  errorIf (n.beaconUseRange ≤ 0) "nav beacon_range must be > 0" ++
  errorIf (n.shipFuelMax ≤ 0 ∨ n.baseFuelMax ≤ 0) "nav fuel_max must be > 0" ++
  errorIf (n.warpAlignSeconds < 0 ∨ n.jumpSpoolShip < 0 ∨ n.jumpSpoolBase < 0 ∨
    n.jumpCooldownSeconds < 0 ∨ n.jumpFuelShip < 0 ∨ n.jumpFuelBase < 0)
    "nav timings/costs must be ≥ 0"

def economyErrors (e : EconomyTuning F) : List String :=
  errorIf (e.fleetCap = 0 ∨ 64 < e.fleetCap) "economy fleet_cap must be 1..64" ++
  errorIf (e.cargoCapacity ≤ 0 ∨ e.storageCapacity ≤ 0) "economy capacities must be > 0" ++
  errorIf (e.harvestRate ≤ 0) "economy harvest_rate must be > 0" ++
  errorIf (e.buildSeconds ≤ 0) "economy build_seconds must be > 0" ++
  errorIf (e.buildOreCost < 0 ∨ e.buildIceCost < 0) "economy build costs must be ≥ 0" ++
  errorIf (e.sensorRangeShip < 0 ∨ e.sensorRangeBase < 0) "economy sensor ranges must be ≥ 0" ++
  errorIf (e.harvesterSpeed ≤ 0 ∨ e.harvestRange ≤ 0) "economy harvester speed/range must be > 0"

/-- The errors of a dataset; one without is accepted. -/
def validateUniverseDataset (d : UniverseDataset F) : List DatasetError :=
  namedErrors RegionDef.name .regionEmptyName .regionDuplicate regionErrors [] d.regions ++
  namedErrors BeaconDef.name .beaconEmptyName .beaconDuplicate (fun _ => []) [] d.beacons ++
  d.beacons.flatMap d.beaconErrors ++
  d.islandErrors ++
  namedErrors ResourceFieldDef.name .fieldEmptyName .fieldDuplicate (fieldErrors d) []
    d.fields ++
  (navErrors d.nav ++ economyErrors d.economy).map .tuning

end

/-- The default balance passes its own check. -/
theorem default_tuning_valid : navErrors (NavTuning.default (F := Float32)) = [] ∧
    economyErrors (EconomyTuning.default (F := Float32)) = [] := by
  decide +kernel

end Cooked

end EarthRise
