import EarthRise.Core.Ecs
import EarthRise.Core.Combat
import EarthRise.Core.EconomyOutbox
import EarthRise.Lib.Assoc

/-!
# The Simulated Universe

The entities of a shard, what makes them and removes them, and what players and the
host can ask for between two steps. `Core.ServerUniverse` has the other half of the
class, which sends the entities to the clients.

Every entity is found by its net id. Spawning takes the next id, and a unit that is
spawned with a fit gets the layers, the weapons and the modules that the catalog has for
it. The counter of net ids is 32 bits wide; here it counts on, and the id taken has its
low 32 bits.

## Main definitions

* `Entities`: The entity store and the net ids.
* `ServerUniverse`: The universe.
* `spawnBase`, `spawnFleetShipFit`, `spawnNpcSite`, `loadUniverse`: What makes entities.
* `destroyUnit`, `despawnBase`, `claimLoot`: What removes them.
* `beginWarpTo`, `beginJumpTo`, `enqueueBuild`, `orderHarvest`, `applyFleetCommand`: What
  units are told to do.
-/

namespace EarthRise

namespace Shard

open Ecs (World EntityHandle)
open Universe (Vec3 UniversePos)
open Sim (EntityKind)
open Persist (EconEvent)

/-! ## Shapes -/

inductive ShapeCategory
  | asteroid
  | crate
  | decoration
  | hull
  | jumpgate
  | spaceObject
  | specialObject
  | station
  deriving DecidableEq, Repr

namespace ShapeCategory

def toByte : ShapeCategory → UInt8
  | .asteroid => 0
  | .crate => 1
  | .decoration => 2
  | .hull => 3
  | .jumpgate => 4
  | .spaceObject => 5
  | .specialObject => 6
  | .station => 7

/-- The kind that an entity of a category has by default. -/
def kind : ShapeCategory → EntityKind
  | .asteroid => ⟨8⟩
  | .crate => ⟨6⟩
  | .decoration => ⟨10⟩
  | .hull => ⟨2⟩
  | .jumpgate => ⟨11⟩
  | .spaceObject => ⟨9⟩
  | .specialObject => ⟨11⟩
  | .station => ⟨7⟩

end ShapeCategory

/-- The category of each shape of the catalog, by its id. -/
def shapeCategories : List ShapeCategory :=
  List.replicate 6 .asteroid ++ List.replicate 3 .crate ++ List.replicate 4 .decoration ++
  List.replicate 37 .hull ++ [.jumpgate] ++ List.replicate 9 .spaceObject ++
  List.replicate 5 .specialObject ++ List.replicate 5 .station

def shapeById (id : UInt16) : Option ShapeCategory := shapeCategories[id.toNat]?

/-- The shape `Outpost01`. -/
def baseShapeId : UInt16 := 68

/-- The shape `Jumpgate01`. -/
def beaconShapeId : UInt16 := 50

/-- The shape `HullShuttle`. -/
def shipShapeId : UInt16 := 31

/-- The shape `Crate01`. -/
def lootShapeId : UInt16 := 6

def projShapeId : UInt16 := 0

/-- The shapes `Asteroid01Rock`, `Asteroid04Ice` and `Asteroid06Lava`. -/
def nodeShapeId : ResourceType → UInt16
  | .ore => 0
  | .ice => 3
  | .gas => 5

/-! ## Entities -/

/-- The entity store, and the entity of each net id. -/
structure Entities (F : Type) where
  world : World (Components F)
  netIdToEntity : List (UInt32 × EntityHandle)
  deriving DecidableEq

namespace Entities

variable {F : Type}

def fresh : Entities F := { world := World.fresh, netIdToEntity := [] }

def entityOf (e : Entities F) (netId : UInt32) : Option EntityHandle :=
  Assoc.lookup e.netIdToEntity netId

/-- The components of the entity of a net id. -/
def find (e : Entities F) (netId : UInt32) : Option (Components F) :=
  (e.entityOf netId).bind e.world.get

def isAlive (e : Entities F) (netId : UInt32) : Bool := (e.find netId).isSome

/-- Change the entity of a net id. -/
def modify (e : Entities F) (netId : UInt32) (f : Components F → Components F) : Entities F :=
  match e.entityOf netId with
  | none => e
  | some h => { e with world := e.world.modify h f }

/-- Change the entity in a slot. -/
def modifyAt (e : Entities F) (i : Nat) (f : Components F → Components F) : Entities F :=
  { e with world := e.world.modifyAt i f }

/-- Change every entity by itself. -/
def forEach (e : Entities F) (f : Components F → Components F) : Entities F :=
  { e with world := e.world.forEach f }

/-- A new entity, found by its net id from now on. -/
def insert (e : Entities F) (c : Components F) : Entities F :=
  let (h, world) := e.world.createEntity c
  { world := world, netIdToEntity := (c.netId, h) :: Assoc.erase e.netIdToEntity c.netId }

/-- The entity of a net id is gone, and so is the id. -/
def remove (e : Entities F) (netId : UInt32) : Entities F :=
  { world := (e.entityOf netId).elim e.world e.world.destroyEntity
    netIdToEntity := Assoc.erase e.netIdToEntity netId }

def isBase (e : Entities F) (netId : UInt32) : Bool := (e.find netId).any Components.baseTag

/-- The owner of an entity, zero where it has none. -/
def ownerOf (e : Entities F) (netId : UInt32) : UInt32 :=
  ((e.find netId).bind Components.ownerId).getD 0

end Entities

/-! ## The universe -/

structure BeaconDef where
  name : String
  pos : UniversePos
  links : List String
  deriving DecidableEq

structure ResourceFieldDef (F : Type) where
  center : UniversePos
  radius : F
  nodes : List (ResourceType × F)
  countMin : UInt16
  yieldMin : Int
  yieldMax : Int
  deriving DecidableEq

/-- What the simulation reads of a cooked universe. -/
structure UniverseDataset (F : Type) where
  beacons : List BeaconDef
  fields : List (ResourceFieldDef F)
  nav : NavTuning F
  economy : EconomyTuning F
  deriving DecidableEq

/-- The record of a kill. -/
structure Killmail where
  victimNetId : UInt32
  killerNetId : UInt32
  victimKind : EntityKind
  value : Int
  tick : UInt32
  deriving DecidableEq

structure ServerUniverse (F D : Type) where
  ents : Entities F
  dataset : UniverseDataset F
  nav : NavTuning F
  economy : EconomyTuning F
  combat : CombatCatalog F
  beaconEntity : List (UInt16 × UInt32)
  beaconName : List (String × UInt16)
  buildCompleted : List UInt32
  siteAlive : List (UInt16 × Int)
  clearedSites : List UInt16
  nextSiteId : UInt16
  simTime : D
  projectileSubSteps : Nat
  baseRetreatHullFrac : F
  baseRetreatSeconds : F
  lootFraction : F
  lootExpireSeconds : F
  combatEnabled : Bool
  econEvents : List EconEvent
  killmails : List Killmail
  lowHullAlerts : List UInt32
  nextNetId : Nat
  tick : UInt32

/-- What a command asks for; a byte that names nothing is `other`. -/
inductive IntentType
  | stop
  | move
  | attack
  | guard
  | orbit
  | keepRange
  | harvest
  | warp
  | jump
  | retreat
  | build
  | claimLoot
  | other
  deriving DecidableEq, Repr

structure FleetCommand (F : Type) where
  intent : IntentType
  queue : Bool
  units : List UInt32
  targetNetId : UInt32
  targetPoint : UniversePos
  range : F
  beacon : String
  deriving DecidableEq

def defaultShipFit : String := "fighter-kin"

def npcFit : String := "fighter-kin"

def baseFit : String := "base-firesupport"

section

variable {F D : Type} [Floating F] [Floating D] [Widens F D]

/-! ## Fits -/

/-- What the passive modules of a fit add up to. -/
structure FitBonus (F : Type) where
  dmgAmp : F
  trackAmp : F
  shieldBoost : F
  plateArmor : Int

def FitBonus.add (b : FitBonus F) (m : ModuleDef F) : FitBonus F :=
  match m.kind with
  | .damageAmp => { b with dmgAmp := b.dmgAmp + m.strength }
  | .trackingEnhancer => { b with trackAmp := b.trackAmp + m.strength }
  | .shieldBooster => { b with shieldBoost := b.shieldBoost + m.strength }
  | .armorPlate => { b with plateArmor := b.plateArmor + trunc m.strength }
  | _ => b

/-- The longest reach of the weapons and their damage over time. -/
def deriveWeaponSummary (modules : List (ModuleInstance F)) : Weapon F :=
  (modules.filter fun mi => mi.info.kind = .weapon).foldl
    (fun w mi =>
      { w with
        range := fmax w.range (mi.info.optimal + mi.info.falloff)
        dps := w.dps + mi.info.baseDamage * mi.info.rateOfFire })
    ⟨0, 0, 0⟩

/-- A module as it is fitted; a weapon has the passive bonuses in its numbers. -/
def fitModule (b : FitBonus F) (m : ModuleDef F) : ModuleInstance F where
  info :=
    if m.kind = .weapon then
      { m with baseDamage := m.baseDamage * (1 + b.dmgAmp), tracking := m.tracking + b.trackAmp }
    else m
  cooldown := 0
  pending := 0

/-- Give a unit the layers, weapons and modules of a hull with modules. -/
def installFitDirect (c : Components F) (hull : HullClass F) (mods : List (ModuleDef F)) :
    Components F :=
  let b := mods.foldl FitBonus.add ⟨0, 0, 0, 0⟩
  let armor := hull.armorHp + b.plateArmor
  let d : DefenseLayers F :=
    { shield := ⟨hull.shieldHp, hull.shieldHp⟩
      armor := ⟨armor, armor⟩
      hull := ⟨hull.hullHp, hull.hullHp⟩
      shieldRegenPerSec := hull.shieldRegenPerSec + b.shieldBoost
      regenPending := 0 }
  let modules := mods.map (fitModule b)
  { c with
    defense := some d
    resists := some hull.resists
    hullInfo := some ⟨hull.signature, hull.maxSpeed, hull.size⟩
    ewar := some (c.ewar.getD .initial)
    weapon := some (deriveWeaponSummary modules)
    fitting := some
      { modules := modules
        pgUsed := mods.foldl (fun x m => x + m.pgCost) 0
        pgMax := hull.pgMax
        cpuUsed := mods.foldl (fun x m => x + m.cpuCost) 0
        cpuMax := hull.cpuMax
        slots := hull.slots }
    health := some ⟨d.totalCur, d.totalMax⟩ }

/-- Install the fit of a name, unless it or its hull is unknown. Modules that are
    unknown are left out. -/
def installFit (combat : CombatCatalog F) (c : Components F) (fitName : String) :
    Option (Components F) :=
  match combat.findFit fitName with
  | none => none
  | some ft =>
      match combat.findHull ft.hull with
      | none => none
      | some hull => some (installFitDirect c hull (ft.modules.filterMap combat.findModule))

/-- Install a fit, or the other one where its name is bad, or none. -/
def installFitOr (combat : CombatCatalog F) (c : Components F) (fitName otherwise : String) :
    Components F :=
  (installFit combat c fitName).getD ((installFit combat c otherwise).getD c)

end

namespace ServerUniverse

section

variable {F D : Type} [Floating F] [Floating D] [Widens F D]

/-- A universe without an entity, with the default balance. -/
def fresh : ServerUniverse F D where
  ents := .fresh
  dataset := ⟨[], [], .default, .default⟩
  nav := .default
  economy := .default
  combat := defaultCombatCatalog
  beaconEntity := []
  beaconName := []
  buildCompleted := []
  siteAlive := []
  clearedSites := []
  nextSiteId := 1
  simTime := 0
  projectileSubSteps := 4
  baseRetreatHullFrac := 0.15
  baseRetreatSeconds := 30.0
  lootFraction := 0.5
  lootExpireSeconds := 300.0
  combatEnabled := true
  econEvents := []
  killmails := []
  lowHullAlerts := []
  nextNetId := 1
  tick := 0

/-! ## Spawning -/

/-- The next net id. -/
def nextId (u : ServerUniverse F D) : UInt32 := UInt32.ofNat u.nextNetId

/-- Take the next net id for a new entity. -/
def spawn (u : ServerUniverse F D) (c : UInt32 → Components F) : ServerUniverse F D :=
  { u with ents := u.ents.insert (c u.nextId), nextNetId := u.nextNetId + 1 }

def maxBaseSpeed : F := 50.0

/-- A base before its fit. -/
def baseComponents (u : ServerUniverse F D) (start : UniversePos) (vel : Vec3 F)
    (netId : UInt32) : Components F :=
  { Components.bare netId start ⟨baseShapeId, .base⟩ with
    velocity := some (clampSpeed vel maxBaseSpeed)
    baseTag := true
    fuel := some ⟨u.nav.baseFuelMax, u.nav.baseFuelMax⟩
    navState := some .initial
    ownerId := some netId
    storage := some (.empty u.economy.storageCapacity)
    buildQueue := some .initial
    sensor := some u.economy.sensorRangeBase
    fleetOrder := some .initial
    baseCombat := some .initial }

def spawnBase (u : ServerUniverse F D) (start : UniversePos) (vel : Vec3 F) : ServerUniverse F D :=
  u.spawn fun netId =>
    let c := u.baseComponents start vel netId
    (installFit u.combat c baseFit).getD c

/-- A piece of scenery. -/
def spawnProp (u : ServerUniverse F D) (shapeId : UInt16) (pos : UniversePos) :
    ServerUniverse F D :=
  u.spawn fun netId =>
    .bare netId pos ⟨shapeId, ((shapeById shapeId).map ShapeCategory.kind).getD .unknown⟩

def spawnResourceNode (u : ServerUniverse F D) (type : ResourceType) (yield : F)
    (pos : UniversePos) : ServerUniverse F D :=
  u.spawn fun netId =>
    { Components.bare netId pos ⟨nodeShapeId type, ⟨4⟩⟩ with
      resourceNode := some ⟨type, yield⟩ }

/-- How many ships a player has. -/
def ownedShipCount (u : ServerUniverse F D) (player : UInt32) : UInt16 :=
  UInt16.ofNat (u.ents.world.alive.countP fun c => c.ownerId = some player ∧ c.shipTag.isSome)

/-- A ship before its fit. -/
def shipComponents (u : ServerUniverse F D) (player : UInt32) (shapeId : UInt16)
    (pos : UniversePos) (netId : UInt32) : Components F :=
  { Components.bare netId pos ⟨shapeId, .ship⟩ with
    velocity := some Vec3.zero
    shipTag := some (((shapeById shapeId).map ShapeCategory.toByte).getD 0)
    ownerId := some player
    cargo := some (.empty u.economy.cargoCapacity)
    fuel := some ⟨u.nav.shipFuelMax, u.nav.shipFuelMax⟩
    navState := some .initial
    sensor := some u.economy.sensorRangeShip
    fleetMember := some 0
    fleetOrder := some .initial }

/-- A ship of a player, unless the player has all that the cap allows. -/
def spawnFleetShipFit (u : ServerUniverse F D) (player : UInt32) (shapeId : UInt16)
    (pos : UniversePos) (fitName : String) : UInt32 × ServerUniverse F D :=
  if u.economy.fleetCap ≤ u.ownedShipCount player then (0, u)
  else
    (u.nextId, u.spawn fun netId =>
      installFitOr u.combat (u.shipComponents player shapeId pos netId) fitName defaultShipFit)

def spawnFleetShip (u : ServerUniverse F D) (player : UInt32) (shapeId : UInt16)
    (pos : UniversePos) : UInt32 × ServerUniverse F D :=
  u.spawnFleetShipFit player shapeId pos defaultShipFit

def npcAggroRange : F := 6000.0

def npcFleeHpFrac : F := 0.15

/-- A guardian before its fit and its mind. -/
def npcComponents (pos : UniversePos) (netId : UInt32) : Components F :=
  { Components.bare netId pos ⟨shipShapeId, .npcUnit⟩ with
    velocity := some Vec3.zero
    shipTag := some 0
    ownerId := some 0
    fleetOrder := some .initial }

/-- A guardian of a site. -/
def spawnNpcGuardian (u : ServerUniverse F D) (pos : UniversePos) (siteId : UInt16)
    (fitName : String) : ServerUniverse F D :=
  u.spawn fun netId =>
    { installFitOr u.combat (npcComponents pos netId) fitName npcFit with
      npcAi := some ⟨.defend, pos, npcAggroRange, npcFleeHpFrac, 0, siteId⟩ }

/-- A point of a ring. -/
def onRing (center : UniversePos) (i n : Nat) (radius : D) : UniversePos :=
  let ang : D := 2.0 * 3.14159265358979323846 * ofInt i / ofInt n
  ⟨center.x + lround (Widens.cos F ang * radius), center.y,
    center.z + lround (Widens.sin F ang * radius)⟩

/-- A site with a ring of guardians. -/
def spawnNpcSite (u : ServerUniverse F D) (center : UniversePos) (count : Int) (radius : F)
    (fitName : String) : ServerUniverse F D :=
  let siteId := u.nextSiteId
  let n := (max 1 (min count 32)).toNat
  let u := { u with
    nextSiteId := siteId + 1
    siteAlive := (siteId, (n : Int)) :: Assoc.erase u.siteAlive siteId }
  (List.range n).foldl
    (fun u i => u.spawnNpcGuardian (onRing (F := F) center i n (widen radius)) siteId fitName) u

/-! ## The cooked universe -/

/-- The type of a node of a field, by the weights of the field's composition. -/
def pickFieldType (frac : D) : ResourceType → D → List (ResourceType × F) → ResourceType
  | last, _, [] => last
  | _, cum, (type, weight) :: rest =>
      let cum := cum + widen weight
      if frac ≤ cum then type else pickFieldType frac type cum rest

/-- The nodes of a field, on a ring. -/
def spawnField (u : ServerUniverse F D) (f : ResourceFieldDef F) : ServerUniverse F D :=
  let count := max 1 (min f.countMin.toNat 8)
  let yield : F := 0.5 * (ofInt f.yieldMin + ofInt f.yieldMax)
  (List.range count).foldl
    (fun u i =>
      let ang : D := 2.0 * 3.14159265358979323846 * ofInt i / ofInt count
      let type := pickFieldType ((ofInt i + 0.5) / ofInt count) .ore 0 f.nodes
      u.spawnResourceNode type yield
        ⟨f.center.x + lround (Widens.cos F ang * widen f.radius * 0.5), f.center.y,
          f.center.z + lround (Widens.sin F ang * widen f.radius * 0.5)⟩)
    u

def spawnBeacon (u : ServerUniverse F D) (bi : UInt16) (b : BeaconDef) : ServerUniverse F D :=
  let spawned := u.spawn fun netId =>
    { Components.bare netId b.pos ⟨beaconShapeId, .structure'⟩ with beaconTag := some bi }
  { spawned with
    beaconEntity := (bi, u.nextId) :: Assoc.erase u.beaconEntity bi
    beaconName := (b.name, bi) :: Assoc.erase u.beaconName b.name }

/-- The net id of a beacon, zero where there is none of that name. -/
def beaconNetId (u : ServerUniverse F D) (name : String) : UInt32 :=
  ((Assoc.lookup u.beaconName name).bind (Assoc.lookup u.beaconEntity)).getD 0

/-- Take over a cooked universe: its balance, its beacons and the nodes of its fields.
    The beacons are counted in 16 bits. -/
def loadUniverse (u : ServerUniverse F D) (data : UniverseDataset F) : ServerUniverse F D :=
  let u := { u with dataset := data, nav := data.nav, economy := data.economy }
  let beacons := data.beacons.take (UInt16.ofNat data.beacons.length).toNat
  let u := beacons.zipIdx.foldl (fun u b => u.spawnBeacon (UInt16.ofNat b.2) b.1) u
  data.fields.foldl spawnField u

/-! ## Removal -/

/-- One guardian fewer; a site without any is cleared. -/
def leaveSite (u : ServerUniverse F D) (siteId : UInt16) : ServerUniverse F D :=
  match Assoc.lookup u.siteAlive siteId with
  | none => u
  | some n =>
      if n - 1 ≤ 0 then
        { u with
          siteAlive := Assoc.adjust u.siteAlive siteId fun _ => 0
          clearedSites := u.clearedSites ++ [siteId] }
      else { u with siteAlive := Assoc.adjust u.siteAlive siteId fun _ => n - 1 }

/-- Remove a destroyed unit. -/
def destroyUnit (u : ServerUniverse F D) (netId : UInt32) : ServerUniverse F D :=
  let left := match (u.ents.find netId).bind Components.npcAi with
    | none => u
    | some ai => u.leaveSite ai.siteId
  { left with ents := u.ents.remove netId }

/-- Remove an entity whose net id the host no longer wants; the host asks for bases. -/
def despawnBase (u : ServerUniverse F D) (netId : UInt32) : Bool × ServerUniverse F D :=
  match u.ents.entityOf netId with
  | none => (false, u)
  | some _ => (true, { u with ents := u.ents.remove netId })

/-- Move loot into a ship, as much as it has room for. -/
def takeLoot : List ResourceType → Hold F → Amounts F → Int → Hold F × Int
  | [], cargo, _, value => (cargo, value)
  | r :: rest, cargo, items, value =>
      let space := cargo.capacity - sumSlots cargo.amount
      let take := fmin (items.get r) (fmax 0 space)
      takeLoot rest
        { cargo with amount := cargo.amount.set r (cargo.amount.get r + take) }
        (items.set r (items.get r - take)) (value + trunc take)

/-- Claim a loot container, which is gone then. -/
def claimLoot (u : ServerUniverse F D) (claimerNetId containerNetId : UInt32) :
    Bool × ServerUniverse F D :=
  match (u.ents.find containerNetId).bind Components.loot,
    (u.ents.find claimerNetId).bind Components.cargo with
  | some lc, some cg =>
      let (cargo, value) := takeLoot ResourceType.all cg lc.items 0
      let u : ServerUniverse F D :=
        { u with ents := u.ents.modify claimerNetId fun c => { c with cargo := some cargo } }
      let u := u.destroyUnit containerNetId
      (true, { u with econEvents :=
        u.econEvents ++ [⟨.lootClaim, containerNetId, claimerNetId, value, u.tick⟩] })
  | _, _ => (false, u)

/-! ## Travel -/

/-- Change the entity of a net id. -/
def modify (u : ServerUniverse F D) (netId : UInt32) (f : Components F → Components F) :
    ServerUniverse F D :=
  { u with ents := u.ents.modify netId f }

def stopMotion (c : Components F) : Components F :=
  { c with velocity := c.velocity.map fun _ => Vec3.zero }

/-- Warp to a point, unless the unit is travelling. -/
def beginWarpTo (u : ServerUniverse F D) (netId : UInt32) (dest : UniversePos) :
    Bool × ServerUniverse F D :=
  match (u.ents.find netId).bind Components.navState with
  | none => (false, u)
  | some nav =>
      if nav.phase ≠ .idle then (false, u)
      else
        let speed := if u.ents.isBase netId then u.nav.warpSpeedBase else u.nav.warpSpeedShip
        (true, u.modify netId fun c =>
          { stopMotion c with navState := some (beginWarp nav dest speed u.nav.warpAlignSeconds) })

/-- The closest beacon, with its distance. -/
def nearestBeacon (pos : UniversePos) : List (BeaconDef × Nat) → Option (Nat × D) → Option (Nat × D)
  | [], best => best
  | (b, i) :: rest, best =>
      let d : D := universeDistance pos b.pos
      let best := match best with
        | none => some (i, d)
        | some (j, dj) => if d < dj then some (i, d) else some (j, dj)
      nearestBeacon pos rest best

/-- The closest beacon, if it is within a range. -/
def nearestBeaconWithin (u : ServerUniverse F D) (pos : UniversePos) (range : F) : Option Nat :=
  match nearestBeacon (D := D) pos u.dataset.beacons.zipIdx none with
  | none => none
  | some (i, d) => if d ≤ widen range then some i else none

/-- Jump to a beacon of a name from the beacon that the unit is at. -/
def beginJumpTo (u : ServerUniverse F D) (netId : UInt32) (destBeacon : String) :
    JumpReject × ServerUniverse F D :=
  match u.ents.find netId with
  | none => (.notAtBeacon, u)
  | some c =>
      match c.navState, c.fuel with
      | some nav, some fuel =>
          match Assoc.lookup u.beaconName destBeacon with
          | none => (.notLinked, u)
          | some destIdx =>
              match u.nearestBeaconWithin c.transform.pos u.nav.beaconUseRange with
              | none => (.notAtBeacon, u)
              | some srcIdx =>
                  -- The name may be one of a dataset that was replaced; the code then reads
                  -- past the end, and the model refuses.
                  match u.dataset.beacons[srcIdx]?, u.dataset.beacons[destIdx.toNat]? with
                  | some src, some dest =>
                      if dest.name ∉ src.links then (.notLinked, u)
                      else
                        let cost := if c.baseTag then u.nav.jumpFuelBase else u.nav.jumpFuelShip
                        let spool := if c.baseTag then u.nav.jumpSpoolBase else u.nav.jumpSpoolShip
                        let ready := checkJumpReady nav fuel cost
                        if ready ≠ .accepted then (ready, u)
                        else
                          (.accepted, u.modify netId fun c =>
                            { stopMotion c with
                              fuel := some { fuel with current := fuel.current - cost }
                              navState := some (beginJump nav dest.pos destIdx spool) })
                  | _, _ => (.notLinked, u)
      | _, _ => (.notAtBeacon, u)

/-- Interrupt a journey. -/
def interdict (u : ServerUniverse F D) (netId : UInt32) : ServerUniverse F D :=
  u.modify netId fun c =>
    { c with navState := c.navState.map fun nav => { nav with interdicted := true } }

/-! ## Orders -/

/-- Queue a ship at a base, unless one is queued. -/
def enqueueBuild (u : ServerUniverse F D) (baseNetId : UInt32) : Bool × ServerUniverse F D :=
  match (u.ents.find baseNetId).bind Components.buildQueue with
  | none => (false, u)
  | some q =>
      if q.active then (false, u)
      else
        let queued : BuildQueue F := ⟨true, false, u.economy.buildShipType, 0⟩
        (true, u.modify baseNetId fun c => { c with buildQueue := some queued })

/-- Let a ship mine a node for its owner's base. -/
def orderHarvest (u : ServerUniverse F D) (shipNetId nodeNetId : UInt32) :
    Bool × ServerUniverse F D :=
  match u.ents.find shipNetId with
  | none => (false, u)
  | some c =>
      match c.ownerId with
      | none => (false, u)
      | some owner =>
          if c.cargo.isSome ∧ ((u.ents.find nodeNetId).bind Components.resourceNode).isSome ∧
              ((u.ents.find owner).bind Components.storage).isSome then
            (true, u.modify shipNetId fun c =>
              { c with harvestOrder := some ⟨.toNode, nodeNetId, owner⟩ })
          else (false, u)

/-- A unit that is ordered about does not harvest. -/
def idleHarvest (c : Components F) : Components F :=
  { c with harvestOrder := c.harvestOrder.map fun ho => { ho with phase := .idle } }

/-- Give a unit an order, or queue it behind the one it has. -/
def pushOrder (u : ServerUniverse F D) (unitNet : UInt32) (entry : FleetOrderEntry F)
    (queue : Bool) : Bool × ServerUniverse F D :=
  match (u.ents.find unitNet).bind Components.fleetOrder with
  | none => (false, u)
  | some fo =>
      if queue ∧ fo.current.type ≠ .idle then
        (true, u.modify unitNet fun c =>
          { c with fleetOrder := some { fo with queue := fo.queue ++ [entry] } })
      else
        (true, u.modify unitNet fun c => { idleHarvest c with fleetOrder := some ⟨entry, []⟩ })

def clearOrders (u : ServerUniverse F D) (unitNet : UInt32) : ServerUniverse F D :=
  u.modify unitNet fun c =>
    { stopMotion (idleHarvest c) with fleetOrder := c.fleetOrder.map fun _ => .initial }

/-- A combat stance toward a living target; a base takes none. -/
def pushStance (u : ServerUniverse F D) (unitNet : UInt32) (type : OrderType)
    (cmd : FleetCommand F) : Bool × ServerUniverse F D :=
  if u.ents.isBase unitNet ∨ u.ents.isAlive cmd.targetNetId = false then (false, u)
  else u.pushOrder unitNet ⟨type, cmd.targetNetId, ⟨0, 0, 0⟩, cmd.range⟩ cmd.queue

def applyIntentToUnit (u : ServerUniverse F D) (unitNet : UInt32) (cmd : FleetCommand F) :
    Bool × ServerUniverse F D :=
  match cmd.intent with
  | .stop => (true, u.clearOrders unitNet)
  | .harvest => u.orderHarvest unitNet cmd.targetNetId
  | .warp => u.beginWarpTo unitNet cmd.targetPoint
  | .jump =>
      let (reject, u) := u.beginJumpTo unitNet cmd.beacon
      (reject = .accepted, u)
  | .build => u.enqueueBuild unitNet
  | .claimLoot => u.claimLoot unitNet cmd.targetNetId
  | .move => u.pushOrder unitNet ⟨.move, 0, cmd.targetPoint, 0⟩ cmd.queue
  | .retreat =>
      match (u.ents.find unitNet).bind Components.ownerId with
      | none => (false, u)
      | some owner =>
          match u.ents.find owner with
          | none => (false, u)
          | some home => u.pushOrder unitNet ⟨.retreat, 0, home.transform.pos, 0⟩ cmd.queue
  | .attack => u.pushStance unitNet .attack cmd
  | .guard => u.pushStance unitNet .guard cmd
  | .orbit => u.pushStance unitNet .orbit cmd
  | .keepRange => u.pushStance unitNet .keepRange cmd
  | .other => (false, u)

/-- A command to each of the units that the player owns, and how many took it. -/
def applyFleetCommand (u : ServerUniverse F D) (player : UInt32) (cmd : FleetCommand F) :
    Nat × ServerUniverse F D :=
  cmd.units.foldl
    (fun r unitNet =>
      if (r.2.ents.find unitNet).bind Components.ownerId = some player then
        let (ok, u) := r.2.applyIntentToUnit unitNet cmd
        (if ok then r.1 + 1 else r.1, u)
      else r)
    (0, u)

end

end ServerUniverse

end Shard

end EarthRise
