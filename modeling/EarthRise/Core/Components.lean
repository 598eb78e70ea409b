import EarthRise.Core.CombatData
import EarthRise.Core.Snapshot

/-!
# Components

What an entity can be made of.

Every entity has a net id, a place and a shape, since every function that makes one
gives it these and nothing takes a component away. The others it has or has not. Hit
points and metres are integers without a bound here.

## Main definitions

* `Components`: An entity.
* `NavState`, `BuildQueue`, `DefenseLayers`, `Fitting`, `FleetOrder`: The parts with a
  behaviour of their own.
-/

namespace EarthRise

namespace Shard

open Universe (Vec3 UniversePos)
open Sim (EntityKind)

structure Transform (F : Type) where
  pos : UniversePos
  localOffset : Vec3 F
  deriving DecidableEq

structure ShapeId where
  value : UInt16
  kind : EntityKind
  deriving DecidableEq

structure Health where
  hp : Int
  maxHp : Int
  deriving DecidableEq, Repr

structure Fuel (F : Type) where
  current : F
  max : F
  deriving DecidableEq

inductive NavPhase
  | idle
  | align
  | warp
  | spool
  | cooldown
  deriving DecidableEq, Repr

/-- A journey: its phase, what interrupts it, and where it leads. -/
structure NavState (F : Type) where
  phase : NavPhase
  interdicted : Bool
  jumpTarget : UInt16
  target : UniversePos
  timer : F
  warpSpeed : F
  deriving DecidableEq

inductive ResourceType
  | ore
  | ice
  | gas
  deriving DecidableEq, Repr

/-- One amount for each resource. -/
structure Amounts (F : Type) where
  ore : F
  ice : F
  gas : F
  deriving DecidableEq

structure ResourceNodeTag (F : Type) where
  type : ResourceType
  remaining : F
  deriving DecidableEq

/-- The cargo of a ship, or the storage of a base. -/
structure Hold (F : Type) where
  amount : Amounts F
  capacity : F
  deriving DecidableEq

structure BuildQueue (F : Type) where
  active : Bool
  paid : Bool
  recipe : UInt8
  progress : F
  deriving DecidableEq

inductive HarvestPhase
  | idle
  | toNode
  | harvesting
  | toBase
  | depositing
  deriving DecidableEq, Repr

structure HarvestOrder where
  phase : HarvestPhase
  nodeNetId : UInt32
  baseNetId : UInt32
  deriving DecidableEq, Repr

inductive OrderType
  | idle
  | move
  | attack
  | guard
  | orbit
  | keepRange
  | retreat
  deriving DecidableEq, Repr

structure FleetOrderEntry (F : Type) where
  type : OrderType
  targetNetId : UInt32
  targetPoint : UniversePos
  range : F
  deriving DecidableEq

/-- The order that a unit carries out, and those after it. -/
structure FleetOrder (F : Type) where
  current : FleetOrderEntry F
  queue : List (FleetOrderEntry F)
  deriving DecidableEq

/-- The reach and strength of all weapons together. -/
structure Weapon (F : Type) where
  range : F
  dps : F
  pending : F
  deriving DecidableEq

inductive AiState
  | patrol
  | aggro
  | flee
  | defend
  deriving DecidableEq, Repr

structure NpcAi (F : Type) where
  state : AiState
  home : UniversePos
  aggroRange : F
  fleeHpFrac : F
  targetNetId : UInt32
  siteId : UInt16
  deriving DecidableEq

structure LayerHp where
  cur : Int
  max : Int
  deriving DecidableEq, Repr

/-- The layers that damage goes through, the shield first. -/
structure DefenseLayers (F : Type) where
  shield : LayerHp
  armor : LayerHp
  hull : LayerHp
  shieldRegenPerSec : F
  regenPending : F
  deriving DecidableEq

/-- A fitted module, with its own copy of the catalog's entry. -/
structure ModuleInstance (F : Type) where
  info : ModuleDef F
  cooldown : F
  pending : F
  deriving DecidableEq

structure HullInfo (F : Type) where
  signature : F
  maxSpeed : F
  size : HullSize
  deriving DecidableEq

structure Fitting (F : Type) where
  modules : List (ModuleInstance F)
  pgUsed : F
  pgMax : F
  cpuUsed : F
  cpuMax : F
  slots : BySlot UInt8
  deriving DecidableEq

/-- What other units' modules do to a unit, and for how long. -/
structure EwarStatus (F : Type) where
  jammedFor : F
  tackledFor : F
  webFactor : F
  webFor : F
  sensorDampFactor : F
  sensorDampFor : F
  deriving DecidableEq

/-- A shot under way. -/
structure Projectile (F : Type) where
  sourceNetId : UInt32
  targetNetId : UInt32
  damageType : DamageType
  baseDamage : F
  vel : Vec3 F
  origin : UniversePos
  ttl : F
  optimal : F
  falloff : F
  tracking : F
  deriving DecidableEq

structure LootContainer (F : Type) where
  items : Amounts F
  expiresAt : F
  deriving DecidableEq

inductive BaseState
  | active
  | retreating
  | disabled
  deriving DecidableEq, Repr

structure BaseCombat (F : Type) where
  state : BaseState
  retreatUntil : F
  cargoLost : Bool
  deriving DecidableEq

/-- An entity. -/
structure Components (F : Type) where
  netId : UInt32
  transform : Transform F
  shapeId : ShapeId
  velocity : Option (Vec3 F)
  baseTag : Bool
  shipTag : Option UInt8
  health : Option Health
  fuel : Option (Fuel F)
  navState : Option (NavState F)
  beaconTag : Option UInt16
  ownerId : Option UInt32
  resourceNode : Option (ResourceNodeTag F)
  cargo : Option (Hold F)
  storage : Option (Hold F)
  buildQueue : Option (BuildQueue F)
  fleetMember : Option UInt8
  sensor : Option F
  harvestOrder : Option HarvestOrder
  fleetOrder : Option (FleetOrder F)
  weapon : Option (Weapon F)
  npcAi : Option (NpcAi F)
  defense : Option (DefenseLayers F)
  resists : Option (ResistProfile F)
  fitting : Option (Fitting F)
  ewar : Option (EwarStatus F)
  projectile : Option (Projectile F)
  loot : Option (LootContainer F)
  baseCombat : Option (BaseCombat F)
  hullInfo : Option (HullInfo F)
  deriving DecidableEq

/-- The types of components, in the order of their slots. -/
inductive ComponentType
  | transform
  | velocity
  | baseTag
  | shipTag
  | netId
  | health
  | shapeId
  | fuel
  | navState
  | beaconTag
  | ownerId
  | resourceNode
  | cargo
  | storage
  | buildQueue
  | fleetMember
  | sensor
  | harvestOrder
  | fleetOrder
  | weapon
  | npcAi
  | defense
  | resists
  | fitting
  | ewar
  | projectile
  | loot
  | baseCombat
  | hullInfo
  deriving DecidableEq, Repr

/-- An entity has a component. Every entity has a net id, a place and a shape. -/
def Components.has {F : Type} (c : Components F) : ComponentType → Bool
  | .transform | .netId | .shapeId => true
  | .velocity => c.velocity.isSome
  | .baseTag => c.baseTag
  | .shipTag => c.shipTag.isSome
  | .health => c.health.isSome
  | .fuel => c.fuel.isSome
  | .navState => c.navState.isSome
  | .beaconTag => c.beaconTag.isSome
  | .ownerId => c.ownerId.isSome
  | .resourceNode => c.resourceNode.isSome
  | .cargo => c.cargo.isSome
  | .storage => c.storage.isSome
  | .buildQueue => c.buildQueue.isSome
  | .fleetMember => c.fleetMember.isSome
  | .sensor => c.sensor.isSome
  | .harvestOrder => c.harvestOrder.isSome
  | .fleetOrder => c.fleetOrder.isSome
  | .weapon => c.weapon.isSome
  | .npcAi => c.npcAi.isSome
  | .defense => c.defense.isSome
  | .resists => c.resists.isSome
  | .fitting => c.fitting.isSome
  | .ewar => c.ewar.isSome
  | .projectile => c.projectile.isSome
  | .loot => c.loot.isSome
  | .baseCombat => c.baseCombat.isSome
  | .hullInfo => c.hullInfo.isSome

/-! ## What a part starts as -/

section

variable {F : Type} [Floating F]

def Vec3.zero : Vec3 F := ⟨0, 0, 0⟩

/-- A place to stand at. -/
def Transform.of (pos : UniversePos) : Transform F := ⟨pos, Vec3.zero⟩

def NavState.initial : NavState F where
  phase := .idle
  interdicted := false
  jumpTarget := 0xFFFF
  target := ⟨0, 0, 0⟩
  timer := 0
  warpSpeed := 0

def Amounts.zero : Amounts F := ⟨0, 0, 0⟩

def Hold.empty (capacity : F) : Hold F := ⟨Amounts.zero, capacity⟩

def BuildQueue.initial : BuildQueue F := ⟨false, false, 0, 0⟩

def FleetOrderEntry.initial : FleetOrderEntry F := ⟨.idle, 0, ⟨0, 0, 0⟩, 0⟩

def FleetOrder.initial : FleetOrder F := ⟨.initial, []⟩

def EwarStatus.initial : EwarStatus F := ⟨0, 0, 1, 0, 1, 0⟩

def BaseCombat.initial : BaseCombat F := ⟨.active, 0, false⟩

/-- An entity with no more than every entity has. -/
def Components.bare (netId : UInt32) (pos : UniversePos) (shapeId : ShapeId) : Components F where
  netId := netId
  transform := .of pos
  shapeId := shapeId
  velocity := none
  baseTag := false
  shipTag := none
  health := none
  fuel := none
  navState := none
  beaconTag := none
  ownerId := none
  resourceNode := none
  cargo := none
  storage := none
  buildQueue := none
  fleetMember := none
  sensor := none
  harvestOrder := none
  fleetOrder := none
  weapon := none
  npcAi := none
  defense := none
  resists := none
  fitting := none
  ewar := none
  projectile := none
  loot := none
  baseCombat := none
  hullInfo := none

end

/-! ## Resources and layers -/

def ResourceType.all : List ResourceType := [.ore, .ice, .gas]

namespace Amounts

variable {F : Type}

def get (a : Amounts F) : ResourceType → F
  | .ore => a.ore
  | .ice => a.ice
  | .gas => a.gas

def set (a : Amounts F) (r : ResourceType) (x : F) : Amounts F :=
  match r with
  | .ore => { a with ore := x }
  | .ice => { a with ice := x }
  | .gas => { a with gas := x }

end Amounts

namespace DefenseLayers

variable {F : Type}

def get (d : DefenseLayers F) : DefenseLayer → LayerHp
  | .shield => d.shield
  | .armor => d.armor
  | .hull => d.hull

def set (d : DefenseLayers F) (layer : DefenseLayer) (l : LayerHp) : DefenseLayers F :=
  match layer with
  | .shield => { d with shield := l }
  | .armor => { d with armor := l }
  | .hull => { d with hull := l }

def totalCur (d : DefenseLayers F) : Int := d.shield.cur + d.armor.cur + d.hull.cur

def totalMax (d : DefenseLayers F) : Int := d.shield.max + d.armor.max + d.hull.max

/-- The part of the hull that is left. -/
def hullFrac [Floating F] (d : DefenseLayers F) : F :=
  if 0 < d.hull.max then ofInt d.hull.cur / ofInt d.hull.max else 0

end DefenseLayers

end Shard

end EarthRise
