import EarthRise.Core.SimStep
import EarthRise.Core.PacketCodec
import Mathlib.Data.List.Sort

/-!
# Warm Restart

The snapshot of a universe that a server writes, and the universe that a server builds
from it after a restart.

A snapshot keeps the bases, the ships, the builds under way and the NPCs, each list in
the order of the slots. It keeps a part of each: of a journey the phase, of a build the
owner, the recipe and the progress. What is not kept has its initial value in the
restored universe.

Restoring first destroys what is there, in the order of a hash table, which the model
takes as an argument.

A fingerprint of what is simulated, to compare two runs by.

One row for each entity, collected in the order of the slots, sorted by net id and mixed
byte by byte into a 64-bit hash. Net id, place and kind are those of the entity in the slot.
Hit points, phase and fuel are looked up once more, under its net id, so they are those of
the entity that the net id leads to.

## Main definitions

* `PersistState`: A snapshot.
* `captureState`: The snapshot of a universe.
* `restoreState`: The universe of a snapshot.
* `Row`: What is hashed of an entity.
* `simRow`, `simHash`: The rows and the hash.
-/

namespace EarthRise

namespace Shard

open Ecs (EntityHandle)
open Universe (Vec3 UniversePos)

/-! ## The snapshot -/

structure PersistBase (F : Type) where
  netId : UInt32
  ownerAccount : UInt64
  pos : UniversePos
  shieldHp : Int
  armorHp : Int
  hullHp : Int
  storage : Amounts F
  fuel : F
  navPhase : NavPhase
  baseState : BaseState
  deriving DecidableEq

structure PersistShip (F : Type) where
  netId : UInt32
  ownerAccount : UInt64
  pos : UniversePos
  hp : Int
  cargo : Amounts F
  shipType : UInt8
  deriving DecidableEq

structure PersistBuild (F : Type) where
  ownerAccount : UInt64
  itemDefId : UInt32
  progress : F
  deriving DecidableEq

structure PersistNpc where
  netId : UInt32
  pos : UniversePos
  hp : Int
  siteId : UInt16
  aiState : AiState
  deriving DecidableEq

structure PersistState (F : Type) where
  tick : UInt64
  outboxSeq : UInt64
  bases : List (PersistBase F)
  ships : List (PersistShip F)
  builds : List (PersistBuild F)
  npcs : List PersistNpc
  deriving DecidableEq

/-! ## Words of a hash -/

def NavPhase.toByte : NavPhase → UInt8
  | .idle => 0
  | .align => 1
  | .warp => 2
  | .spool => 3
  | .cooldown => 4

/-- Mix the eight bytes of a word into a hash, the lowest first. -/
def hashU64 (h v : UInt64) : UInt64 :=
  (List.range 8).foldl
    (fun h i => (h ^^^ (v >>> UInt64.ofNat (8 * i)).toUInt8.toUInt64) * 0x100000001B3) h

/-- A list in a hash: its length, and then what is in it. -/
def listWords {α : Type} (words : α → List UInt64) (l : List α) : List UInt64 :=
  UInt64.ofNat l.length :: l.flatMap words

namespace ServerUniverse

section

variable {F D : Type} [Floating F] [Floating D] [Widens F D]

/-! ## Capture

The parts of an entity are looked up by its net id. -/

/-- A part of the entity of a net id. -/
def part {α : Type} (u : ServerUniverse F D) (netId : UInt32) (f : Components F → Option α) :
    Option α :=
  (u.ents.find netId).bind f

def captureBase (u : ServerUniverse F D) (c : Components F) : PersistBase F :=
  let maxHp := ((u.part c.netId Components.health).map Health.maxHp).getD 0
  { netId := c.netId
    ownerAccount := ((u.part c.netId Components.ownerId).getD 0).toUInt64
    pos := c.transform.pos
    shieldHp := maxHp
    armorHp := maxHp
    hullHp := ((u.part c.netId Components.health).map Health.hp).getD 0
    storage := ((u.part c.netId Components.storage).map Hold.amount).getD .zero
    fuel := ((u.part c.netId Components.fuel).map Fuel.current).getD 0
    navPhase := ((u.part c.netId Components.navState).map NavState.phase).getD .idle
    baseState := ((u.part c.netId Components.baseCombat).map BaseCombat.state).getD .active }

/-- A ship, unless it is an NPC. -/
def captureShip (u : ServerUniverse F D) (c : Components F) : Option (PersistShip F) :=
  match c.shipTag with
  | none => none
  | some shipType =>
      if (u.part c.netId Components.npcAi).isSome then none
      else some
        { netId := c.netId
          ownerAccount := ((u.part c.netId Components.ownerId).getD 0).toUInt64
          pos := c.transform.pos
          hp := ((u.part c.netId Components.health).map Health.hp).getD 0
          cargo := ((u.part c.netId Components.cargo).map Hold.amount).getD .zero
          shipType := shipType }

/-- A build under way. -/
def captureBuild (c : Components F) : Option (PersistBuild F) :=
  match c.buildQueue, c.ownerId with
  | some q, some owner =>
      if q.active then some ⟨owner.toUInt64, q.recipe.toUInt32, q.progress⟩ else none
  | _, _ => none

def captureNpc (u : ServerUniverse F D) (c : Components F) : Option PersistNpc :=
  match c.npcAi with
  | none => none
  | some ai => some
      { netId := c.netId
        pos := c.transform.pos
        hp := ((u.part c.netId Components.health).map Health.hp).getD 0
        siteId := ai.siteId
        aiState := ai.state }

/-- The snapshot of a universe. -/
def captureState (u : ServerUniverse F D) : PersistState F where
  tick := u.tick.toUInt64
  outboxSeq := 0
  bases := (u.ents.world.alive.filter Components.baseTag).map u.captureBase
  ships := u.ents.world.alive.filterMap u.captureShip
  builds := u.ents.world.alive.filterMap captureBuild
  npcs := u.ents.world.alive.filterMap u.captureNpc

/-! ## Restore -/

/-- The build queue of a restored base: the first build of its owner, and paid. -/
def restoreQueue (builds : List (PersistBuild F)) (b : PersistBase F) : BuildQueue F :=
  match builds.find? fun bd => bd.ownerAccount = b.ownerAccount with
  | none => .initial
  | some bd => ⟨true, true, bd.itemDefId.toUInt8, bd.progress⟩

def restoreBase (u : ServerUniverse F D) (builds : List (PersistBuild F)) (b : PersistBase F) :
    Components F :=
  let unfitted : Components F :=
    { Components.bare b.netId b.pos ⟨baseShapeId, .base⟩ with
      velocity := some Vec3.zero
      baseTag := true
      fuel := some ⟨b.fuel, u.nav.baseFuelMax⟩
      navState := some { (.initial : NavState F) with phase := b.navPhase }
      ownerId := some b.ownerAccount.toUInt32
      storage := some ⟨b.storage, u.economy.storageCapacity⟩
      buildQueue := some (restoreQueue builds b)
      sensor := some u.economy.sensorRangeBase
      baseCombat := some { (.initial : BaseCombat F) with state := b.baseState } }
  let c := (installFit u.combat unfitted baseFit).getD unfitted
  { c with health := c.health.map fun _ => ⟨b.hullHp, b.shieldHp⟩ }

def restoreShip (u : ServerUniverse F D) (s : PersistShip F) : Components F :=
  let unfitted : Components F :=
    { Components.bare s.netId s.pos ⟨shipShapeId, .ship⟩ with
      velocity := some Vec3.zero
      shipTag := some s.shipType
      ownerId := some s.ownerAccount.toUInt32
      cargo := some ⟨s.cargo, u.economy.cargoCapacity⟩
      fuel := some ⟨u.nav.shipFuelMax, u.nav.shipFuelMax⟩
      navState := some .initial
      sensor := some u.economy.sensorRangeShip
      fleetMember := some 0
      fleetOrder := some .initial }
  let c := (installFit u.combat unfitted defaultShipFit).getD unfitted
  { c with health := c.health.map fun h => { h with hp := s.hp } }

def restoreNpc (u : ServerUniverse F D) (n : PersistNpc) : Components F :=
  let unfitted := npcComponents n.pos n.netId
  let c := (installFit u.combat unfitted npcFit).getD unfitted
  { c with
    health := c.health.map fun h => { h with hp := n.hp }
    npcAi := some ⟨n.aiState, n.pos, npcAggroRange, npcFleeHpFrac, 0, n.siteId⟩ }

/-- The restored entities, in the order in which they are made. -/
def restored (u : ServerUniverse F D) (s : PersistState F) : List (Components F) :=
  s.bases.map (u.restoreBase s.builds) ++ s.ships.map u.restoreShip ++ s.npcs.map u.restoreNpc

/-- One guardian more at a site. -/
def joinSite (siteAlive : List (UInt16 × Int)) (siteId : UInt16) : List (UInt16 × Int) :=
  (siteId, (Assoc.lookup siteAlive siteId).getD 0 + 1) :: Assoc.erase siteAlive siteId

/-- The highest net id of a snapshot. -/
def maxNetId (s : PersistState F) : UInt32 :=
  (s.bases.map PersistBase.netId ++ s.ships.map PersistShip.netId ++
    s.npcs.map PersistNpc.netId).foldl max 0

/-- Destroy everything, in an order. -/
def wipe (e : Entities F) (order : List EntityHandle) : Entities F where
  world := order.foldl Ecs.World.destroyEntity e.world
  netIdToEntity := []

/-- The universe of a snapshot. What a universe is configured with stays as it is. -/
def restoreState (u : ServerUniverse F D) (order : List EntityHandle) (s : PersistState F) :
    ServerUniverse F D :=
  { u with
    ents := (u.restored s).foldl Entities.insert (wipe u.ents order)
    buildCompleted := []
    siteAlive := (s.npcs.map PersistNpc.siteId).foldl joinSite []
    clearedSites := []
    simTime := 0
    econEvents := []
    killmails := []
    lowHullAlerts := []
    nextNetId := (maxNetId s).toNat + 1
    tick := s.tick.toUInt32 }

end

end ServerUniverse

open Sim (EntityKind)
open Net (putU32 putU64)

/-- What is hashed of an entity. -/
structure Row where
  netId : UInt32
  pos : UniversePos
  hp : Int
  kind : EntityKind
  phase : UInt8
  fuelBits : UInt32
  deriving DecidableEq

/-- The bytes of a row, field by field. -/
def Row.bytes (r : Row) : List UInt8 :=
  putU32 r.netId ++ putU64 (UInt64.ofInt r.pos.x) ++ putU64 (UInt64.ofInt r.pos.y) ++
    putU64 (UInt64.ofInt r.pos.z) ++ putU32 (UInt32.ofInt r.hp) ++
    [r.kind.code, r.phase] ++ putU32 r.fuelBits

/-- Mix one byte into a hash. -/
def mixByte (h : UInt64) (b : UInt8) : UInt64 := (h ^^^ b.toUInt64) * 1099511628211

namespace ServerUniverse

section

variable {F D : Type} [Floating F] [Floating D] [Widens F D]

/-- The row of the entity in a slot. -/
def simRow (u : ServerUniverse F D) (c : Components F) : Row where
  netId := c.netId
  pos := c.transform.pos
  hp := ((u.ents.find c.netId).bind Components.health).elim 0 Health.hp
  kind := c.shapeId.kind
  phase := ((u.ents.find c.netId).bind Components.navState).elim 0 fun n => n.phase.toByte
  fuelBits := ((u.ents.find c.netId).bind Components.fuel).elim 0 fun f => Widens.bits f.current

def simRows (u : ServerUniverse F D) : List Row := u.ents.world.alive.map u.simRow

def simHash (u : ServerUniverse F D) : UInt64 :=
  let rows := u.simRows.insertionSort fun a b => a.netId ≤ b.netId
  (putU32 u.tick ++ rows.flatMap Row.bytes).foldl mixByte 1469598103934665603

end

end ServerUniverse

end Shard

end EarthRise
