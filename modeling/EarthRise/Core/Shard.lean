import EarthRise.Core.WarmRestart
import EarthRise.Lib.Run

/-!
# A Shard

A universe under the calls of its host, and the life of a shard with its restarts.

The host spawns entities, passes commands on, takes what happened out of the feeds and
steps the universe. From time to time it takes a snapshot; after a crash another
process, with a universe of its own, restores one of the snapshots and goes on.

`taken` has all net ids that the shard has assigned. An id is taken where the counter
moves, and nowhere else.

## Main definitions

* `Op`, `ServerUniverse.apply`: A call of the host.
* `Reachable`: The universes that calls and restarts lead to.
* `Life`, `Event`, `live`: A shard and its snapshots.
-/

namespace EarthRise

namespace Shard

open Ecs (EntityHandle)
open Universe (Vec3 UniversePos)

/-- What the host takes out of a universe. -/
inductive Feed
  | buildCompleted
  | clearedSites
  | econEvents
  | killmails
  | lowHullAlerts
  deriving DecidableEq, Repr

/-- A call of the host. -/
inductive Op (F : Type)
  | spawnBase (start : UniversePos) (vel : Vec3 F)
  | spawnProp (shapeId : UInt16) (pos : UniversePos)
  | spawnResourceNode (type : ResourceType) (yield : F) (pos : UniversePos)
  | spawnFleetShip (player : UInt32) (shapeId : UInt16) (pos : UniversePos) (fitName : String)
  | spawnNpcSite (center : UniversePos) (count : Int) (radius : F) (fitName : String)
  | loadUniverse (data : UniverseDataset F)
  | loadCombat (catalog : CombatCatalog F)
  | setProjectileSubSteps (n : Nat)
  | setBaseRetreatHullFrac (f : F)
  | setBaseRetreatSeconds (s : F)
  | setCombatEnabled (on : Bool)
  | beginWarpTo (netId : UInt32) (dest : UniversePos)
  | beginJumpTo (netId : UInt32) (beacon : String)
  | interdict (netId : UInt32)
  | enqueueBuild (netId : UInt32)
  | orderHarvest (ship node : UInt32)
  | applyFleetCommand (player : UInt32) (cmd : FleetCommand F)
  | claimLoot (claimer container : UInt32)
  | despawnBase (netId : UInt32)
  | drain (feed : Feed)
  | step (dt : F)

namespace ServerUniverse

section

variable {F D : Type} [Floating F] [Floating D] [Widens F D]

/-- Empty a feed. -/
def drain (u : ServerUniverse F D) : Feed → ServerUniverse F D
  | .buildCompleted => { u with buildCompleted := [] }
  | .clearedSites => { u with clearedSites := [] }
  | .econEvents => { u with econEvents := [] }
  | .killmails => { u with killmails := [] }
  | .lowHullAlerts => { u with lowHullAlerts := [] }

/-- A universe after a call. -/
def apply (u : ServerUniverse F D) : Op F → ServerUniverse F D
  | .spawnBase start vel => u.spawnBase start vel
  | .spawnProp shapeId pos => u.spawnProp shapeId pos
  | .spawnResourceNode type yield pos => u.spawnResourceNode type yield pos
  | .spawnFleetShip player shapeId pos fitName =>
      (u.spawnFleetShipFit player shapeId pos fitName).2
  | .spawnNpcSite center count radius fitName => u.spawnNpcSite center count radius fitName
  | .loadUniverse data => u.loadUniverse data
  | .loadCombat catalog => { u with combat := catalog }
  | .setProjectileSubSteps n => { u with projectileSubSteps := max 1 n }
  | .setBaseRetreatHullFrac f => { u with baseRetreatHullFrac := f }
  | .setBaseRetreatSeconds s => { u with baseRetreatSeconds := s }
  | .setCombatEnabled on => { u with combatEnabled := on }
  | .beginWarpTo netId dest => (u.beginWarpTo netId dest).2
  | .beginJumpTo netId beacon => (u.beginJumpTo netId beacon).2
  | .interdict netId => u.interdict netId
  | .enqueueBuild netId => (u.enqueueBuild netId).2
  | .orderHarvest ship node => (u.orderHarvest ship node).2
  | .applyFleetCommand player cmd => (u.applyFleetCommand player cmd).2
  | .claimLoot claimer container => (u.claimLoot claimer container).2
  | .despawnBase netId => (u.despawnBase netId).2
  | .drain feed => u.drain feed
  | .step dt => u.step dt

/-- The handles of all entities that a net id leads to. -/
def handles (u : ServerUniverse F D) : List EntityHandle := u.ents.netIdToEntity.map Prod.snd

/-- No id that was taken has more than 32 bits. -/
def NoWrap (u : ServerUniverse F D) : Prop := u.nextNetId ≤ 2 ^ 32

instance (u : ServerUniverse F D) : Decidable u.NoWrap := inferInstanceAs (Decidable (_ ≤ _))

/-- The universes that a host gets to before the net ids run out. -/
inductive Reachable : ServerUniverse F D → Prop
  | fresh : Reachable .fresh
  | apply {u : ServerUniverse F D} (o : Op F) :
      Reachable u → (u.apply o).NoWrap → Reachable (u.apply o)
  | restore {u v : ServerUniverse F D} (order : List EntityHandle) :
      Reachable u → Reachable v → order.Perm v.handles →
        Reachable (v.restoreState order u.captureState)

/-- The ids between two values of the counter. -/
def takenSince (u u' : ServerUniverse F D) : List UInt32 :=
  (List.range' u.nextNetId (u'.nextNetId - u.nextNetId)).map UInt32.ofNat

end

end ServerUniverse

/-! ## The life of a shard -/

/-- A shard: the universe that runs, the snapshots so far and the ids that were taken. -/
structure Life (F D : Type) where
  running : ServerUniverse F D
  snapshots : List (PersistState F)
  taken : List UInt32

inductive Event (F D : Type)
  | call (o : Op F)
  | capture
  /-- Restore a snapshot into a universe that holds whatever it holds. -/
  | restore (i : Nat) (into : ServerUniverse F D) (order : List EntityHandle)

section

variable {F D : Type} [Floating F] [Floating D] [Widens F D]

/-- A shard on its first day. -/
def Life.start : Life F D := ⟨.fresh, [], []⟩

def live (s : Life F D) : Event F D → Option (Life F D)
  | .call o =>
      let u := s.running.apply o
      some { s with running := u, taken := s.taken ++ s.running.takenSince u }
  | .capture => some { s with snapshots := s.snapshots ++ [s.running.captureState] }
  | .restore i into order =>
      (s.snapshots[i]?).map fun snapshot =>
        { s with running := into.restoreState order snapshot }

end

end Shard

end EarthRise
