import EarthRise.Core.Scheduler

/-!
# Interest, Replication Versions and the Client Baseline

Which entities a client sees, how far each has advanced, and what a client has
acknowledged of them.

The interest grid keeps every entity's sector and every player's subscribed
sectors; a player sees the residents of the sectors it subscribes to. The code
also indexes both tables by sector; what the players see is a function of the
two tables alone, so the index is not repeated here.

A version advances when the replicated fields of an entity change. The baseline
keeps the acknowledged version of each entity, the versions staged under each
unacknowledged tick, and the tombstones: the entities whose removal a client is
still to be told of, each with the tick that first told it.

## Main definitions

* `InterestGrid.visibleTo`, `setSubscription`, `preSubscribe`: Who sees what.
* `ReplicationStamps.stamp`: The version of an entity.
* `ClientBaseline.recordSent`, `ack`: The acknowledged versions.
* `ClientBaseline.tombstone`, `recordTombstonesSent`: The pending removals.
-/

namespace EarthRise

namespace Sim

open Universe

/-! ## The grid -/

/-- The cells of the cube of half-width `radiusCells` around a sector. -/
def collectNeighbourhood (center : SectorId) (radiusCells : Int) : List SectorId :=
  let r := if radiusCells < 0 then 0 else radiusCells
  let offsets := (List.range (2 * r + 1).toNat).map fun i => (i : Int) - r
  offsets.flatMap fun dx => offsets.flatMap fun dy => offsets.map fun dz =>
    ⟨center.x + dx, center.y + dy, center.z + dz⟩

/-- The cells that a sensor range spans. -/
def sectorRadiusForRange (metres : ℚ) : Int :=
  if metres ≤ 0 then 0 else ⌈metres / sectorSize⌉

structure InterestGrid where
  entitySector : OrdMap NetId SectorId
  playerSubs : OrdMap NetId (List SectorId)
  playerPin : OrdMap NetId (List SectorId)

namespace InterestGrid

def fresh : InterestGrid :=
  { entitySector := OrdMap.empty, playerSubs := OrdMap.empty, playerPin := OrdMap.empty }

def updateResidency (g : InterestGrid) (netId : NetId) (s : SectorId) : InterestGrid :=
  { g with entitySector := g.entitySector.insert netId s }

def remove (g : InterestGrid) (netId : NetId) : InterestGrid :=
  { g with entitySector := g.entitySector.erase netId }

def subscriptions (g : InterestGrid) (player : NetId) : List SectorId :=
  (g.playerSubs.find? player).getD []

def pins (g : InterestGrid) (player : NetId) : List SectorId :=
  (g.playerPin.find? player).getD []

/-- Subscribe a player ahead of its travel and hold the cells until it arrives. -/
def preSubscribe (g : InterestGrid) (player : NetId) (center : SectorId) (radiusCells : Int) :
    InterestGrid :=
  let cells := collectNeighbourhood center radiusCells
  { g with
    playerPin := g.playerPin.insert player (g.pins player ++ cells)
    playerSubs := g.playerSubs.insert player (g.subscriptions player ++ cells) }

/-- Subscribe a player to the given cells and those still held for it. A held
    cell that is among the given ones is let go. -/
def setSubscription (g : InterestGrid) (player : NetId) (cells : List SectorId) : InterestGrid :=
  let held := (g.pins player).filter fun c => c ∉ cells
  { g with
    playerPin := if held = [] then g.playerPin.erase player else g.playerPin.insert player held
    playerSubs := g.playerSubs.insert player (cells ++ held) }

/-- The entities in a player's cells, in the order of their ids. -/
def visibleTo (g : InterestGrid) (player : NetId) : List NetId :=
  (g.entitySector.filter fun _ s => s ∈ g.subscriptions player).keys

end InterestGrid

/-! ## Versions -/

/-- What of an entity is replicated. -/
structure ReplFields where
  pos : UniversePos
  localOffset : Vec3 ℚ
  hp : Int32
  ownerPlayer : NetId
  shapeId : UInt16
  kind : EntityKind
  deriving DecidableEq

structure StampEntry where
  version : Nat
  last : ReplFields
  deriving DecidableEq

/-- The version of every stamped entity and the fields it was stamped with. -/
abbrev ReplicationStamps := OrdMap NetId StampEntry

namespace ReplicationStamps

/-- The entry after a stamp: one for a new entity, one more for a change. -/
def stampEntry (old : Option StampEntry) (cur : ReplFields) : StampEntry :=
  match old with
  | none => { version := 1, last := cur }
  | some e => if e.last = cur then e else { version := (e.version + 1) % 2 ^ 32, last := cur }

def stamp (m : ReplicationStamps) (netId : NetId) (cur : ReplFields) : ReplicationStamps :=
  m.insert netId (stampEntry (m.find? netId) cur)

/-- The version of an entity, zero if it was never stamped. -/
def version (m : ReplicationStamps) (netId : NetId) : Nat :=
  (m.find? netId).elim 0 StampEntry.version

end ReplicationStamps

/-! ## The baseline -/

/-- The tick of a tombstone that no snapshot has carried yet. -/
def unsent : Nat := 0xFFFFFFFF

structure ClientBaseline where
  acked : OrdMap NetId Nat
  pending : OrdMap Nat (List (NetId × Nat))
  tombstones : OrdMap NetId Nat

namespace ClientBaseline

def fresh : ClientBaseline :=
  { acked := OrdMap.empty, pending := OrdMap.empty, tombstones := OrdMap.empty }

/-- The acknowledged version of an entity, zero if there is none. -/
def ackedVersion (b : ClientBaseline) (netId : NetId) : Nat := (b.acked.find? netId).getD 0

/-- Whether a client still lacks a version. -/
def needs (b : ClientBaseline) (netId : NetId) (currentVersion : Nat) : Bool :=
  b.ackedVersion netId < currentVersion

def recordSent (b : ClientBaseline) (tick : Nat) (sent : List (NetId × Nat)) : ClientBaseline :=
  if sent = [] then b
  else { b with pending := (b.pending.insert tick sent).dropOldest maxPending }

/-- What is staged up to a tick, oldest first. -/
def staged (b : ClientBaseline) (tick : Nat) : List (NetId × Nat) :=
  (b.pending.entries.filter fun e => e.1 ≤ tick).flatMap Prod.snd

/-- Fold what is staged up to a tick into the acknowledged versions, and clear
    the tombstones first carried by then. -/
def ack (b : ClientBaseline) (tick : Nat) : ClientBaseline :=
  { acked := b.acked.upsertAll (fun a v => max (a.getD 0) v) (b.staged tick)
    pending := b.pending.filter fun t _ => ¬ t ≤ tick
    tombstones := b.tombstones.filter fun _ t => ¬ (t ≠ unsent ∧ t ≤ tick) }

/-- Mark an entity for removal. -/
def tombstone (b : ClientBaseline) (netId : NetId) : ClientBaseline :=
  { b with
    acked := b.acked.erase netId
    tombstones := b.tombstones.upsertAll (fun t _ => t.getD unsent) [(netId, ())] }

def untombstone (b : ClientBaseline) (netId : NetId) : ClientBaseline :=
  { b with tombstones := b.tombstones.erase netId }

/-- Note the tick under those of the tombstones that no tick is noted under. -/
def recordTombstonesSent (b : ClientBaseline) (tick : Nat) (netIds : List NetId) :
    ClientBaseline :=
  { b with
    tombstones := netIds.foldl (fun m n => if m.find? n = some unsent then m.insert n tick else m)
      b.tombstones }

end ClientBaseline

end Sim

end EarthRise
