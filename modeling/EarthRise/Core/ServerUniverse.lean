import EarthRise.Core.Interest

/-!
# The Server's Replication of a Universe

The part of the server's universe that replication reads, its step, and the
snapshot pipeline of one client: what the client lacks, the ranked and budgeted
snapshot of it, the record of what was sent, and the acknowledgement.

What the simulation does to the entities is left open: a step takes any list of
spawns, changes and removals, and then stamps the versions and refreshes the
interest grid, as every step of the server does.

The rounding of the square root, which only the order of candidates depends on,
is a parameter.

## Main definitions

* `ServerUniverse.step`: Changes to the world, then stamping and interest.
* `changedFor`, `tombstonesFor`: What a client lacks and what it has to forget.
* `buildClientSnapshot`, `recordClientSnapshotSent`, `ackClient`: The pipeline.
-/

namespace EarthRise

namespace Sim

open Universe

/-- The components of an entity that replication reads. An owner of zero stands
    for no owner and a target of zero for no target. -/
structure Entity where
  repl : ReplFields
  sensorRange : Option ℚ
  orderTarget : NetId
  deriving DecidableEq

structure ServerUniverse where
  tick : Nat
  nextNetId : Nat
  entities : OrdMap NetId Entity
  repl : ReplicationStamps
  interest : InterestGrid

/-- A change to the world within a step. -/
inductive WorldOp
  | spawn (e : Entity)
  | mutate (netId : NetId) (e : Entity)
  | destroyUnit (netId : NetId)
  | prefetchTravelInterest (netId : NetId) (dest : UniversePos)

namespace ServerUniverse

/-- An empty universe at a tick. -/
def fresh (tick : Nat) : ServerUniverse :=
  { tick := tick, nextNetId := 1, entities := OrdMap.empty, repl := OrdMap.empty
    interest := InterestGrid.fresh }

def applyOp (u : ServerUniverse) : WorldOp → ServerUniverse
  | .spawn e =>
      { u with
        entities := u.entities.insert (Fin.ofNat 4294967296 u.nextNetId) e
        nextNetId := (u.nextNetId + 1) % 2 ^ 32 }
  | .mutate netId e =>
      match u.entities.find? netId with
      | none => u
      | some _ => { u with entities := u.entities.insert netId e }
  | .destroyUnit netId =>
      { u with
        entities := u.entities.erase netId
        repl := u.repl.erase netId
        interest := u.interest.remove netId }
  | .prefetchTravelInterest netId dest =>
      match u.entities.find? netId with
      | none => u
      | some e =>
          if e.repl.ownerPlayer = 0 then u
          else
            let radius := e.sensorRange.elim 1 sectorRadiusForRange
            { u with
              interest :=
                u.interest.preSubscribe e.repl.ownerPlayer (universeToSector dest) radius }

/-- Stamp every entity's version against its current fields. -/
def stampReplication (u : ServerUniverse) : ServerUniverse :=
  { u with
    repl := u.repl.upsertAll (fun old (e : Entity) => ReplicationStamps.stampEntry old e.repl)
      u.entities.entries }

/-- The sensor neighbourhoods of each player's units. -/
def sensorCells (u : ServerUniverse) : OrdMap NetId (List SectorId) :=
  let eyes := u.entities.entries.filterMap fun (_, e) =>
    if e.repl.ownerPlayer = 0 then none
    else
      e.sensorRange.map fun range =>
        (e.repl.ownerPlayer,
          collectNeighbourhood (universeToSector e.repl.pos) (sectorRadiusForRange range))
  OrdMap.empty.upsertAll (fun old cells => old.getD [] ++ cells) eyes

/-- Home every entity in its sector and subscribe every player to its sensors'
    cells. -/
def updateInterest (u : ServerUniverse) : ServerUniverse :=
  let homed := u.entities.entries.foldl
    (fun g e => g.updateResidency e.1 (universeToSector e.2.repl.pos)) u.interest
  { u with
    interest := u.sensorCells.entries.foldl (fun g e => g.setSubscription e.1 e.2) homed }

/-- One step of the server: any changes, the next tick, stamping and interest. -/
def step (u : ServerUniverse) (ops : List WorldOp) : ServerUniverse :=
  let u := ops.foldl applyOp u
  (stampReplication { u with tick := (u.tick + 1) % 2 ^ 32 }).updateInterest

def replVersion (u : ServerUniverse) (netId : NetId) : Nat := u.repl.version netId

def makeSnapshotEntity (netId : NetId) (f : ReplFields) : SnapshotEntity :=
  { netId := netId, kind := f.kind, pos := f.pos, localOffset := f.localOffset, hp := f.hp
    shapeId := f.shapeId, ownerPlayer := f.ownerPlayer }

/-- The current state of an entity as it is replicated. -/
def snapshotEntityOf (u : ServerUniverse) (netId : NetId) : Option SnapshotEntity :=
  (u.entities.find? netId).map fun e => makeSnapshotEntity netId e.repl

def getBasePos (u : ServerUniverse) (netId : NetId) : Option UniversePos :=
  (u.entities.find? netId).map fun e => e.repl.pos

/-- What the units of a client have been ordered onto. -/
def clientTargets (u : ServerUniverse) (clientId : NetId) : List NetId :=
  u.entities.entries.filterMap fun (_, e) =>
    if e.repl.ownerPlayer = clientId ∧ e.orderTarget ≠ 0 then some e.orderTarget else none

end ServerUniverse

def classifyIff (clientId : NetId) (e : SnapshotEntity) : Iff :=
  if e.ownerPlayer = clientId then .own
  else if e.ownerPlayer ≠ 0 ∨ e.kind = EntityKind.npcUnit then .enemy
  else .neutral

/-- The straight-line distance, with a rounded square root. -/
def universeDistance (sqrt : ℚ → ℚ) (a b : UniversePos) : ℚ :=
  let dx : ℚ := (b.x - a.x : Int)
  let dy : ℚ := (b.y - a.y : Int)
  let dz : ℚ := (b.z - a.z : Int)
  sqrt (dx * dx + dy * dy + dz * dz)

/-- What the server keeps for one client. -/
structure ClientTables where
  baseline : ClientBaseline
  known : ClientKnownState
  lastSent : OrdMap NetId Nat

namespace ClientTables

def fresh : ClientTables :=
  { baseline := ClientBaseline.fresh, known := ClientKnownState.fresh, lastSent := OrdMap.empty }

/-- Note what a snapshot carried: versions, states, the ticks of last sending and
    the tombstones. -/
def recordClientSnapshotSent (u : ServerUniverse) (t : ClientTables) (snap : DeltaSnapshot) :
    ClientTables :=
  let live := snap.records.filter fun r => !r.mask.tomb
  let liveIds := live.map DeltaRecord.netId
  let tombIds := (snap.records.filter fun r => r.mask.tomb).map DeltaRecord.netId
  { baseline := (t.baseline.recordSent snap.tick
      (liveIds.map fun n => (n, u.replVersion n))).recordTombstonesSent snap.tick tombIds
    known := t.known.recordSent snap.tick (liveIds.filterMap u.snapshotEntityOf)
    lastSent := t.lastSent.insertAll (liveIds.map fun n => (n, snap.tick)) }

/-- Advance every table to the client's acknowledgement of a tick. -/
def ackClient (t : ClientTables) (tick : Nat) : ClientTables :=
  { t with baseline := t.baseline.ack tick, known := t.known.ack tick }

end ClientTables

/-- The ids of the first list that the second lacks, both in order: one walk over
    the two. -/
def absentFrom : List NetId → List NetId → List NetId
  | [], _ => []
  | n :: acked, visible =>
      let rest := visible.dropWhile (· < n)
      if rest.head? = some n then absentFrom acked rest else n :: absentFrom acked rest

namespace ServerUniverse

/-- The visible entities whose version is past the acknowledged one. -/
def changedFor (u : ServerUniverse) (clientId : NetId) (t : ClientTables) : List NetId :=
  (u.interest.visibleTo clientId).filter fun n => t.baseline.needs n (u.replVersion n)

/-- Mark what the client has acknowledged and no longer sees, unmark what it sees
    again, and return what is marked. -/
def tombstonesFor (u : ServerUniverse) (clientId : NetId) (t : ClientTables) :
    List NetId × ClientTables :=
  let visible := u.interest.visibleTo clientId
  let t := (absentFrom t.baseline.acked.keys visible).foldl
    (fun t n => { t with baseline := t.baseline.tombstone n, known := t.known.forget n }) t
  let baseline := visible.foldl ClientBaseline.untombstone t.baseline
  (baseline.tombstones.keys, { t with baseline := baseline })

/-- A lacked entity as the scheduler ranks it. -/
def candidate (sqrt : ℚ → ℚ) (u : ServerUniverse) (clientId : NetId) (t : ClientTables)
    (netId : NetId) : Option SchedCandidate :=
  (u.snapshotEntityOf netId).map fun cur =>
    { netId := netId
      distance := (u.getBasePos clientId).elim 0 fun focus => universeDistance sqrt focus cur.pos
      iff := classifyIff clientId cur
      isBase := cur.kind = EntityKind.base ∨ cur.kind = EntityKind.structure'
      isTarget := netId ∈ u.clientTargets clientId
      staleness := (t.lastSent.find? netId).elim 0 fun sent =>
        (u.tick + 2 ^ 32 - sent) % 2 ^ 32 }

/-- The delta record of an entity against what the client is known to hold. -/
def liveRecord (u : ServerUniverse) (t : ClientTables) (netId : NetId) : Option DeltaRecord :=
  match u.snapshotEntityOf netId with
  | none => none
  | some cur =>
      let r := makeDeltaRecord cur (t.known.base netId)
      if r.mask = DeltaMask.none then none else some r

/-- The snapshot of a client, what the byte budget spilled and how many the cap
    dropped. -/
structure BuildResult where
  snap : DeltaSnapshot
  overflow : List NetId
  capped : Nat

/-- Build the snapshot of a client: rank what it lacks, cap it, encode it against
    the known state, append the tombstones, and keep what fits the budget. -/
def buildClientSnapshot (sqrt : ℚ → ℚ) (u : ServerUniverse) (clientId : NetId)
    (weights : RelevanceWeights) (visibleCap byteBudget : Nat) (t : ClientTables) :
    BuildResult × ClientTables :=
  let cands := (u.changedFor clientId t).filterMap (u.candidate sqrt clientId t)
  let sched := scheduleClient cands weights visibleCap
  let live := sched.ordered.filterMap (u.liveRecord t)
  let tombs := u.tombstonesFor clientId t
  let built := buildBudgetedSnapshot u.tick (live ++ tombs.1.map tombstoneRecord) byteBudget
  ({ snap := built.1, overflow := built.2, capped := sched.capped }, tombs.2)

end ServerUniverse

end Sim

end EarthRise
