import EarthRise.Core.ServerHost
import EarthRise.Core.ServerUniverse

/-!
# A Live Client

The host with its replicated universe and one client past the login, joined by a
network that loses nothing and keeps the order: what is under way arrives before
anything else happens at either end.

The host calls the universe through the operations of `GameUniverse`. What the
commands of a player do to the universe and what a base and a ship are like is left
open; the replication is the server's own. There is no operation by which an
acknowledgement of the client would reach the client's tables.

A session takes the snapshot bodies out of what its connection hands on, and the
replica manager applies them one after the other.

## Main definitions

* `ReplWorld`, `replUniverse`: The replicated universe as the host calls it.
* `LiveClient`, `LiveClient.step`: Host, client and network.
-/

namespace EarthRise

namespace Net

open Universe Sim

/-- The universe with the tables of each client. -/
structure ReplWorld where
  sim : ServerUniverse
  tables : NetId → ClientTables
  weights : RelevanceWeights
  visibleCap : Nat

/-- The rounding of the square root, what a base and a fleet ship are made of, and what
    a command does. -/
structure WorldRules where
  sqrt : ℚ → ℚ
  base : NetId → UniversePos → Entity
  ship : NetId → UniversePos → Entity
  command : NetId → Bytes → ServerUniverse → List WorldOp

def toNetId (n : UInt32) : NetId := Fin.ofNat 4294967296 n.toNat

namespace ReplWorld

def setTables (w : ReplWorld) (id : NetId) (t : ClientTables) : ReplWorld :=
  { w with tables := fun i => if i = id then t else w.tables i }

end ReplWorld

/-- The replicated universe as the host calls it. -/
def replUniverse (R : WorldRules) : GameUniverse ReplWorld DeltaSnapshot where
  spawnBase := fun pos w =>
    (UInt32.ofNat w.sim.nextNetId,
      { w with sim := w.sim.applyOp (.spawn (R.base (Fin.ofNat _ w.sim.nextNetId) pos)) })
  spawnFleetShip := fun owner pos w =>
    { w with sim := w.sim.applyOp (.spawn (R.ship (toNetId owner) pos)) }
  setOre := fun _ w => w
  despawnBase := fun netId w => { w with sim := w.sim.applyOp (.destroyUnit (toNetId netId)) }
  hasBase := fun netId w => (w.sim.getBasePos (toNetId netId)).isSome
  applyFleetCommand := fun player body w =>
    { w with sim := (R.command (toNetId player) body w.sim).foldl ServerUniverse.applyOp w.sim }
  buildClientSnapshot := fun id budget w =>
    let built := w.sim.buildClientSnapshot R.sqrt (toNetId id) w.weights w.visibleCap budget
      (w.tables (toNetId id))
    (built.1.snap, w.setTables (toNetId id) built.2)
  encodeSnapshot := encodeDeltaSnapshot
  recordClientSnapshotSent := fun id snap w =>
    w.setTables (toNetId id) ((w.tables (toNetId id)).recordClientSnapshotSent w.sim snap)

/-- `rounds` is, for each broadcast so far, what the byte budget spilled of the client's
    snapshot. -/
structure LiveClient (Key A : Type) where
  host : ServerHost Key ReplWorld A
  peer : Endpoint
  client : ClientConnection Key
  decoder : DeltaDecodeState
  up : List Bytes
  down : List Bytes
  rounds : List (List NetId)

inductive LiveLabel
  | step (ops : List WorldOp)
  | broadcast
  | keepalive
  | fleetCommand (body : Bytes)
  | toServer (fresh : EcdhKeyPair)
  | toClient (fresh : EcdhKeyPair)

namespace LiveClient

variable {Key A : Type} (C : CryptoProvider Key) (R : WorldRules) (S : AccountService A)

/-- Nothing is under way. -/
def still (s : LiveClient Key A) : Bool := s.up.isEmpty && s.down.isEmpty

/-- The client's id as the universe has it. -/
def netId (s : LiveClient Key A) : NetId := toNetId s.client.playerNetId

/-- What a broadcast made now would spill of the client's snapshot. -/
def overflow (s : LiveClient Key A) : List NetId :=
  (s.host.world.sim.buildClientSnapshot R.sqrt s.netId s.host.world.weights
    s.host.world.visibleCap snapshotByteBudget (s.host.world.tables s.netId)).1.overflow

/-- The host's datagrams for the client are under way to it. -/
def hostSends (s : LiveClient Key A) (out : List OutDatagram) : LiveClient Key A :=
  { s with down := s.down ++ (out.filter fun o => o.dest = s.peer).map OutDatagram.data }

/-- The client sends what it sealed, if it did. -/
def clientSends (s : LiveClient Key A) (r : Option (Bytes × ClientConnection Key)) :
    LiveClient Key A :=
  match r with
  | none => s
  | some (d, c) => { s with client := c, up := s.up ++ [d] }

/-- The snapshot bodies among the messages of a datagram. -/
def snapshotBodies (ms : List DecodedMessage) : List Bytes :=
  (ms.filter fun m => m.type = .snapshot).map DecodedMessage.body

/-- The replica manager applies a body; one that does not decode changes nothing. -/
def replicate (st : DeltaDecodeState) (body : Bytes) : DeltaDecodeState :=
  (st.apply body).getD st

/-- A datagram arrives at the client. -/
def clientHears (fresh : EcdhKeyPair) (s : LiveClient Key A) (d : Bytes) : LiveClient Key A :=
  let r := s.client.onDatagram C fresh d
  { s with
    client := r.2
    up := s.up ++ r.1.send
    decoder := (snapshotBodies r.1.app).foldl replicate s.decoder }

def step (s : LiveClient Key A) : LiveLabel → Option (LiveClient Key A)
  | .step ops =>
      if s.still then
        some { s with host := { s.host with
          world := { s.host.world with sim := s.host.world.sim.step ops } } }
      else none
  | .broadcast =>
      if s.still then
        let r := s.host.broadcastSnapshots C (replUniverse R)
        some ({ s with host := r.2, rounds := s.rounds ++ [s.overflow R] }.hostSends r.1)
      else none
  | .keepalive => if s.still then some (s.clientSends (s.client.buildKeepalive C)) else none
  | .fleetCommand body =>
      -- An encoded command is a few bytes long.
      if s.still ∧ FitsLength body then
        some (s.clientSends (s.client.sendFleetCommand C body))
      else none
  | .toServer fresh =>
      match s.up with
      | [] => none
      | d :: rest =>
          let r := s.host.onDatagram C (replUniverse R) S fresh s.peer d
          some ({ s with host := r.2, up := rest }.hostSends r.1)
  | .toClient fresh =>
      match s.down with
      | [] => none
      | d :: rest => some ({ s with down := rest }.clientHears C fresh d)

end LiveClient

end Net

end EarthRise
