import EarthRise.Core.ServerUniverse

/-!
# One Client's Pipeline

The server's universe, the tables it keeps for one client, the network between
them and the client's decoder, as one labelled machine.

The network loses, duplicates and reorders: a delivery leaves the body in flight,
any body may be delivered next, and any may be dropped. The client acknowledges a
tick, possibly late or never, once it has applied a body of that tick.

A packet also remembers the call that produced it. The codec, the decoder and the
server's tables never look at that part; the statements about runs do.

## Main definitions

* `Packet`: A snapshot body under way, and the call that produced it.
* `Pipeline.step`: The machine of one client.
-/

namespace EarthRise

namespace Sim

open Universe

/-- A snapshot body, and beside it the snapshot that was encoded, the universe it
    was built from and what the byte budget spilled. -/
structure Packet where
  body : List UInt8
  snap : DeltaSnapshot
  server : ServerUniverse
  overflow : List NetId

/-- The two ends and the network. `sent` and `received` are the packets ever sent
    and those the client has applied. -/
structure Pipeline where
  server : ServerUniverse
  tables : ClientTables
  flight : List Packet
  client : DeltaDecodeState
  sent : List Packet
  received : List Packet

inductive PipelineLabel
  | world (ops : List WorldOp)
  | send (weights : RelevanceWeights) (visibleCap byteBudget : Nat)
  | deliver (i : Nat)
  | drop (i : Nat)
  | ack (tick : Nat)

namespace Pipeline

/-- A client that has just connected to an empty universe, at any tick short of
    the one that stands for an unsent tombstone. -/
def start (tick : Fin 4294967295) : Pipeline :=
  { server := ServerUniverse.fresh tick, tables := ClientTables.fresh, flight := []
    client := DeltaDecodeState.fresh, sent := [], received := [] }

/-- The packet of a snapshot, and the tables once it is built and recorded. -/
def buildPacket (sqrt : ℚ → ℚ) (clientId : NetId) (p : Pipeline) (weights : RelevanceWeights)
    (visibleCap byteBudget : Nat) : Packet × ClientTables :=
  let built := p.server.buildClientSnapshot sqrt clientId weights visibleCap byteBudget p.tables
  ({ body := encodeDeltaSnapshot built.1.snap, snap := built.1.snap, server := p.server
     overflow := built.1.overflow },
    built.2.recordClientSnapshotSent p.server built.1.snap)

/-- Build, encode, record and send a snapshot. -/
def sendSnapshot (sqrt : ℚ → ℚ) (clientId : NetId) (p : Pipeline) (weights : RelevanceWeights)
    (visibleCap byteBudget : Nat) : Pipeline :=
  let packet := p.buildPacket sqrt clientId weights visibleCap byteBudget
  { p with
    tables := packet.2
    flight := p.flight ++ [packet.1]
    sent := p.sent ++ [packet.1] }

/-- The machine. A body that does not decode leaves the client as it was. -/
def step (sqrt : ℚ → ℚ) (clientId : NetId) (p : Pipeline) : PipelineLabel → Option Pipeline
  | .world ops => some { p with server := p.server.step ops }
  | .send weights visibleCap byteBudget =>
      some (p.sendSnapshot sqrt clientId weights visibleCap byteBudget)
  | .deliver i =>
      match p.flight[i]? with
      | none => none
      | some packet =>
          match p.client.apply packet.body with
          | none => some p
          | some client => some { p with client := client, received := p.received ++ [packet] }
  | .drop i => if i < p.flight.length then some { p with flight := p.flight.eraseIdx i } else none
  | .ack tick =>
      if ∃ packet ∈ p.received, (decodeDeltaSnapshot packet.body).map DeltaSnapshot.tick = some tick then
        some { p with tables := p.tables.ackClient tick }
      else none

end Pipeline

end Sim

end EarthRise
