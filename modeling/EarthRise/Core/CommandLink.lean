import EarthRise.Core.Connection
import EarthRise.Lib.Link

/-!
# Fleet Commands over the Network

A client connection and a server connection past the login, and the network
between them, as one labelled machine.

The network loses, duplicates and reorders: a delivery leaves the datagram under
way, any may be delivered next, and any may be dropped. Clear datagrams come from
anywhere at any time; what the ends answer to them is not followed, since any clear
datagram may arrive anyway.

A datagram of the client also remembers the call that produced it, and `owed` is
what was sent and has not arrived. The connections never look at either; the
statements about runs do.

## Main definitions

* `CommandLink`: The two ends and what is under way.
* `CommandLink.step`: The machine.
-/

namespace EarthRise

namespace Net

open Acceptance

/-- `sent` is what was passed to the client and `handed` what the server's end
    handed to its host. -/
structure CommandLink (Key : Type) where
  client : ClientConnection Key
  server : ServerConnection Key
  up : List (Bytes × Parcel Bytes)
  down : List Bytes
  sent : List Bytes
  handed : List Bytes
  owed : List (Nat × Bytes)

inductive CommandLabel
  | sendFleetCommand (body : Bytes)
  | keepalive
  | deliver (i : Nat)
  | drop (i : Nat)
  | serverSends (ch : Channel) (type : MsgType) (body : Bytes)
  | deliverDown (fresh : EcdhKeyPair) (i : Nat)
  | dropDown (i : Nat)
  | clearToServer (dg : Bytes)
  | clearToClient (fresh : EcdhKeyPair) (dg : Bytes)

namespace CommandLink

variable {Key : Type} (C : CryptoProvider Key)

/-- The packet number of the client's next datagram. -/
def nextNumber (s : CommandLink Key) : Nat :=
  match s.client.channel with
  | none => 0
  | some ch => ch.sendCounter.toNat

/-- The client sends what it sealed, if it did. -/
def post (s : CommandLink Key) (load : Option Bytes) (r : Option (Bytes × ClientConnection Key)) :
    CommandLink Key :=
  match r with
  | none => { s with sent := s.sent ++ load.toList }
  | some (d, c) =>
      { s with
        client := c
        up := s.up ++ [(d, ⟨s.nextNumber, load⟩)]
        sent := s.sent ++ load.toList
        owed := s.owed ++ (load.map fun body => (s.nextNumber, body)).toList }

/-- The fleet commands among the messages handed to the host. -/
def fleetCommands (ms : List DecodedMessage) : List Bytes :=
  (ms.filter fun m => m.type = .fleetCommand).map DecodedMessage.body

/-- A datagram arrives at the server's end. The host has removed a connection that
    is disconnected. -/
def hear (s : CommandLink Key) (dg : Bytes) : CommandLink Key :=
  if s.server.state = .disconnected then s
  else
    let r := s.server.onDatagram C dg
    { s with
      server := r.2
      down := s.down ++ r.1.send
      handed := s.handed ++ fleetCommands r.1.app }

/-- A datagram of the client arrives, and is not owed any more. -/
def arrive (s : CommandLink Key) (d : Bytes) (p : Parcel Bytes) : CommandLink Key :=
  let s := s.hear C d
  { s with owed := s.owed.filter fun o => o.1 ≠ p.number }

def step (s : CommandLink Key) : CommandLabel → Option (CommandLink Key)
  | .sendFleetCommand body => some (s.post (some body) (s.client.sendFleetCommand C body))
  | .keepalive => some (s.post none (s.client.buildKeepalive C))
  | .deliver i => (s.up[i]?).map fun d => s.arrive C d.1 d.2
  | .drop i => (s.up[i]?).map fun _ => { s with up := s.up.eraseIdx i }
  | .serverSends ch type body =>
      (s.server.sealApp C ch type body).map fun r =>
        { s with server := r.2, down := s.down ++ [r.1] }
  | .deliverDown fresh i =>
      (s.down[i]?).map fun d => { s with client := (s.client.onDatagram C fresh d).2 }
  | .dropDown i => (s.down[i]?).map fun _ => { s with down := s.down.eraseIdx i }
  | .clearToServer dg =>
      if dg.head? = some kindClearHandshake then some (s.hear C dg) else none
  | .clearToClient fresh dg =>
      if dg.head? = some kindClearHandshake then
        some { s with client := (s.client.onDatagram C fresh dg).2 }
      else none

end CommandLink

end Net

end EarthRise
