import EarthRise.Core.ServerHost

/-!
# Runs and Traces of the Host

The host as a labelled machine, with the calls its loop makes. Between two calls
the universe ticks, the accounts are looked after by others and the queue is
drained; a single label sets all three to anything.

The clock is monotonic, so a label that would set it back is not enabled.

`Watched` is the same machine with a record of what arrived for each connection.
The host never looks at it; the statements about runs do.

The host as a labelled machine with a log of what it does on behalf of a connection: the
login it gets from the accounts, the base it binds, the command it applies, the snapshot
it seals. The log is in the order of the calls, within one datagram too, since a datagram
can hold several messages.

A connection is known by its token. A token can only come back after all others, so the
log also says when a connection is opened.

Two logins share a connection. A login request is answered by the connection itself as
soon as its channel hands it over, and a credential frame by the host once the connection
is done with the datagram.

## Main definitions

* `HostLabel`, `ServerHost.step`: The machine.
* `ServerHost.recipient`: The connection a datagram is routed to.
* `Watched`, `Watched.step`: The machine with its record.
* `HostEvent`: What is logged.
* `ServerConnection.handleEvents`: What a connection does with what it received.
* `ServerHost.messageEvents`: What the host does with what the connection hands on.
* `ServerHost.events`: What a step does.
* `Traced`, `Traced.step`: The machine with its log.
-/

namespace EarthRise

namespace Net

open Persist

inductive HostLabel (W A : Type)
  | datagram (fresh : EcdhKeyPair) (src : Endpoint) (dg : Bytes)
  | broadcast
  | prune (timeoutMs : Nat)
  | setClock (nowMs : Nat)
  | setUnixTime (nowUnix : Int)
  | setDilation (f : ℚ)
  | outside (w : W) (accounts : Option A) (persist : Option (List SimEvent))

/-- The channel opens a datagram: it authenticates, and was not seen before. -/
def ConnEntry.opens {Key : Type} (C : CryptoProvider Key) (e : ConnEntry Key) (dg : Bytes) : Bool :=
  match dg, e.conn.channel with
  | kind :: rest, some ch =>
      kind = kindEncrypted && (ch.openDatagram C.toICrypto rest).1.2.isSome
  | _, _ => false

namespace ServerHost

variable {Key W Snap A : Type} (C : CryptoProvider Key) (U : GameUniverse W Snap)
  (S : AccountService A)

def step (h : ServerHost Key W A) : HostLabel W A → Option (ServerHost Key W A)
  | .datagram fresh src dg => some (h.onDatagram C U S fresh src dg).2
  | .broadcast => some (h.broadcastSnapshots C U).2
  | .prune timeoutMs => some (h.pruneStale U timeoutMs)
  | .setClock nowMs => if h.nowMs ≤ nowMs then some { h with nowMs := nowMs } else none
  | .setUnixTime nowUnix => some { h with nowUnix := nowUnix }
  | .setDilation f => some (h.setDilationFactor f)
  | .outside w accounts persist =>
      some { h with world := w, accounts := accounts, persist := persist }

/-- The live connection a datagram is routed to. -/
def recipient (h : ServerHost Key W A) (src : Endpoint) (dg : Bytes) : Option UInt64 :=
  match dg with
  | [] => none
  | kind :: rest =>
      if kind = kindEncrypted then
        (peekConnectionToken dg).filter fun t => (h.entryForToken t).isSome
      else if kind ≠ kindClearHandshake then none
      else if rest = [] then none
      else h.routeOf src

end ServerHost

/-- A datagram that came for a connection: the one that opened it or one that was
    routed to it, and whether its channel opened that. -/
structure Arrival where
  token : UInt64
  atMs : Nat
  opened : Bool

structure Watched (Key W A : Type) where
  host : ServerHost Key W A
  arrivals : List Arrival

namespace Watched

variable {Key W Snap A : Type} (C : CryptoProvider Key) (U : GameUniverse W Snap)
  (S : AccountService A)

def start (h : ServerHost Key W A) : Watched Key W A := ⟨h, []⟩

/-- What a datagram is for a host `h` that it takes to `h'`. -/
def arrivalOf (h h' : ServerHost Key W A) (src : Endpoint) (dg : Bytes) : Option Arrival :=
  match h.recipient src dg with
  | some t => (h.entryForToken t).map fun e => ⟨t, h.nowMs, e.opens C dg⟩
  | none =>
      let t := ServerHost.mixToken h'.tokenCounter
      if (h.entryForToken t).isNone ∧ (h'.entryForToken t).isSome then some ⟨t, h.nowMs, false⟩
      else none

/-- What a step lets arrive. -/
def arriving (h h' : ServerHost Key W A) : HostLabel W A → List Arrival
  | .datagram _ src dg => (arrivalOf C h h' src dg).toList
  | _ => []

def step (w : Watched Key W A) (l : HostLabel W A) : Option (Watched Key W A) :=
  (w.host.step C U S l).map fun h' => ⟨h', w.arrivals ++ arriving C w.host h' l⟩

end Watched

inductive HostEvent
  | opened (token : UInt64)
  /-- The channel of the connection handed it a message. -/
  | received (token : UInt64) (m : DecodedMessage)
  /-- The connection sealed a login response, which says success. -/
  | answered (token : UInt64)
  /-- The state of the connection became `Connected`. -/
  | connected (token : UInt64)
  /-- A registration or a login for the connection returned `Ok`. -/
  | loggedIn (token : UInt64) (accountId : Nat)
  /-- `BindAccountBase` returned a net id. -/
  | bound (token : UInt64) (accountId : Nat) (netId : UInt32)
  /-- `ApplyFleetCommand` was called for a player. -/
  | applied (token : UInt64) (player : UInt32) (body : Bytes)
  /-- A snapshot that was built for a client was sealed for the connection. -/
  | snapshot (token : UInt64) (client : UInt32) (body : Bytes)

namespace ServerConnection

variable {Key : Type} (C : CryptoProvider Key)

/-- What a connection receives: the messages of an encrypted datagram that its channel
    opens, and the connection after that. -/
def received (c : ServerConnection Key) (dg : Bytes) :
    List DecodedMessage × ServerConnection Key :=
  match dg, c.channel with
  | kind :: rest, some ch =>
      if kind = kindEncrypted then
        let r := receive C.toICrypto ch rest
        (r.1, { c with channel := some r.2 })
      else ([], c)
  | _, _ => ([], c)

/-- What a connection does with one message. -/
def messageEvents (token : UInt64) (c : ServerConnection Key) (m : DecodedMessage) :
    List HostEvent :=
  let r := c.handleAppMessage C m
  .received token m ::
    ((if m.type = .loginRequest ∧ r.1.send ≠ [] then [.answered token] else []) ++
      if c.state ≠ .connected ∧ r.2.state = .connected then [.connected token] else [])

def handleEvents (token : UInt64) : ServerConnection Key → List DecodedMessage → List HostEvent
  | _, [] => []
  | c, m :: ms => c.messageEvents C token m ++ handleEvents token (c.handleAppMessage C m).2 ms

end ServerConnection

namespace ServerHost

variable {Key W Snap A : Type} (C : CryptoProvider Key) (U : GameUniverse W Snap)
  (S : AccountService A)

/-- What the host does with a credential frame. -/
def loginEvents (h : ServerHost Key W A) (token : UInt64) (body : Bytes) : List HostEvent :=
  match h.entryForToken token, decodeAuthRequest body, h.accounts with
  | some e, some (user, pass), some accounts =>
      let r := h.authenticate S accounts e.endpoint (body.headD 0) user pass
      if r.1.1 ≠ .ok then []
      else
        let session := r.1.2
        let h := ServerHost.kickExistingSessionForAccount { h with accounts := some r.2 }
          session.accountId token
        let b := h.bindAccountBase U S session
        .loggedIn token session.accountId :: .bound token session.accountId b.1 ::
          if e.conn.state = .authenticating then [.connected token] else []
  | _, _, _ => []

/-- What the host does with a message that a connection hands on. -/
def messageEvents (h : ServerHost Key W A) (token : UInt64) (m : DecodedMessage) :
    List HostEvent :=
  match m.type with
  | .command =>
      match m.body with
      | [] => []
      | opcode :: _ => if isAuthOpcode opcode then h.loginEvents U S token m.body else []
  | .fleetCommand =>
      match h.entryForToken token with
      | none => []
      | some e => if e.authed = true then [.applied token e.playerNetId m.body] else []
  | _ => []

def messagesEvents (token : UInt64) (peer : Endpoint) :
    ServerHost Key W A → List DecodedMessage → List HostEvent
  | _, [] => []
  | h, m :: ms =>
      h.messageEvents U S token m ++
        messagesEvents token peer (h.applyMessage C U S token peer m).2 ms

/-- What is done with a datagram that is routed to a connection. -/
def routeEvents (h : ServerHost Key W A) (token : UInt64) (peer : Endpoint) (dg : Bytes) :
    List HostEvent :=
  let h := h.modify token fun e => { e with lastSeenMs := h.nowMs }
  match h.entryForToken token with
  | none => []
  | some e =>
      if isRepeatedCookieResponse e dg then []
      else
        let got := e.conn.received C dg
        let r := e.conn.onDatagram C dg
        ServerConnection.handleEvents C token got.2 got.1 ++
          messagesEvents C U S token peer (h.setConn token r.2) r.1.app

/-- What is done with a datagram; one that is not routed can open a connection. -/
def datagramEvents (fresh : EcdhKeyPair) (h : ServerHost Key W A) (src : Endpoint) (dg : Bytes) :
    List HostEvent :=
  match h.recipient src dg with
  | some token => h.routeEvents C U S token src dg
  | none =>
      let h' := (h.onDatagram C U S fresh src dg).2
      let token := mixToken h'.tokenCounter
      if (h.entryForToken token).isNone ∧ (h'.entryForToken token).isSome then [.opened token]
      else []

/-- Sealing one client's snapshot. -/
def snapshotEvents (h : ServerHost Key W A) (id : UInt32) (snap : Snap) : List HostEvent :=
  match h.entryForClient id with
  | none => []
  | some (token, e) =>
      if e.conn.state ≠ .connected then []
      else
        match e.conn.sealApp C .unreliable .snapshot (U.encodeSnapshot snap) with
        | none => []
        | some _ => [.snapshot token id (U.encodeSnapshot snap)]

def snapshotsEvents : ServerHost Key W A → List (UInt32 × Snap) → List HostEvent
  | _, [] => []
  | h, (id, snap) :: rest =>
      h.snapshotEvents C U id snap ++ snapshotsEvents (h.sendSnapshot C U id snap).2 rest

def broadcastEvents (h : ServerHost Key W A) : List HostEvent :=
  let r := encodeClients U h.world h.connectedClientIds
  snapshotsEvents C U { h with world := r.2 } r.1

/-- What a step does. -/
def events (h : ServerHost Key W A) : HostLabel W A → List HostEvent
  | .datagram fresh src dg => h.datagramEvents C U S fresh src dg
  | .broadcast => h.broadcastEvents C U
  | _ => []

end ServerHost

/-- The host and the log of what it did. -/
structure Traced (Key W A : Type) where
  host : ServerHost Key W A
  log : List HostEvent

namespace Traced

variable {Key W Snap A : Type} (C : CryptoProvider Key) (U : GameUniverse W Snap)
  (S : AccountService A)

def start (h : ServerHost Key W A) : Traced Key W A := ⟨h, []⟩

def step (w : Traced Key W A) (l : HostLabel W A) : Option (Traced Key W A) :=
  (w.host.step C U S l).map fun h => ⟨h, w.log ++ w.host.events C U S l⟩

end Traced

end Net

end EarthRise
