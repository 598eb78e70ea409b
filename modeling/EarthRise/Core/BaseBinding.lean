import EarthRise.Core.AccountStore
import EarthRise.Core.HostRun

/-!
# Binding a Base, and Signing In

The host over the account store, with a record of each login that succeeded: which
base the account had, and which one it was given. One datagram can hold several
credential frames, so the record follows the messages of a datagram one by one.

The universe also counts the bases it was asked to spawn, which is how a spawn is
seen from outside.

A client past the handshake that signs in with a name and a password, the host with the
account store, and the network between them. What either end sent stays under way: it arrives
in any order, any number of times, or never. The client sends its credential frame whenever
its owner asks for what is pending.

Everything else that happens is one label. It may do anything to the host but for the
connection of the client, which it can only drop.

A datagram of the host carries what was known when it was sent: the net id that the
connection was bound to, and whether it answers a register frame that found the account.
`told` are the net ids of those results that the client heard which were sent while its
connection was bound. The statements about runs look at these, and the two ends do not.

## Main definitions

* `GameUniverse.counted`: A universe that counts its spawns.
* `ServerHost.handed`: The messages of a datagram and the state they are applied in.
* `Binding`: A successful login.
* `Bound`, `Bound.step`: The machine with its record.
* `ClientConnection.hears`: A datagram is opened.
* `ServerHost.findsTaken`: A register frame finds the account.
* `SignIn`, `SignIn.step`: The machine.
-/

namespace EarthRise

namespace Net

open Persist

/-- A universe that counts the bases it spawns. -/
def GameUniverse.counted {W Snap : Type} (U : GameUniverse W Snap) :
    GameUniverse (W × Nat) Snap where
  spawnBase := fun p w => ((U.spawnBase p w.1).1, (U.spawnBase p w.1).2, w.2 + 1)
  spawnFleetShip := fun owner p w => (U.spawnFleetShip owner p w.1, w.2)
  setOre := fun netId w => (U.setOre netId w.1, w.2)
  despawnBase := fun netId w => (U.despawnBase netId w.1, w.2)
  hasBase := fun netId w => U.hasBase netId w.1
  applyFleetCommand := fun netId body w => (U.applyFleetCommand netId body w.1, w.2)
  buildClientSnapshot := fun id budget w =>
    ((U.buildClientSnapshot id budget w.1).1, (U.buildClientSnapshot id budget w.1).2, w.2)
  encodeSnapshot := U.encodeSnapshot
  recordClientSnapshotSent := fun id snap w => (U.recordClientSnapshotSent id snap w.1, w.2)

/-- The messages a datagram hands on, with the connection and the state of the host
    they are applied in. -/
def ServerHost.handed {Key W A : Type} (C : CryptoProvider Key) (h : ServerHost Key W A)
    (src : Endpoint) (dg : Bytes) : Option (UInt64 × ServerHost Key W A × List DecodedMessage) :=
  match h.recipient src dg with
  | none => none
  | some token =>
      let h := h.modify token fun e => { e with lastSeenMs := h.nowMs }
      match h.entryForToken token with
      | none => none
      | some e =>
          if ServerHost.isRepeatedCookieResponse e dg then none
          else
            let r := e.conn.onDatagram C dg
            some (token, h.setConn token r.2, r.1.app)

/-- A successful login. `live` is the account's base, if it had one that was alive,
    `stored` what the table of bases had, and `netId` what the entry has after it and
    the reply carries. -/
structure Binding where
  account : Nat
  live : Option UInt32
  stored : Int
  netId : UInt32
  spawned : Bool
  deriving DecidableEq

/-- The host, the base last given to each account, and the logins so far. -/
structure Bound (Key W : Type) where
  host : ServerHost Key (W × Nat) AccountStore
  home : Nat → Option UInt32
  bindings : List Binding

namespace Bound

variable {Key W Snap : Type} (C : CryptoProvider Key) (U : GameUniverse W Snap)

/-- The login that a credential frame of a connection makes. -/
def loginOf (h : ServerHost Key (W × Nat) AccountStore) (token : UInt64) (m : DecodedMessage) :
    Option SessionInfo :=
  match m.type, m.body with
  | .command, opcode :: _ =>
      if isAuthOpcode opcode then
        match h.entryForToken token, decodeAuthRequest m.body, h.accounts with
        | some e, some (user, pass), some accounts =>
            let r := h.authenticate accountService accounts e.endpoint opcode user pass
            if r.1.1 = .ok then some r.1.2 else none
        | _, _, _ => none
      else none
  | _, _ => none

/-- What the table of bases has for an account. -/
def storedBase (h : ServerHost Key (W × Nat) AccountStore) (account : Nat) : Int :=
  match h.accounts with
  | none => 0
  | some accounts => accounts.db.baseOf account

/-- The record of a login that took the host from `h` to `h'`. -/
def bindingOf (home : Nat → Option UInt32) (h h' : ServerHost Key (W × Nat) AccountStore)
    (token : UInt64) (session : SessionInfo) : Binding :=
  { account := session.accountId
    live := (home session.accountId).filter fun b => U.hasBase b h.world.1
    stored := storedBase h session.accountId
    netId := ((h'.entryForToken token).map ConnEntry.playerNetId).getD 0
    spawned := decide (h'.world.2 ≠ h.world.2) }

/-- Apply one message and record the login it makes. -/
def follow (token : UInt64) (peer : Endpoint) (b : Bound Key W) (m : DecodedMessage) :
    Bound Key W :=
  let h' := (b.host.applyMessage C U.counted accountService token peer m).2
  match loginOf b.host token m with
  | none => { b with host := h' }
  | some session =>
      let x := bindingOf U b.home b.host h' token session
      { host := h'
        home := fun a => if a = x.account then some x.netId else b.home a
        bindings := b.bindings ++ [x] }

/-- The record after a step of the host. -/
def record (b : Bound Key W) : HostLabel (W × Nat) AccountStore → Bound Key W
  | .datagram _ src dg =>
      match b.host.handed C src dg with
      | none => b
      | some (token, h, ms) => ms.foldl (follow C U token src) { b with host := h }
  | _ => b

def step (b : Bound Key W) (l : HostLabel (W × Nat) AccountStore) : Option (Bound Key W) :=
  (b.host.step C U.counted accountService l).map fun h' => { record C U b l with host := h' }

def start (h : ServerHost Key (W × Nat) AccountStore) : Bound Key W := ⟨h, fun _ => none, []⟩

end Bound

/-- The channel of the client opens a datagram. -/
def ClientConnection.hears {Key : Type} (C : CryptoProvider Key) (c : ClientConnection Key)
    (dg : Bytes) : Bool :=
  match dg, c.channel with
  | kind :: rest, some ch =>
      kind = kindEncrypted && (ch.openDatagram C.toICrypto rest).1.2.isSome
  | _, _ => false

namespace ServerHost

variable {Key W : Type} (C : CryptoProvider Key)

/-- A message registers a name that is taken. -/
def takenBy (h : ServerHost Key W AccountStore) (m : DecodedMessage) : Bool :=
  m.type = .command && m.body.head? = some authOpcodeRegister &&
    match decodeAuthRequest m.body, h.accounts with
    | some (user, _), some a => (a.db.findUser a.cfg.foldName user).isSome
    | _, _ => false

/-- A datagram opens under a number that is fresh, so that it is handed on. -/
def opensFrom (h : ServerHost Key W AccountStore) (src : Endpoint) (dg : Bytes) : Bool :=
  (h.handed C src dg).any fun r => !r.2.2.isEmpty

/-- A datagram holds a register frame, and the account is there. -/
def findsTaken (h : ServerHost Key W AccountStore) (src : Endpoint) (dg : Bytes) : Bool :=
  match h.handed C src dg with
  | none => false
  | some (_, h, ms) => ms.any h.takenBy

/-- The net id that a connection is bound to. -/
def boundNetId (h : ServerHost Key W AccountStore) (token : UInt64) : Option UInt32 :=
  (h.entryForToken token).bind fun e => if e.authed then some e.playerNetId else none

end ServerHost

/-- A datagram of the host, with what was known when it was sent. -/
structure Reply where
  data : Bytes
  bound : Option UInt32
  taken : Bool
  deriving DecidableEq

structure SignIn (Key W : Type) where
  host : ServerHost Key W AccountStore
  client : ClientConnection Key
  up : List Bytes
  down : List Reply
  told : List UInt32

inductive SignInLabel (Key W : Type)
  | resend
  | toServer (fresh : EcdhKeyPair) (dg : Bytes)
  | toClient (fresh : EcdhKeyPair) (reply : Reply)
  | others (host : ServerHost Key W AccountStore)

namespace SignIn

variable {Key W Snap : Type} (C : CryptoProvider Key) (U : GameUniverse W Snap) (peer : Endpoint)

def step (w : SignIn Key W) : SignInLabel Key W → Option (SignIn Key W)
  | .resend =>
      let r := w.client.resendPending C
      some { w with client := r.2, up := w.up ++ r.1.send }
  | .toServer fresh dg =>
      if dg ∈ w.up then
        let r := w.host.onDatagram C U accountService fresh peer dg
        some { w with
          host := r.2
          down := w.down ++ (r.1.filter fun d => d.dest = peer).map fun d =>
            ⟨d.data, r.2.boundNetId w.client.token, w.host.findsTaken C peer dg⟩ }
      else none
  | .toClient fresh reply =>
      if reply ∈ w.down then
        let r := w.client.onDatagram C fresh reply.data
        some { w with
          client := r.2
          up := w.up ++ r.1.send
          told := w.told ++ if w.client.hears C reply.data then reply.bound.toList else [] }
      else none
  | .others host => some { w with host := host }

end SignIn

end Net

end EarthRise
