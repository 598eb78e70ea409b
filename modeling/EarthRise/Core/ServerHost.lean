import EarthRise.Core.Connection
import EarthRise.Core.ConnectionTable
import EarthRise.Core.EconomyOutbox
import EarthRise.Core.UniversePos

/-!
# The Server Host

Routing, accepting, authenticating and reaping. The host owns the connections,
keyed by token, and an association from addresses to tokens for the clear phase;
it hands what the connections receive to the universe and to the accounts.

Both are parameters here: a record of the operations the host calls on each. The
affinity lanes and the telemetry are left out. An endpoint stands for the string key the
code makes of it.

An encrypted datagram is routed by the token in its clear header, a clear one by
its address; the entry's time stamp is set on both paths before the connection has
looked at the datagram.

## Main definitions

* `GameUniverse`, `AccountService`: What the host calls.
* `ServerHost.onDatagram`: One datagram.
* `ServerHost.broadcastSnapshots`, `ServerHost.pruneStale`: The periodic work.
-/

namespace EarthRise

namespace Net

open Universe Persist

structure Endpoint where
  ip : Bytes
  port : UInt16
  deriving DecidableEq, Repr

def Endpoint.addrBytes (e : Endpoint) : Bytes := e.ip ++ putU16 e.port.toNat

/-- The operations on the universe. -/
structure GameUniverse (W Snap : Type) where
  spawnBase : UniversePos → W → UInt32 × W
  spawnFleetShip : UInt32 → UniversePos → W → W
  setOre : UInt32 → W → W
  despawnBase : UInt32 → W → W
  /-- There is a base of this net id, with a position. -/
  hasBase : UInt32 → W → Bool
  /-- Decode a command body and apply it for a player. -/
  applyFleetCommand : UInt32 → Bytes → W → W
  buildClientSnapshot : UInt32 → Nat → W → Snap × W
  encodeSnapshot : Snap → Bytes
  recordClientSnapshotSent : UInt32 → Snap → W → W

inductive AuthResult
  | ok
  | usernameTaken
  | invalidCredentials
  | accountLocked
  | rateLimited
  | accountBanned
  | dbUnavailable
  | badInput
  deriving DecidableEq, Repr

def AuthResult.toByte : AuthResult → UInt8
  | .ok => 0
  | .usernameTaken => 1
  | .invalidCredentials => 2
  | .accountLocked => 3
  | .rateLimited => 4
  | .accountBanned => 5
  | .dbUnavailable => 6
  | .badInput => 7

abbrev SessionToken := ByteArrayOf 32

/-- A logged-in session; a base number of zero stands for no base. -/
structure SessionInfo where
  accountId : Nat
  token : SessionToken
  baseId : Int

/-- The operations on the accounts. Only the session of a success is looked at. -/
structure AccountService (A : Type) where
  register : Bytes → Bytes → Int → A → (AuthResult × SessionInfo) × A
  login : Bytes → Bytes → Bytes → Int → A → (AuthResult × SessionInfo) × A
  setAccountBase : Nat → UInt32 → A → A

/-- One accepted connection. -/
structure ConnEntry (Key : Type) where
  conn : ServerConnection Key
  endpoint : Endpoint
  handle : ConnHandle
  lastSeenMs : Nat
  playerNetId : UInt32
  authed : Bool
  accountId : Nat
  sessionToken : SessionToken

/-- `accounts` and `persist` are what is injected, or `none`; `persist` is the
    economy queue. `world` is the universe, `table` the routing slots. -/
structure ServerHost (Key W A : Type) where
  staticPriv : Bytes
  serverSecret : Bytes
  serverTime : UInt64
  world : W
  table : ConnectionTable
  conns : List (UInt64 × ConnEntry Key)
  addrToToken : Endpoint → Option UInt64
  nowMs : Nat
  tokenCounter : UInt64
  dilationFactor : ℚ
  accounts : Option A
  persist : Option (List SimEvent)
  devAuthStub : Bool
  nowUnix : Int

/-- A datagram for a peer. -/
structure OutDatagram where
  dest : Endpoint
  data : Bytes
  deriving DecidableEq

/-- The connection token in the clear header of an encrypted datagram. -/
def peekConnectionToken (dg : Bytes) : Option UInt64 :=
  match dg with
  | kind :: rest =>
      if kind ≠ kindEncrypted then none
      else if rest.length < 4 + 8 then none
      else some (getU64 rest 4)
  | [] => none

/-- Name and password of a credential frame. -/
def decodeAuthRequest (body : Bytes) : Option (Bytes × Bytes) :=
  let readStr (b : Bytes) : Option (Bytes × Bytes) :=
    if b.length < 2 then none
    else if b.length < 2 + getU16 b 0 then none
    else some ((b.drop 2).take (getU16 b 0), b.drop (2 + getU16 b 0))
  match readStr (body.drop 1) with
  | none => none
  | some (user, rest) => (readStr rest).map fun r => (user, r.1)

def isAuthOpcode (b : UInt8) : Bool := b = authOpcodeRegister || b = authOpcodeLogin

/-- Safe payload less header and tag. -/
def snapshotByteBudget : Nat := 1200 - wireSize - 16

namespace ServerHost

variable {Key W Snap A : Type} (C : CryptoProvider Key) (U : GameUniverse W Snap)
  (S : AccountService A)

def start (staticPriv serverSecret : Bytes) (serverTime : UInt64) (w : W) (accounts : Option A)
    (persist : Option (List SimEvent)) (devAuthStub : Bool) : ServerHost Key W A :=
  { staticPriv := staticPriv, serverSecret := serverSecret, serverTime := serverTime
    world := w, table := .empty, conns := [], addrToToken := fun _ => none, nowMs := 0, tokenCounter := 0
    dilationFactor := 1, accounts := accounts, persist := persist, devAuthStub := devAuthStub
    nowUnix := 0 }

/-- The connection a token belongs to. -/
def entryForToken (h : ServerHost Key W A) (token : UInt64) : Option (ConnEntry Key) :=
  (h.conns.find? fun e => e.1 = token).map Prod.snd

def entryForClient (h : ServerHost Key W A) (netId : UInt32) : Option (UInt64 × ConnEntry Key) :=
  h.conns.find? fun e => e.2.playerNetId = netId

/-- Change a connection's entry. -/
def modify (h : ServerHost Key W A) (token : UInt64) (f : ConnEntry Key → ConnEntry Key) :
    ServerHost Key W A :=
  { h with conns := h.conns.map fun e => if e.1 = token then (e.1, f e.2) else e }

def setConn (h : ServerHost Key W A) (token : UInt64) (conn : ServerConnection Key) :
    ServerHost Key W A :=
  h.modify token fun e => { e with conn := conn }

/-- Drop a connection's entry and its address, and close its slot. -/
def dropEntry (h : ServerHost Key W A) (token : UInt64) (endpoint : Endpoint) :
    ServerHost Key W A :=
  { h with
    table := h.table.close token
    conns := h.conns.filter fun e => e.1 ≠ token
    addrToToken := fun a => if a = endpoint then none else h.addrToToken a }

/-- Despawn the base and drop all state of a connection. -/
def removeConnection (h : ServerHost Key W A) (token : UInt64) : ServerHost Key W A :=
  match h.entryForToken token with
  | none => h
  | some e =>
      dropEntry { h with world := U.despawnBase e.playerNetId h.world } token e.endpoint

/-- Drop the other connections of an account; their base stays. -/
def kickExistingSessionForAccount (h : ServerHost Key W A) (accountId : Nat)
    (keepToken : UInt64) : ServerHost Key W A :=
  let kick := h.conns.filter fun e =>
    e.1 ≠ keepToken ∧ e.2.authed = true ∧ e.2.accountId = accountId
  kick.foldl (fun h e => h.dropEntry e.1 e.2.endpoint) h

/-- A base, a harvester and some ore. -/
def spawnPlayerWorld (h : ServerHost Key W A) (slot : Nat) : UInt32 × ServerHost Key W A :=
  let startX : Int := sectorSize - 200
  let startY : Int := slot * 2000
  let r := U.spawnBase ⟨startX, startY, 0⟩ h.world
  let w := U.spawnFleetShip r.1 ⟨startX + 220, startY, 0⟩ r.2
  (r.1, { h with world := U.setOre r.1 w })

/-- The base of a logged-in account: the one its record names, if there is such a
    base, or a new one. -/
def bindAccountBase (h : ServerHost Key W A) (session : SessionInfo) :
    UInt32 × ServerHost Key W A :=
  let persisted := UInt32.ofInt session.baseId
  let firstLogin := !(session.baseId ≠ 0 ∧ U.hasBase persisted h.world = true)
  let r := if firstLogin then h.spawnPlayerWorld U h.conns.length else (persisted, h)
  let h := { r.2 with accounts := r.2.accounts.map (S.setAccountBase session.accountId r.1) }
  let h :=
    if firstLogin then { h with persist := h.persist.map (· ++ [.firstLogin session.accountId]) }
    else h
  (r.1, h)

/-- The answer to a credential frame, with the entry's net id and the first eight
    bytes of its session token. -/
def sendAuthResult (h : ServerHost Key W A) (token : UInt64) (peer : Endpoint) (res : AuthResult) :
    List OutDatagram × ServerHost Key W A :=
  match h.entryForToken token with
  | none => ([], h)
  | some e =>
      let body := authOpcodeResult :: res.toByte ::
        (putU32 e.playerNetId ++ e.sessionToken.toList.take 8)
      match e.conn.sealApp C .reliableOrdered .command body with
      | none => ([], h)
      | some (d, conn) => ([⟨peer, d⟩], h.setConn token conn)

/-- Register or log in on behalf of a connection. -/
def authenticate (h : ServerHost Key W A) (accounts : A) (endpoint : Endpoint) (opcode : UInt8)
    (user pass : Bytes) : (AuthResult × SessionInfo) × A :=
  if opcode = authOpcodeRegister then
    let r := S.register user pass h.nowUnix accounts
    if r.1.1 = .ok then S.login user pass endpoint.ip h.nowUnix r.2 else r
  else S.login user pass endpoint.ip h.nowUnix accounts

/-- A credential frame of a connection. -/
def onAuthMessage (h : ServerHost Key W A) (token : UInt64) (peer : Endpoint) (body : Bytes) :
    List OutDatagram × ServerHost Key W A :=
  match h.entryForToken token, decodeAuthRequest body, h.accounts with
  | none, _, _ => ([], h)
  | some _, none, _ => h.sendAuthResult C token peer .badInput
  | some _, some _, none => h.sendAuthResult C token peer .dbUnavailable
  | some e, some (user, pass), some accounts =>
      let r := h.authenticate S accounts e.endpoint (body.headD 0) user pass
      let h := { h with accounts := some r.2 }
      if r.1.1 ≠ .ok then h.sendAuthResult C token peer r.1.1
      else
        let session := r.1.2
        let h := h.kickExistingSessionForAccount session.accountId token
        let b := h.bindAccountBase U S session
        let h := b.2.modify token fun e =>
          { e with
            conn := { e.conn with playerNetId := b.1 }.markConnected
            playerNetId := b.1
            authed := true
            accountId := session.accountId
            sessionToken := session.token }
        h.sendAuthResult C token peer .ok

/-- A message a connection received. Acknowledgements and all other types are not
    looked at. -/
def applyMessage (h : ServerHost Key W A) (token : UInt64) (peer : Endpoint) (m : DecodedMessage) :
    List OutDatagram × ServerHost Key W A :=
  match m.type with
  | .command =>
      match m.body with
      | [] => ([], h)
      | opcode :: _ => if isAuthOpcode opcode then h.onAuthMessage C U S token peer m.body else ([], h)
  | .fleetCommand =>
      match h.entryForToken token with
      | none => ([], h)
      | some e =>
          if e.authed = true then
            ([], { h with world := U.applyFleetCommand e.playerNetId m.body h.world })
          else ([], h)
  | _ => ([], h)

def applyMessages (token : UInt64) (peer : Endpoint) :
    ServerHost Key W A → List DecodedMessage → List OutDatagram × ServerHost Key W A
  | h, [] => ([], h)
  | h, m :: ms =>
      let r := h.applyMessage C U S token peer m
      let rs := applyMessages token peer r.2 ms
      (r.1 ++ rs.1, rs.2)

/-- A cookie response of a client whose response was lost. -/
def isRepeatedCookieResponse (e : ConnEntry Key) (dg : Bytes) : Bool :=
  e.conn.state ≠ .connected &&
    match dg with
    | kind :: type :: _ => kind = kindClearHandshake && MsgType.ofByte type = .cookieResponse
    | _ => false

def dispatchToConnection (h : ServerHost Key W A) (token : UInt64) (peer : Endpoint) (dg : Bytes) :
    List OutDatagram × ServerHost Key W A :=
  match h.entryForToken token with
  | none => ([], h)
  | some e =>
      if isRepeatedCookieResponse e dg then (e.conn.resendHandshake.map (⟨peer, ·⟩), h)
      else
        let r := e.conn.onDatagram C dg
        let rs := applyMessages C U S token peer (h.setConn token r.2) r.1.app
        (r.1.send.map (⟨peer, ·⟩) ++ rs.1, rs.2)

/-- Route a datagram to a connection: stamp it, dispatch, and remove it if that
    disconnected it. -/
def routeTo (h : ServerHost Key W A) (token : UInt64) (peer : Endpoint) (dg : Bytes) :
    List OutDatagram × ServerHost Key W A :=
  let r := dispatchToConnection C U S (h.modify token fun e => { e with lastSeenMs := h.nowMs })
    token peer dg
  match r.2.entryForToken token with
  | none => r
  | some e =>
      if e.conn.state = .disconnected then (r.1, r.2.removeConnection U token) else r

/-- The counter mixed into a token. -/
def mixToken (counter : UInt64) : UInt64 :=
  let x : UInt64 := counter * 0x9E3779B97F4A7C15 + 0xABCDEF
  let x : UInt64 := (x ^^^ (x >>> 30)) * 0xBF58476D1CE4E5B9
  x ^^^ (x >>> 31)

/-- Accept a client whose cookie is valid. -/
def accept (fresh : EcdhKeyPair) (h : ServerHost Key W A) (src : Endpoint) (body : Bytes) :
    List OutDatagram × ServerHost Key W A :=
  let h := { h with tokenCounter := h.tokenCounter + 1 }
  let token := mixToken h.tokenCounter
  let conn : ServerConnection Key := .start h.staticPriv token h.serverTime
  let conn := { conn with server := { conn.server with dilationFactor := h.dilationFactor } }
  let spawned := if h.devAuthStub then h.spawnPlayerWorld U h.conns.length else (0, h)
  let conn := { conn with playerNetId := spawned.1 }
  let began := conn.beginFromCookieResponse C fresh body
  let slot := h.table.openSlot token
  let entry : ConnEntry Key :=
    { conn := began.2, endpoint := src, handle := slot.1, lastSeenMs := h.nowMs
      playerNetId := spawned.1, authed := h.devAuthStub, accountId := 0
      sessionToken := List.Vector.replicate 32 0 }
  let h := spawned.2
  (began.1.send.map (⟨src, ·⟩),
    { h with
      table := slot.2
      -- A token that is taken keeps its entry.
      conns := if (h.entryForToken token).isSome then h.conns else h.conns ++ [(token, entry)]
      addrToToken := fun a => if a = src then some token else h.addrToToken a })

/-- A clear datagram from an address with no live connection. -/
def onStateless (fresh : EcdhKeyPair) (h : ServerHost Key W A) (src : Endpoint) (type : MsgType)
    (body : Bytes) : List OutDatagram × ServerHost Key W A :=
  match type with
  | .clientHello =>
      match onClientHello C h.serverSecret body src.addrBytes with
      | .message t b => ([⟨src, makeHandshakeDatagram t b⟩], h)
      | _ => ([], h)
  | .cookieResponse =>
      match decodeCookieResponse body with
      | none => ([], h)
      | some cr =>
          if C.verifyCookie h.serverSecret src.addrBytes cr.cookie = false then ([], h)
          else accept C U fresh h src body
  | _ => ([], h)

/-- The token of the live connection a clear datagram is routed to. -/
def routeOf (h : ServerHost Key W A) (src : Endpoint) : Option UInt64 :=
  (h.addrToToken src).filter fun t => (h.entryForToken t).isSome

/-- One datagram. -/
def onDatagram (fresh : EcdhKeyPair) (h : ServerHost Key W A) (src : Endpoint) (dg : Bytes) :
    List OutDatagram × ServerHost Key W A :=
  match dg with
  | [] => ([], h)
  | kind :: rest =>
      if kind = kindEncrypted then
        match peekConnectionToken dg with
        | none => ([], h)
        | some token =>
            if (h.entryForToken token).isSome then routeTo C U S h token src dg else ([], h)
      else if kind ≠ kindClearHandshake then ([], h)
      else
        match rest with
        | [] => ([], h)
        | type :: body =>
            match h.routeOf src with
            | some token => routeTo C U S h token src dg
            | none => onStateless C U fresh h src (.ofByte type) body

/-- The net ids of the connected clients, sorted. -/
def connectedClientIds (h : ServerHost Key W A) : List UInt32 :=
  ((h.conns.filter fun e => e.2.conn.state = .connected ∧ e.2.playerNetId ≠ 0).map
    fun e => e.2.playerNetId).mergeSort

/-- Build the snapshots of a list of clients. -/
def encodeClients : W → List UInt32 → List (UInt32 × Snap) × W
  | w, [] => ([], w)
  | w, id :: ids =>
      let r := U.buildClientSnapshot id snapshotByteBudget w
      let rs := encodeClients r.2 ids
      ((id, r.1) :: rs.1, rs.2)

/-- Seal and record one client's snapshot. -/
def sendSnapshot (h : ServerHost Key W A) (id : UInt32) (snap : Snap) :
    List OutDatagram × ServerHost Key W A :=
  match h.entryForClient id with
  | none => ([], h)
  | some (token, e) =>
      if e.conn.state ≠ .connected then ([], h)
      else
        let recorded := fun h : ServerHost Key W A =>
          { h with world := U.recordClientSnapshotSent id snap h.world }
        match e.conn.sealApp C .unreliable .snapshot (U.encodeSnapshot snap) with
        | none => ([], recorded h)
        | some (d, conn) => ([⟨e.endpoint, d⟩], recorded (h.setConn token conn))

def sendSnapshots : ServerHost Key W A → List (UInt32 × Snap) → List OutDatagram × ServerHost Key W A
  | h, [] => ([], h)
  | h, (id, snap) :: rest =>
      let r := h.sendSnapshot C U id snap
      let rs := sendSnapshots r.2 rest
      (r.1 ++ rs.1, rs.2)

/-- A snapshot for every connected client. -/
def broadcastSnapshots (h : ServerHost Key W A) : List OutDatagram × ServerHost Key W A :=
  let r := encodeClients U h.world h.connectedClientIds
  sendSnapshots C U { h with world := r.2 } r.1

def setDilationFactor (h : ServerHost Key W A) (f : ℚ) : ServerHost Key W A :=
  { h with
    dilationFactor := f
    conns := h.conns.map fun e =>
      (e.1, { e.2 with conn := { e.2.conn with
        server := { e.2.conn.server with dilationFactor := f } } }) }

/-- A connection that is disconnected, or that was not heard of for too long. -/
def stale (nowMs timeoutMs : Nat) (e : ConnEntry Key) : Bool :=
  e.conn.state = .disconnected ||
    (timeoutMs ≠ 0 && e.lastSeenMs ≤ nowMs && timeoutMs < nowMs - e.lastSeenMs)

/-- Remove the stale connections. -/
def pruneStale (h : ServerHost Key W A) (timeoutMs : Nat) : ServerHost Key W A :=
  ((h.conns.filter fun e => stale h.nowMs timeoutMs e.2).map Prod.fst).foldl
    (fun h token => h.removeConnection U token) h

end ServerHost

end Net

end EarthRise
