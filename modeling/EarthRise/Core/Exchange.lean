import EarthRise.Core.HostRun

/-!
# A Handshake Under Attack

One client, the connections of the server, and clear messages between them that somebody
else holds in the hand. What the client gets is whatever that one likes: the server's
messages changed, repeated, mixed, left out or made up. The server answers a cookie response
whoever made it, each time with a connection and a key pair of its own.

What the attacker cannot do is to make a signature, so a response that verifies carries a key
that the server signed.

One client at one address, the host, and the network between them. The network keeps
whatever was sent to the other end and delivers it when it likes, as often as it likes, or
never; it makes nothing up. The host does anything else in between: other peers send to it,
it broadcasts, it prunes.

The client can be restarted at any time, by a new connection at the same address, while what
the old one sent and was sent is still under way.

Beside the two ends the state has what the host answered to cookie responses, and for the
tokens in use which answer opened the connection.

## Main definitions

* `Answer`, `answerOf`: What the server makes of a cookie response.
* `Exchange`, `Exchange.step`: The client and the answers of the server.
* `Exchange.Unforged`: Key pairs are new, and no signature is forged.
* `CryptoProvider.Ideal`: What is assumed of the key agreement.
* `ClientCall`: What the owner of a client connection calls.
* `ServerHost.output`, `ServerHost.answered`: What a step of the host sends and opens.
* `Meeting`, `Meeting.step`: Client, host and network.
* `Meeting.Drawn`: Key pairs are new.
-/

namespace EarthRise

namespace Net

/-- What the server made of a cookie response: the key it was made for, the response, and the
    keys of the connection. -/
structure Answer (Key : Type) where
  clientPub : EcPubKey
  response : HandshakeResponseBody
  keys : Key × Key

/-- The key agreement of a new connection. -/
def answerOf {Key : Type} (C : CryptoProvider Key) (staticPriv : Bytes) (fresh : EcdhKeyPair)
    (token serverTime : UInt64) (body : Bytes) : Option (Answer Key) :=
  let r := (HandshakeServerConnection.start staticPriv token serverTime).onCookieResponse C fresh
    body
  match decodeCookieResponse body, r.1, r.2.keys with
  | some cr, .message _ b, some keys =>
      (decodeHandshakeResponse b).map fun response => ⟨cr.clientEphemeralPub, response, keys⟩
  | _, _, _ => none

inductive ExchangeLabel
  /-- The server answers a cookie response for a new connection. -/
  | answer (fresh : EcdhKeyPair) (token serverTime : UInt64) (body : Bytes)
  /-- The client gets a clear message. -/
  | deliver (fresh : EcdhKeyPair) (type : MsgType) (body : Bytes)
  /-- The client begins anew. -/
  | restart (clientTime : UInt64)

/-- The client, the answers of the server, the server's key in the response that the client
    accepted, and the public keys that were generated. -/
structure Exchange (Key : Type) where
  staticPriv : Bytes
  client : HandshakeClient Key
  answers : List (Answer Key)
  used : Option EcPubKey
  drawn : List EcPubKey

namespace Exchange

variable {Key : Type} (C : CryptoProvider Key)

def start (staticPriv : Bytes) (pinnedStaticPub : EcPubKey) (clientTime : UInt64) :
    Exchange Key :=
  { staticPriv := staticPriv, client := .start pinnedStaticPub clientTime, answers := []
    used := none, drawn := [] }

def step (w : Exchange Key) : ExchangeLabel → Option (Exchange Key)
  | .answer fresh token serverTime body =>
      some { w with
        answers := w.answers ++ (answerOf C w.staticPriv fresh token serverTime body).toList
        drawn := fresh.publicKey :: w.drawn }
  | .deliver fresh type body =>
      let client := (w.client.onMessage C fresh type body).2
      some { w with
        client := client
        used :=
          if w.client.keys.isNone ∧ client.keys.isSome then
            (decodeHandshakeResponse body).map HandshakeResponseBody.serverEphemeralPub
          else w.used
        drawn := fresh.publicKey :: w.drawn }
  | .restart clientTime =>
      some { w with client := .start w.client.pinnedStaticPub clientTime, used := none }

/-- A key pair comes out of the generator and is new, and a response that verifies carries a
    key that the server signed. -/
def Unforged (Gen : EcdhKeyPair → Prop) (w : Exchange Key) : ExchangeLabel → Prop
  | .answer fresh _ _ _ => Gen fresh ∧ fresh.publicKey ∉ w.drawn
  | .deliver fresh type body => Gen fresh ∧ fresh.publicKey ∉ w.drawn ∧
      (type = .handshakeResponse → ∀ response, decodeHandshakeResponse body = some response →
        C.verify w.client.pinnedStaticPub response.serverEphemeralPub response.signature = true →
          ∃ a ∈ w.answers, a.response.serverEphemeralPub = response.serverEphemeralPub)
  | .restart _ => True

end Exchange

/-- What is assumed of the key agreement, for the key pairs of the generator: two pairs give
    the same secret exactly if each has the other's public key, or both are the same; other
    keys come of another secret or another epoch; and there is no secret without a private
    key. -/
structure CryptoProvider.Ideal {Key : Type} (C : CryptoProvider Key) (Gen : EcdhKeyPair → Prop) :
    Prop where
  unset : ∀ (pair : EcdhKeyPair) (pub : EcPubKey), pair.privateBlob = [] →
    C.deriveSharedSecret pair pub = none
  agree : ∀ a b, Gen a → Gen b →
    C.deriveSharedSecret a b.publicKey = C.deriveSharedSecret b a.publicKey
  apart : ∀ (a b : EcdhKeyPair) (x y : EcPubKey) (s : SharedSecret), Gen a → Gen b →
    C.deriveSharedSecret a x = some s → C.deriveSharedSecret b y = some s →
      a.publicKey = y ∧ x = b.publicKey ∨ a.publicKey = b.publicKey ∧ x = y
  keys : ∀ (s s' : SharedSecret) (e e' : UInt32) (k : Key × Key),
    C.deriveAeadKeys s e = some k → C.deriveAeadKeys s' e' = some k → s = s' ∧ e = e'

/-- What the owner of a client connection calls beside receiving. -/
inductive ClientCall
  | resendPending
  | sendTyped (type : MsgType) (body : Bytes)
  | buildKeepalive
  | buildDisconnect

def ClientConnection.call {Key : Type} (C : CryptoProvider Key) (c : ClientConnection Key) :
    ClientCall → Output × ClientConnection Key
  | .resendPending => c.resendPending C
  | .sendTyped type body => c.emit (c.sendTyped C type body)
  | .buildKeepalive => c.emit (c.buildKeepalive C)
  | .buildDisconnect => c.emit (c.buildDisconnect C)

namespace ServerHost

variable {Key W Snap A : Type} (C : CryptoProvider Key) (U : GameUniverse W Snap)
  (S : AccountService A)

/-- What a step of the host sends. -/
def output (h : ServerHost Key W A) : HostLabel W A → List OutDatagram
  | .datagram fresh src dg => (h.onDatagram C U S fresh src dg).1
  | .broadcast => (h.broadcastSnapshots C U).1
  | _ => []

/-- Whether a datagram opens a connection: a cookie response with a good cookie, from an
    address that has no connection. -/
def opensConnection (h : ServerHost Key W A) (src : Endpoint) (dg : Bytes) : Bool :=
  match dg with
  | kind :: type :: body =>
      kind = kindClearHandshake && (h.routeOf src).isNone &&
        MsgType.ofByte type = .cookieResponse && (decodeCookieResponse body).any fun cr =>
          C.verifyCookie h.serverSecret src.addrBytes cr.cookie
  | _ => false

/-- The token of the next connection. -/
def nextToken (h : ServerHost Key W A) : UInt64 := mixToken (h.tokenCounter + 1)

/-- What the host answers with a new connection, if a step opens one. -/
def answered (h : ServerHost Key W A) : HostLabel W A → Option (Answer Key)
  | .datagram fresh src dg =>
      if h.opensConnection C src dg = true then
        answerOf C h.staticPriv fresh h.nextToken h.serverTime (dg.drop 2)
      else none
  | _ => none

end ServerHost

inductive MeetingLabel (W A : Type)
  /-- Anything that the host does but for the datagrams of the client. -/
  | host (l : HostLabel W A)
  | toServer (fresh : EcdhKeyPair) (dg : Bytes)
  | toClient (fresh : EcdhKeyPair) (dg : Bytes)
  | call (f : ClientCall)
  | restart (clientTime : UInt64) (loginName : Bytes) (password : Option Bytes)

/-- The two ends, what is under way, and what went before. -/
structure Meeting (Key W A : Type) where
  host : ServerHost Key W A
  client : ClientConnection Key
  /-- What was sent to the other end. -/
  toServer : List Bytes
  toClient : List Bytes
  answers : List (Answer Key)
  /-- The answer that opened the connection of a token. -/
  opened : UInt64 → Option (Answer Key)
  /-- The server's key in the response that the client accepted. -/
  used : Option EcPubKey
  drawn : List EcPubKey

namespace Meeting

variable {Key W Snap A : Type} (C : CryptoProvider Key) (U : GameUniverse W Snap)
  (S : AccountService A) (peer : Endpoint)

/-- A host without connections, and a client that has sent its hello. -/
def start (host : ServerHost Key W A) (pinnedPub : EcPubKey) (clientTime : UInt64)
    (loginName : Bytes) (password : Option Bytes) : Meeting Key W A :=
  let client : ClientConnection Key := .start pinnedPub clientTime loginName password
  { host := host, client := client, toServer := [client.lastHandshakeDatagram], toClient := []
    answers := [], opened := fun _ => none, used := none, drawn := [] }

def drawing (drawn : List EcPubKey) : HostLabel W A → List EcPubKey
  | .datagram fresh _ _ => fresh.publicKey :: drawn
  | _ => drawn

/-- A step of the host. An answer opens the connection of its token, if that is free. -/
def hostStep (w : Meeting Key W A) (l : HostLabel W A) : Option (Meeting Key W A) :=
  (w.host.step C U S l).map fun host =>
    let answer := w.host.answered C l
    { w with
      host := host
      toClient := w.toClient ++ (((w.host.output C U S l).filter fun d => d.dest = peer).map
        OutDatagram.data)
      answers := w.answers ++ answer.toList
      opened := fun t =>
        if answer.isSome ∧ t = w.host.nextToken ∧ (w.host.entryForToken t).isNone then answer
        else w.opened t
      drawn := drawing w.drawn l }

/-- Whether a label of the host is a datagram of the client. -/
def fromPeer : HostLabel W A → Bool
  | .datagram _ src _ => src = peer
  | _ => false

def step (w : Meeting Key W A) : MeetingLabel W A → Option (Meeting Key W A)
  | .host l => if fromPeer peer l then none else w.hostStep C U S peer l
  | .toServer fresh dg =>
      if dg ∈ w.toServer then w.hostStep C U S peer (.datagram fresh peer dg) else none
  | .toClient fresh dg =>
      if dg ∈ w.toClient then
        let r := w.client.onDatagram C fresh dg
        some { w with
          client := r.2
          toServer := w.toServer ++ r.1.send
          used :=
            if w.client.client.keys.isNone ∧ r.2.client.keys.isSome then
              (decodeHandshakeResponse (dg.drop 2)).map HandshakeResponseBody.serverEphemeralPub
            else w.used
          drawn := fresh.publicKey :: w.drawn }
      else none
  | .call f =>
      let r := w.client.call C f
      some { w with client := r.2, toServer := w.toServer ++ r.1.send }
  | .restart clientTime loginName password =>
      let client : ClientConnection Key :=
        .start w.client.client.pinnedStaticPub clientTime loginName password
      some { w with
        client := client
        toServer := w.toServer ++ [client.lastHandshakeDatagram]
        used := none }

/-- A key pair comes out of the generator and is new. -/
def Drawn (Gen : EcdhKeyPair → Prop) (w : Meeting Key W A) : MeetingLabel W A → Prop
  | .host (.datagram fresh _ _) => Gen fresh ∧ fresh.publicKey ∉ w.drawn
  | .toServer fresh _ => Gen fresh ∧ fresh.publicKey ∉ w.drawn
  | .toClient fresh _ => Gen fresh ∧ fresh.publicKey ∉ w.drawn
  | _ => True

end Meeting

end Net

end EarthRise
