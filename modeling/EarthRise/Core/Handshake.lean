import EarthRise.Core.Protocol
import Mathlib.Data.Rat.Floor
import Mathlib.Data.Vector.Basic

/-!
# The Handshake

Message bodies and the two ends of the handshake: cookie, version gate, key
agreement under the server's static key, clock sync.

A key pair comes out of a generator, so the steps that make one take it as an
argument. What the provider computes is a parameter, as the channel's encryption
is. The dilation factor is a rational and goes over the wire in parts per
million.

The handlers stay reachable after the handshake is over. A client that has its
keys answers a repeated response by asking for the clock again, and a repeated
cookie by the same key; a body that is too short fails the connection whenever it
comes.

## Main definitions

* `CryptoProvider`: Cookies, key agreement and signatures beside the encryption.
* `HsOutput`: What a handler produces.
* `HandshakeServerConnection`, `HandshakeClient`: The two ends.
-/

namespace EarthRise

namespace Net

/-- An array of a fixed number of bytes. -/
abbrev ByteArrayOf (n : Nat) := List.Vector UInt8 n

def cookieBytes : Nat := 32
def ecPubKeyBytes : Nat := 64
def ecSigBytes : Nat := 64

abbrev Cookie := ByteArrayOf cookieBytes
abbrev EcPubKey := ByteArrayOf ecPubKeyBytes
abbrev EcSignature := ByteArrayOf ecSigBytes
abbrev SharedSecret := ByteArrayOf 32

/-- The first `n` bytes from an offset on, where there are as many. -/
def takeArray (n : Nat) (b : Bytes) (off : Nat) : Option (ByteArrayOf n) :=
  if h : off + n ≤ b.length then
    some ⟨(b.drop off).take n, by rw [List.length_take, List.length_drop]; omega⟩
  else none

structure EcdhKeyPair where
  publicKey : EcPubKey
  privateBlob : Bytes

/-- What the handshake calls beside the channel's encryption. -/
structure CryptoProvider (Key : Type) extends ICrypto Key where
  deriveSharedSecret : EcdhKeyPair → EcPubKey → Option SharedSecret
  sign : Bytes → EcPubKey → Option EcSignature
  verify : EcPubKey → EcPubKey → EcSignature → Bool
  deriveAeadKeys : SharedSecret → UInt32 → Option (Key × Key)
  makeCookie : Bytes → Bytes → Cookie
  verifyCookie : Bytes → Bytes → Cookie → Bool

/-- A message to send, a failure, or neither. -/
inductive HsOutput
  | none
  | message (type : MsgType) (body : Bytes)
  | fail (reason : DisconnectReason)
  deriving DecidableEq

/-! ## Message bodies -/

def encodeClientHello (protocol : UInt32) : Bytes := putU32 protocol

def decodeClientHello (b : Bytes) : Option UInt32 :=
  if b.length < 4 then none else some (getU32 b 0)

def decodeCookie (b : Bytes) : Option Cookie := takeArray cookieBytes b 0

structure CookieResponseBody where
  cookie : Cookie
  clientEphemeralPub : EcPubKey

def CookieResponseBody.encode (r : CookieResponseBody) : Bytes :=
  r.cookie.toList ++ r.clientEphemeralPub.toList

def decodeCookieResponse (b : Bytes) : Option CookieResponseBody := do
  let cookie ← takeArray cookieBytes b 0
  let pub ← takeArray ecPubKeyBytes b cookieBytes
  some ⟨cookie, pub⟩

structure HandshakeResponseBody where
  serverEphemeralPub : EcPubKey
  signature : EcSignature
  connectionToken : UInt64
  epoch : UInt32

def HandshakeResponseBody.encode (r : HandshakeResponseBody) : Bytes :=
  r.serverEphemeralPub.toList ++ r.signature.toList ++ putU64 r.connectionToken ++ putU32 r.epoch

def decodeHandshakeResponse (b : Bytes) : Option HandshakeResponseBody :=
  if b.length < ecPubKeyBytes + ecSigBytes + 8 + 4 then none
  else do
    let pub ← takeArray ecPubKeyBytes b 0
    let sig ← takeArray ecSigBytes b ecPubKeyBytes
    some ⟨pub, sig, getU64 b (ecPubKeyBytes + ecSigBytes), getU32 b (ecPubKeyBytes + ecSigBytes + 8)⟩

structure ClockSyncBody where
  clientTimeMicros : UInt64
  serverTimeMicros : UInt64
  dilationFactor : ℚ

def dilationFixedOne : Nat := 1000000

/-- The factor is clamped to the unit interval and rounded to parts per million. -/
def ClockSyncBody.encode (c : ClockSyncBody) : Bytes :=
  let f := max 0 (min 1 c.dilationFactor)
  putU64 c.clientTimeMicros ++ putU64 c.serverTimeMicros ++
    putU32 (UInt32.ofNat ⌊f * dilationFixedOne + 1 / 2⌋.toNat)

/-- A body without the last field is read as full speed. -/
def decodeClockSync (b : Bytes) : Option ClockSyncBody :=
  if b.length < 16 then none
  else some
    { clientTimeMicros := getU64 b 0
      serverTimeMicros := getU64 b 8
      dilationFactor :=
        if b.length < 20 then 1 else ((getU32 b 16).toNat : ℚ) / dilationFixedOne }

/-! ## The stateless server phase -/

/-- Version gate and cookie. The answer to a body that is cut is a failure, which
    the host does not send. -/
def onClientHello {Key : Type} (C : CryptoProvider Key) (serverSecret body clientAddr : Bytes) :
    HsOutput :=
  match decodeClientHello body with
  | none => .fail .protocolMismatch
  | some protocol =>
      if protocol ≠ protocolId then
        .message .versionReject [DisconnectReason.protocolMismatch.toByte]
      else .message .cookie (C.makeCookie serverSecret clientAddr).toList

/-! ## The server's end -/

/-- A connection's handshake on the server, from a valid cookie on. -/
structure HandshakeServerConnection (Key : Type) where
  staticPriv : Bytes
  token : UInt64
  serverTime : UInt64
  dilationFactor : ℚ
  epoch : UInt32
  /-- The keys to the server and to the client, once they are derived. -/
  keys : Option (Key × Key)
  complete : Bool

namespace HandshakeServerConnection

variable {Key : Type} (C : CryptoProvider Key)

def start (staticPriv : Bytes) (token serverTime : UInt64) : HandshakeServerConnection Key :=
  { staticPriv := staticPriv, token := token, serverTime := serverTime, dilationFactor := 1
    epoch := 0, keys := none, complete := false }

/-- Agree on keys with a client whose cookie was verified. `fresh` is the key pair
    the generator gives. -/
def onCookieResponse (fresh : EcdhKeyPair) (s : HandshakeServerConnection Key) (body : Bytes) :
    HsOutput × HandshakeServerConnection Key :=
  match decodeCookieResponse body with
  | none => (.fail .handshakeFailure, s)
  | some cr =>
      match C.deriveSharedSecret fresh cr.clientEphemeralPub with
      | none => (.fail .handshakeFailure, s)
      | some secret =>
          match C.sign s.staticPriv fresh.publicKey with
          | none => (.fail .handshakeFailure, s)
          | some sig =>
              match C.deriveAeadKeys secret s.epoch with
              | none => (.fail .handshakeFailure, s)
              | some keys =>
                  let resp : HandshakeResponseBody := ⟨fresh.publicKey, sig, s.token, s.epoch⟩
                  (.message .handshakeResponse resp.encode, { s with keys := some keys })

/-- Echo the client's time with the server's, and call the handshake complete. -/
def onClockSyncRequest (s : HandshakeServerConnection Key) (body : Bytes) :
    HsOutput × HandshakeServerConnection Key :=
  match decodeClockSync body with
  | none => (.fail .handshakeFailure, s)
  | some cs =>
      let reply : ClockSyncBody := ⟨cs.clientTimeMicros, s.serverTime, s.dilationFactor⟩
      (.message .clockSyncResponse reply.encode, { s with complete := true })

end HandshakeServerConnection

/-! ## The client's end -/

structure HandshakeClient (Key : Type) where
  pinnedStaticPub : EcPubKey
  clientTime : UInt64
  /-- The key pair of the first cookie; a later cookie keeps it. -/
  ephemeral : Option EcdhKeyPair
  token : UInt64
  epoch : UInt32
  keys : Option (Key × Key)
  complete : Bool
  rttMicros : UInt64
  clockOffsetMicros : Int64
  dilationFactor : ℚ

namespace HandshakeClient

variable {Key : Type} (C : CryptoProvider Key)

def start (pinnedStaticPub : EcPubKey) (clientTime : UInt64) : HandshakeClient Key :=
  { pinnedStaticPub := pinnedStaticPub, clientTime := clientTime, ephemeral := none, token := 0
    epoch := 0, keys := none, complete := false, rttMicros := 0, clockOffsetMicros := 0
    dilationFactor := 1 }

/-- The pair before the first cookie, all zero. -/
def noKeyPair : EcdhKeyPair := ⟨List.Vector.replicate ecPubKeyBytes 0, []⟩

def clockSyncRequest (c : HandshakeClient Key) : HsOutput :=
  let body : ClockSyncBody := ⟨c.clientTime, 0, 1⟩
  .message .clockSyncRequest body.encode

/-- Echo the cookie with a key; only the first cookie makes a new one. -/
def onCookie (fresh : EcdhKeyPair) (c : HandshakeClient Key) (body : Bytes) :
    HsOutput × HandshakeClient Key :=
  match decodeCookie body with
  | none => (.fail .badCookie, c)
  | some cookie =>
      let pair := c.ephemeral.getD fresh
      let reply : CookieResponseBody := ⟨cookie, pair.publicKey⟩
      (.message .cookieResponse reply.encode, { c with ephemeral := some pair })

/-- Verify the server and derive the keys, once. The token and the epoch are taken
    before the derivation that can still fail. -/
def onHandshakeResponse (c : HandshakeClient Key) (body : Bytes) :
    HsOutput × HandshakeClient Key :=
  if c.keys.isSome then (c.clockSyncRequest, c)
  else
    match decodeHandshakeResponse body with
    | none => (.fail .handshakeFailure, c)
    | some resp =>
        if C.verify c.pinnedStaticPub resp.serverEphemeralPub resp.signature = false then
          (.fail .handshakeFailure, c)
        else
          match C.deriveSharedSecret (c.ephemeral.getD noKeyPair) resp.serverEphemeralPub with
          | none => (.fail .handshakeFailure, c)
          | some secret =>
              let c := { c with token := resp.connectionToken, epoch := resp.epoch }
              match C.deriveAeadKeys secret resp.epoch with
              | none => (.fail .handshakeFailure, c)
              | some keys =>
                  let c := { c with keys := some keys }
                  (c.clockSyncRequest, c)

/-- Estimate the round trip and the offset, and call the handshake complete. -/
def onClockSyncResponse (c : HandshakeClient Key) (body : Bytes) :
    HsOutput × HandshakeClient Key :=
  match decodeClockSync body with
  | none => (.fail .handshakeFailure, c)
  | some cs =>
      let rtt := cs.clientTimeMicros + 1 - cs.clientTimeMicros
      let offset := cs.serverTimeMicros.toInt64 - (cs.clientTimeMicros + rtt / 2).toInt64
      (.none, { c with rttMicros := rtt, clockOffsetMicros := offset,
                       dilationFactor := cs.dilationFactor, complete := true })

/-- Dispatch a clear message. A version reject fails whenever it comes. -/
def onMessage (fresh : EcdhKeyPair) (c : HandshakeClient Key) (type : MsgType) (body : Bytes) :
    HsOutput × HandshakeClient Key :=
  match type with
  | .versionReject => (.fail .protocolMismatch, c)
  | .cookie => onCookie fresh c body
  | .handshakeResponse => onHandshakeResponse C c body
  | .clockSyncResponse => onClockSyncResponse c body
  | _ => (.none, c)

end HandshakeClient

end Net

end EarthRise
