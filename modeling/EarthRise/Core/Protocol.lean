import EarthRise.Core.SecureChannel

/-!
# Message Framing

The vocabulary of the wire and the framing inside an encrypted payload.

A byte of the wire becomes an enumeration value by a cast, so every byte is a
`MsgType`; the ones the protocol does not name are `other`. The length field of a
message has sixteen bits, and the writer puts the low sixteen of the body's size
there whatever the size is. One message is appended to what is there, and the reader
walks over the payload with an offset. A connection takes all messages of a payload, or
none where the reader fails on a cut one.

The channel and the type of a message are the bytes of the wire, since every byte is a value
of either enumeration. A read past the end of the payload is not defined in the source.
Here it is an outcome of its own, `outOfBounds`, which the reader runs into wherever it
looks at a byte that is not there. The messages found before an error stay in the list of
the caller.

## Main definitions

* `MsgType`, `Channel`, `ConnState`, `DisconnectReason`: The wire vocabulary.
* `Framing.Message`: A message of the wire.
* `Framing.writeMessage`: Appending one.
* `Framing.readMessagesFrom`, `Framing.readMessages`: The reader.
* `writeMessage`, `readMessages`: What a connection makes of them.

## Theorems

* `ofByte_toByte`: A named type survives the wire.
-/

namespace EarthRise

namespace Net

/-- The message types by name; any other byte is kept as it is. -/
inductive MsgType
  | clientHello
  | cookie
  | cookieResponse
  | versionReject
  | handshakeRequest
  | handshakeResponse
  | clockSyncRequest
  | clockSyncResponse
  | loginRequest
  | loginResponse
  | snapshot
  | command
  | ack
  | keepalive
  | disconnect
  | fleetCommand
  | other (code : UInt8)
  deriving DecidableEq, Repr

namespace MsgType

def toByte : MsgType → UInt8
  | clientHello => 1
  | cookie => 2
  | cookieResponse => 3
  | versionReject => 4
  | handshakeRequest => 5
  | handshakeResponse => 6
  | clockSyncRequest => 7
  | clockSyncResponse => 8
  | loginRequest => 20
  | loginResponse => 21
  | snapshot => 40
  | command => 41
  | ack => 42
  | keepalive => 43
  | disconnect => 44
  | fleetCommand => 45
  | other code => code

def ofByte (b : UInt8) : MsgType :=
  match b with
  | 1 => clientHello
  | 2 => cookie
  | 3 => cookieResponse
  | 4 => versionReject
  | 5 => handshakeRequest
  | 6 => handshakeResponse
  | 7 => clockSyncRequest
  | 8 => clockSyncResponse
  | 20 => loginRequest
  | 21 => loginResponse
  | 40 => snapshot
  | 41 => command
  | 42 => ack
  | 43 => keepalive
  | 44 => disconnect
  | 45 => fleetCommand
  | code => other code

/-- A type the protocol has a name for. -/
def Named (t : MsgType) : Prop := ∀ code, t ≠ other code

theorem ofByte_toByte (t : MsgType) (h : t.Named) : ofByte t.toByte = t := by
  cases t with
  | other code => exact absurd rfl (h code)
  | _ => rfl

end MsgType

inductive Channel
  | unreliable
  | reliableOrdered
  | reliableUnordered
  deriving DecidableEq, Repr

def Channel.toByte : Channel → UInt8
  | .unreliable => 0
  | .reliableOrdered => 1
  | .reliableUnordered => 2

inductive ConnState
  | idle
  | sentHello
  | sentCookieResp
  | handshaking
  | clockSyncing
  | authenticating
  | connected
  | disconnected
  deriving DecidableEq, Repr

inductive DisconnectReason
  | normal
  | timeout
  | protocolMismatch
  | badCookie
  | handshakeFailure
  | authFailure
  | replayDetected
  | serverFull
  | duplicateSession
  deriving DecidableEq, Repr

def DisconnectReason.toByte : DisconnectReason → UInt8
  | .normal => 0
  | .timeout => 1
  | .protocolMismatch => 2
  | .badCookie => 3
  | .handshakeFailure => 4
  | .authFailure => 5
  | .replayDetected => 6
  | .serverFull => 7
  | .duplicateSession => 8

def authOpcodeRegister : UInt8 := 0xA0
def authOpcodeLogin : UInt8 := 0xA1
def authOpcodeResult : UInt8 := 0xA2

def authResultOk : UInt8 := 0
def authResultInvalidCredentials : UInt8 := 2

/-- The first byte of every datagram. -/
def kindClearHandshake : UInt8 := 0
def kindEncrypted : UInt8 := 1

/-- Header, payload and tag. -/
def maxDatagramBytes : Nat := 1280

/-- One message of a payload. The channel is not looked at when it is read. -/
structure DecodedMessage where
  channel : UInt8
  type : MsgType
  body : Bytes
  deriving DecidableEq, Repr

def putU16 (v : Nat) : Bytes := putLE 2 v

def getU16 (b : Bytes) (off : Nat) : Nat := getLE 2 (b.drop off)

namespace Framing

structure Message where
  channel : UInt8
  type : UInt8
  body : Bytes
  deriving DecidableEq, Repr

/-- Channel, type, the low sixteen bits of the size, body. -/
def writeMessage (out : Bytes) (m : Message) : Bytes :=
  out ++ [m.channel, m.type] ++ putU16 m.body.length ++ m.body

/-- How the reader ends. -/
inductive Status
  | ok
  | malformed
  | outOfBounds
  deriving DecidableEq, Repr

/-- Two bytes at an offset, if they are there. -/
def getU16? (b : Bytes) (off : Nat) : Option Nat :=
  match b[off]?, b[off + 1]? with
  | some lo, some hi => some (lo.toNat + 256 * hi.toNat)
  | _, _ => none

/-- A part of the payload, if all of it is there. -/
def subspan? (b : Bytes) (off count : Nat) : Option Bytes :=
  if off + count ≤ b.length then some ((b.drop off).take count) else none

/-- The reading loop, from an offset on. -/
def readMessagesFrom (payload : Bytes) (off : Nat) (out : List Message) :
    Status × List Message :=
  if off < payload.length then
    if payload.length < off + 4 then (.malformed, out)
    else
      match payload[off]?, payload[off + 1]?, getU16? payload (off + 2) with
      | some channel, some type, some len =>
          if payload.length < off + 4 + len then (.malformed, out)
          else
            match subspan? payload (off + 4) len with
            | some body =>
                readMessagesFrom payload (off + 4 + len) (out ++ [⟨channel, type, body⟩])
            | none => (.outOfBounds, out)
      | _, _, _ => (.outOfBounds, out)
  else (.ok, out)
termination_by payload.length - off

/-- Read all messages of a payload behind those that are in the list already. -/
def readMessages (payload : Bytes) (out : List Message) : Status × List Message :=
  readMessagesFrom payload 0 out

/-- The message by the names of the protocol. -/
def Message.decoded (m : Message) : DecodedMessage := ⟨m.channel, .ofByte m.type, m.body⟩

end Framing

/-- What a connection sends as one message. -/
def writeMessage (ch : Channel) (type : MsgType) (body : Bytes) : Bytes :=
  Framing.writeMessage [] ⟨ch.toByte, type.toByte, body⟩

/-- All messages of a payload, or `none` on malformed framing. -/
def readMessages (payload : Bytes) : Option (List DecodedMessage) :=
  if (Framing.readMessages payload []).1 = .ok then
    some ((Framing.readMessages payload []).2.map Framing.Message.decoded)
  else none

/-- A body that fits the length field. -/
def FitsLength (body : Bytes) : Prop := body.length < 2 ^ 16

instance (body : Bytes) : Decidable (FitsLength body) := inferInstanceAs (Decidable (_ < _))

theorem putU16_eq (v : Nat) : putU16 v = [UInt8.ofNat v, UInt8.ofNat (v / 256)] := rfl

end Net

end EarthRise
