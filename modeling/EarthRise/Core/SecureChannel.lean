import EarthRise.Core.PacketCodec
import Mathlib.Order.Basic

/-!
# The Secure Channel

Encrypted datagram framing after the handshake. A datagram is the clear header
followed by the sealed payload; the header is authenticated along with it.

`sealDatagram` writes the header under the running packet counter and encrypts.
`openDatagram` reads the header, checks the connection token, asks the replay
window, and only then decrypts. The window is asked and updated in one call, so
it has recorded the number before the tag is looked at.

The cryptographic provider is a parameter: an encryption and a decryption, each
of which may fail. `ICrypto.Correct` is the one law assumed of it.

The sliding window over packet numbers: a bitmask of sixteen 64-bit words whose
bit `o` stands for the number `o` below the highest one seen.

`checkAndUpdate` is the code's test and update in one. The mask is kept in words
and shifted as the code shifts it. The state carries the fact that nothing is
marked before the first number arrives; a number is a 64-bit value, and no
operation of the code on it can wrap.

## Main definitions

* `ICrypto`: The authenticated encryption the channel calls.
* `SecureChannel`: One endpoint's keys, counter and window.
* `SecureChannel.sealDatagram`, `SecureChannel.openDatagram`: Sending and receiving.
* `SecureChannel.afterAll`, `SecureChannel.results`: Receiving a list.
* `Bits.testBit`, `Bits.setBit`, `Bits.slideForward`: The mask operations.
* `ReplayWindow.checkAndUpdate`: Test a number and record it.
* `ReplayWindow.fresh`: Whether a number would be accepted.
* `ReplayWindow.accepted`: The numbers of a sequence that are accepted.
-/

namespace EarthRise

namespace Net

/-- How many numbers the mask covers. -/
def windowBits : Nat := 1024

/-- The mask: offset `o` is bit `o % 64` of word `o / 64`. -/
abbrev Bits := Vector (BitVec 64) 16

namespace Bits

def zero : Bits := Vector.replicate 16 0

def testBit (b : Bits) (offset : Fin 1024) : Bool :=
  b[(⟨offset.val / 64, by omega⟩ : Fin 16)].getLsbD (offset.val % 64)

def setBit (b : Bits) (offset : Fin 1024) : Bits :=
  b.set (offset.val / 64)
    (b[(⟨offset.val / 64, by omega⟩ : Fin 16)] ||| (1#64 <<< (offset.val % 64))) (by omega)

/-- Word `i` of the mask, and zero off its lower end. -/
def wordAt (b : Bits) (i : Int) : BitVec 64 :=
  if h : 0 ≤ i ∧ i < 16 then b[(⟨i.toNat, by omega⟩ : Fin 16)] else 0

/-- Move the mask toward older offsets. The code's loop runs from the oldest word
    down, so each word is read before it is overwritten. -/
def slideForward (b : Bits) (shift : Nat) : Bits :=
  if windowBits ≤ shift then zero
  else
    let wordShift : Int := (shift / 64 : Nat)
    let bitShift := shift % 64
    if bitShift = 0 then Vector.ofFn fun i => b.wordAt (i.val - wordShift)
    else Vector.ofFn fun i =>
      (b.wordAt (i.val - wordShift) <<< bitShift) |||
        (b.wordAt (i.val - wordShift - 1) >>> (64 - bitShift))

end Bits

structure ReplayWindow where
  bits : Bits
  highest : Nat
  seenAny : Bool
  clean : seenAny = false → bits = Bits.zero

namespace ReplayWindow

def reset : ReplayWindow :=
  { bits := Bits.zero, highest := 0, seenAny := false, clean := fun _ => rfl }

/-- Accept a fresh number and record it; refuse a replay or a number that is too
    old. -/
def checkAndUpdate (w : ReplayWindow) (packetNumber : Nat) : Bool × ReplayWindow :=
  if w.seenAny = false then
    (true, ⟨w.bits.setBit 0, packetNumber, true, fun h => absurd h (by decide)⟩)
  else if w.highest < packetNumber then
    let slid := w.bits.slideForward (packetNumber - w.highest)
    (true, ⟨slid.setBit 0, packetNumber, true, fun h => absurd h (by decide)⟩)
  else
    let offset := w.highest - packetNumber
    if h : offset < 1024 then
      if w.bits.testBit ⟨offset, h⟩ then (false, w)
      else (true, ⟨w.bits.setBit ⟨offset, h⟩, w.highest, true, fun h => absurd h (by decide)⟩)
    else (false, w)

/-- Whether the window would accept a number. -/
def fresh (w : ReplayWindow) (n : Nat) : Bool :=
  if w.seenAny = false then true
  else if w.highest < n then true
  else if h : w.highest - n < 1024 then !w.bits.testBit ⟨w.highest - n, h⟩
  else false

/-- Offer the numbers of a sequence one after another. -/
def offerAll (w : ReplayWindow) (ns : List Nat) : ReplayWindow :=
  ns.foldl (fun w n => (w.checkAndUpdate n).2) w

/-- The numbers of a sequence that are accepted. -/
def accepted : ReplayWindow → List Nat → List Nat
  | _, [] => []
  | w, n :: ns =>
      let r := w.checkAndUpdate n
      if r.1 then n :: accepted r.2 ns else accepted r.2 ns

end ReplayWindow

inductive Direction
  | clientToServer
  | serverToClient
  deriving DecidableEq, Repr

abbrev Bytes := List UInt8

instance Bytes.decidableMem (b : Bytes) (l : List Bytes) : Decidable (b ∈ l) :=
  inferInstance

/-- Authenticated encryption under a key, a direction and a packet number, with
    the clear header as associated data. -/
structure ICrypto (Key : Type) where
  encrypt : Key → Direction → UInt64 → Bytes → Bytes → Option Bytes
  decrypt : Key → Direction → UInt64 → Bytes → Bytes → Option Bytes

/-- What was encrypted decrypts, under the same key, direction, number and
    associated data. -/
def ICrypto.Correct {Key : Type} (C : ICrypto Key) : Prop :=
  ∀ k d n aad plain cipher, C.encrypt k d n aad plain = some cipher →
    C.decrypt k d n aad cipher = some plain

structure SecureChannel (Key : Type) where
  sendDir : Direction
  recvDir : Direction
  token : UInt64
  sendKey : Key
  recvKey : Key
  hasKeys : Bool
  sendCounter : UInt64
  replay : ReplayWindow

inductive OpenResult
  | ok
  | badHeader
  | wrongToken
  | replay
  | authFailure
  | noKeys
  deriving DecidableEq, Repr

namespace SecureChannel

variable {Key : Type} (C : ICrypto Key)

/-- Encrypt a payload into a datagram, or `none` without keys or when encryption
    fails. -/
def sealDatagram (ch : SecureChannel Key) (payload : Bytes) : Option (Bytes × SecureChannel Key) :=
  if ch.hasKeys = false then none
  else
    let aad := writePacketHeader ⟨protocolId, ch.token, ch.sendCounter⟩
    match C.encrypt ch.sendKey ch.sendDir ch.sendCounter aad payload with
    | none => none
    | some ct => some (aad ++ ct, { ch with sendCounter := ch.sendCounter + 1 })

/-- Verify and decrypt a received datagram. There is a payload only on `ok`. -/
def openDatagram (ch : SecureChannel Key) (datagram : Bytes) :
    (OpenResult × Option Bytes) × SecureChannel Key :=
  if ch.hasKeys = false then ((.noKeys, none), ch)
  else
    match readPacketHeader datagram with
    | none => ((.badHeader, none), ch)
    | some hdr =>
        if hdr.connectionToken ≠ ch.token then ((.wrongToken, none), ch)
        else
          let r := ch.replay.checkAndUpdate hdr.packetNumber.toNat
          let ch' := { ch with replay := r.2 }
          if r.1 = false then ((.replay, none), ch')
          else
            match C.decrypt ch.recvKey ch.recvDir hdr.packetNumber
                (datagram.take wireSize) (datagram.drop wireSize) with
            | none => ((.authFailure, none), ch')
            | some payload => ((.ok, some payload), ch')

/-- The datagrams a sender puts on the wire for a list of payloads. -/
def sealAll : SecureChannel Key → List Bytes → List Bytes
  | _, [] => []
  | ch, p :: ps =>
      match ch.sealDatagram C p with
      | none => sealAll ch ps
      | some (d, ch') => d :: sealAll ch' ps

/-- The channel after receiving a list of datagrams. -/
def afterAll (ch : SecureChannel Key) (ds : List Bytes) : SecureChannel Key :=
  ds.foldl (fun ch d => (ch.openDatagram C d).2) ch

/-- What `openDatagram` answers to each of a list of datagrams. -/
def results : SecureChannel Key → List Bytes → List (OpenResult × Option Bytes)
  | _, [] => []
  | ch, d :: ds => (ch.openDatagram C d).1 :: results (ch.openDatagram C d).2 ds

end SecureChannel

end Net

end EarthRise
