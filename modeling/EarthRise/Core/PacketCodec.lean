import Mathlib.Data.UInt
import Mathlib.Tactic.NormNum

/-!
# The Clear Packet Header

Little-endian fields over byte lists, and the header that stands in clear in
front of every datagram.

The writers append `k` bytes, lowest first; a reader takes them back. A reader
is only called on a buffer that is long enough, which `readPacketHeader` checks
once for the whole header.

## Main definitions

* `putLE`, `getLE`: Writing and reading a little-endian field.
* `writePacketHeader`, `readPacketHeader`: The header on the wire.

## Theorems

* `getLE_putLE`: A field that fits is read back.
* `readPacketHeader_write`: A written header is read back.
-/

namespace EarthRise

namespace Net

/-- The `k` low bytes of a value, lowest first. -/
def putLE : Nat → Nat → List UInt8
  | 0, _ => []
  | k + 1, v => UInt8.ofNat v :: putLE k (v / 256)

/-- A value from the first `k` bytes. -/
def getLE : Nat → List UInt8 → Nat
  | 0, _ => 0
  | _ + 1, [] => 0
  | k + 1, b :: bs => b.toNat + 256 * getLE k bs

def putU32 (v : UInt32) : List UInt8 := putLE 4 v.toNat

def putU64 (v : UInt64) : List UInt8 := putLE 8 v.toNat

def getU32 (b : List UInt8) (off : Nat) : UInt32 := UInt32.ofNat (getLE 4 (b.drop off))

def getU64 (b : List UInt8) (off : Nat) : UInt64 := UInt64.ofNat (getLE 8 (b.drop off))

/-- The magic in the high half, the protocol version in the low half. -/
def protocolId : UInt32 := 0x45520001

structure PacketHeader where
  protocolId : UInt32
  connectionToken : UInt64
  packetNumber : UInt64
  deriving DecidableEq, Repr

/-- How many bytes the header takes. -/
def wireSize : Nat := 4 + 8 + 8

def writePacketHeader (h : PacketHeader) : List UInt8 :=
  putU32 h.protocolId ++ putU64 h.connectionToken ++ putU64 h.packetNumber

/-- Read a header, or `none` if there are not enough bytes for a full one. -/
def readPacketHeader (b : List UInt8) : Option PacketHeader :=
  if b.length < wireSize then none
  else some ⟨getU32 b 0, getU64 b 4, getU64 b 12⟩

theorem length_putLE (k v : Nat) : (putLE k v).length = k := by
  induction k generalizing v with
  | zero => rfl
  | succ k ih => rw [putLE, List.length_cons, ih]

theorem getLE_putLE (k v : Nat) (rest : List UInt8) :
    getLE k (putLE k v ++ rest) = v % 256 ^ k := by
  induction k generalizing v with
  | zero => rw [getLE, pow_zero, Nat.mod_one]
  | succ k ih =>
      have hbyte : (UInt8.ofNat v).toNat = v % 256 := UInt8.toNat_ofNat'
      rw [putLE, List.cons_append, getLE, ih, hbyte, pow_succ', Nat.mod_mul]

theorem getU32_put (pre rest : List UInt8) (v : UInt32) (off : Nat) (hoff : pre.length = off) :
    getU32 (pre ++ (putU32 v ++ rest)) off = v := by
  have hlt : v.toNat < 256 ^ 4 := lt_of_lt_of_eq (UInt32.toNat_lt v) (by norm_num)
  unfold getU32 putU32
  rw [← hoff, List.drop_left, getLE_putLE, Nat.mod_eq_of_lt hlt]
  exact UInt32.ofNat_toNat

theorem getU64_put (pre rest : List UInt8) (v : UInt64) (off : Nat) (hoff : pre.length = off) :
    getU64 (pre ++ (putU64 v ++ rest)) off = v := by
  have hlt : v.toNat < 256 ^ 8 := lt_of_lt_of_eq (UInt64.toNat_lt v) (by norm_num)
  unfold getU64 putU64
  rw [← hoff, List.drop_left, getLE_putLE, Nat.mod_eq_of_lt hlt]
  exact UInt64.ofNat_toNat

theorem length_writePacketHeader (h : PacketHeader) :
    (writePacketHeader h).length = wireSize := by
  simp only [writePacketHeader, putU32, putU64, List.length_append, length_putLE, wireSize]

/-- A written header is read back, whatever follows it. -/
theorem readPacketHeader_write (h : PacketHeader) (rest : List UInt8) :
    readPacketHeader (writePacketHeader h ++ rest) = some h := by
  have hlen : ¬ (writePacketHeader h ++ rest).length < wireSize := by
    rw [List.length_append, length_writePacketHeader]
    omega
  have h4 : (putU32 h.protocolId).length = 4 := length_putLE 4 _
  have h12 : (putU32 h.protocolId ++ putU64 h.connectionToken).length = 12 := by
    rw [List.length_append, h4]
    exact congrArg (4 + ·) (length_putLE 8 _)
  have hpid := getU32_put [] (putU64 h.connectionToken ++ (putU64 h.packetNumber ++ rest))
    h.protocolId 0 rfl
  have htok := getU64_put (putU32 h.protocolId) (putU64 h.packetNumber ++ rest)
    h.connectionToken 4 h4
  have hnum := getU64_put (putU32 h.protocolId ++ putU64 h.connectionToken) rest
    h.packetNumber 12 h12
  -- The three fields lie one after the other in the written bytes.
  simp only [List.nil_append, List.append_assoc] at hpid htok hnum
  unfold readPacketHeader
  rw [if_neg hlen]
  simp only [writePacketHeader, List.append_assoc, hpid, htok, hnum]

end Net

end EarthRise
