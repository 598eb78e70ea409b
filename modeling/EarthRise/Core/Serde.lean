import EarthRise.Core.BitStream
import EarthRise.Core.UniversePos
import EarthRise.Lib.Codec
import Mathlib.Data.UInt

/-!
# The Versioned Buffer, Field by Field

The writers and readers of single fields that the formats of commands, of snapshots of the
whole universe and of cooked data are made of, as steps on the buffer.

An enumeration is its byte on the wire, and a byte of the wire is cast to the enumeration
whatever it is, so the records of these formats keep the byte. A `float` is copied bit for
bit. Text is a list of bytes, and signed numbers are what the bits say in two's complement.

The command of a client for some of its units, as the two ends of a connection write and
read it: a version of its own behind that of the buffer, and two lists behind their
lengths. The lengths have sixteen bits, and the writer puts the low sixteen there.

## Main definitions

* `FloatBits`, `Binary32`: The bits of a floating-point type.
* `WriteM`, `ReadM`: Steps on a writer and on a reader.
* `writeUint8`, `readUint8` and so on: One field.
* `writeBytes`, `readBytes`: Bytes that start at the border of a byte.
* `writeStr`, `writePos`, `writeList16` and so on: Text, positions and lists.
* `encode`, `decode`: A whole buffer.
* `FleetCommand`: A command.
* `encodeFleetCommand`, `decodeFleetCommand`: The format.
-/

namespace EarthRise

/-- The bits of a floating-point type of 32 bits. -/
class FloatBits (F : Type) where
  bits : F → UInt32
  ofBits : UInt32 → F
  ofBits_bits : ∀ f, ofBits (bits f) = f

/-- A number of 32 bits as the machine keeps it, not-a-number in all its patterns. -/
structure Binary32 where
  pattern : UInt32
  deriving DecidableEq, Repr

instance Binary32.floatBits : FloatBits Binary32 where
  bits := Binary32.pattern
  ofBits := Binary32.mk
  ofBits_bits _ := rfl

section

open Float.Model

/-- There is one pattern that is not a number. -/
instance decidableValid (spec : Format) (b : BitVec spec.numBits) : Decidable (spec.Valid b) :=
  decidable_of_iff
    (UnpackedFloat.unpackExponent b = -(BitVec.ofNat spec.exponentBits 1) →
      UnpackedFloat.unpackMantissa b ≠ BitVec.ofNat spec.mantissaBitsWithoutImplicit 0 →
      b = UnpackedFloat.packedNaN spec)
    ⟨fun h => ⟨h⟩, fun h => h.eq_packedNaN⟩

instance float32Bits : FloatBits Float32 where
  bits := Float32.toBits
  ofBits a := if h : Format.binary32.Valid a.toBitVec then ⟨⟨a, h⟩⟩ else Float32.ofBits a
  ofBits_bits f := dif_pos f.toModel.valid

end

namespace Serde

open Universe (Vec3)

abbrev WriteM := StateM BitWriter PUnit

abbrev ReadM (α : Type) := StateM ReadBuffer α

/-! ## Writing -/

def writeBits (v bits : Nat) : WriteM := modify fun w => w.write v bits

def writeUint8 (v : UInt8) : WriteM := writeBits v.toNat 8

def writeUint16 (v : UInt16) : WriteM := writeBits v.toNat 16

def writeUint32 (v : UInt32) : WriteM := writeBits v.toNat 32

def writeUint64 (v : UInt64) : WriteM := writeBits v.toNat 64

def writeInt64 (v : Int64) : WriteM := writeUint64 v.toUInt64

def writeFloat {F : Type} [FloatBits F] (v : F) : WriteM := writeUint32 (FloatBits.bits v)

def flush : WriteM := modify BitWriter.flush

def writeBytes (data : List UInt8) : WriteM := do
  flush
  data.forM writeUint8

/-! ## Reading -/

def readBits (bits : Nat) : ReadM Nat := fun rb => rb.readBits bits

def readUint8 : ReadM UInt8 := do
  let v ← readBits 8
  pure (UInt8.ofNat v)

def readUint16 : ReadM UInt16 := do
  let v ← readBits 16
  pure (UInt16.ofNat v)

def readUint32 : ReadM UInt32 := do
  let v ← readBits 32
  pure (UInt32.ofNat v)

def readUint64 : ReadM UInt64 := do
  let v ← readBits 64
  pure (UInt64.ofNat v)

def readInt64 : ReadM Int64 := do
  let v ← readUint64
  pure v.toInt64

def readFloat {F : Type} [FloatBits F] : ReadM F := do
  let v ← readUint32
  pure (FloatBits.ofBits v)

/-- Give up the bits of the byte under way. -/
def alignToByte : ReadM PUnit :=
  modify fun rb => { rb with reader := { rb.reader with bitAvail := 0 } }

def readBytes (len : Nat) : ReadM (List UInt8) := do
  alignToByte
  Codec.readTimes readUint8 len

/-! ## Fields of several reads -/

/-- The casts that the formats make. -/
def writeInt32 (v : Int32) : WriteM := writeUint32 v.toUInt32

def readInt32 : ReadM Int32 := do
  let v ← readUint32
  pure v.toInt32

/-- Text behind its length. -/
def writeStr (s : List UInt8) : WriteM := do
  writeUint16 (UInt16.ofNat s.length)
  if s ≠ [] then writeBytes s

def readStr : ReadM (List UInt8) := do
  let n ← readUint16
  if n ≠ 0 then readBytes n.toNat else pure []

/-- A position. -/
def writePos (p : Vec3 Int64) : WriteM := do
  writeInt64 p.x
  writeInt64 p.y
  writeInt64 p.z

def readPos : ReadM (Vec3 Int64) := do
  let x ← readInt64
  let y ← readInt64
  let z ← readInt64
  pure ⟨x, y, z⟩

/-- A list behind its count. The count is cast to its width. -/
def writeList8 {α : Type} (f : α → WriteM) (as : List α) : WriteM := do
  writeUint8 (UInt8.ofNat as.length)
  as.forM f

def writeList16 {α : Type} (f : α → WriteM) (as : List α) : WriteM := do
  writeUint16 (UInt16.ofNat as.length)
  as.forM f

def writeList32 {α : Type} (f : α → WriteM) (as : List α) : WriteM := do
  writeUint32 (UInt32.ofNat as.length)
  as.forM f

def readList8 {α : Type} (r : ReadM α) : ReadM (List α) := do
  let n ← readUint8
  Codec.readTimes r n.toNat

def readList16 {α : Type} (r : ReadM α) : ReadM (List α) := do
  let n ← readUint16
  Codec.readTimes r n.toNat

def readList32 {α : Type} (r : ReadM α) : ReadM (List α) := do
  let n ← readUint32
  Codec.readTimes r n.toNat

/-! ## Buffers -/

/-- Write behind the version header and end the last byte. -/
def encode (w : WriteM) : List UInt8 := ((do w; flush : WriteM).run WriteBuffer.fresh).2.buf

/-- Read behind the version header; nothing if the header is another one, or there was too
    little to read. -/
def decode {α : Type} (r : ReadM α) (body : List UInt8) : Option α :=
  let rb := ReadBuffer.ofBytes body
  if rb.isGood then
    let p := r.run rb
    if p.2.isGood then some p.1 else none
  else none

/-- `intent` is the byte of an intent, named or not. -/
structure FleetCommand (F : Type) where
  clientTick : UInt32
  intent : UInt8
  queue : Bool
  units : List UInt32
  targetNetId : UInt32
  targetPoint : Vec3 Int64
  range : F
  beacon : List UInt8
  deriving DecidableEq

def fleetCommandVersion : UInt8 := 1

section

variable {F : Type} [FloatBits F]

def writeFleetCommand (c : FleetCommand F) : WriteM := do
  writeUint8 fleetCommandVersion
  writeUint32 c.clientTick
  writeUint8 c.intent
  writeUint8 (if c.queue then 1 else 0)
  writeList16 writeUint32 c.units
  writeUint32 c.targetNetId
  writePos c.targetPoint
  writeFloat c.range
  writeStr c.beacon

/-- What stands behind the version. -/
def readFleetCommandBody : ReadM (FleetCommand F) := do
  let clientTick ← readUint32
  let intent ← readUint8
  let queue ← readUint8
  let units ← readList16 readUint32
  let targetNetId ← readUint32
  let targetPoint ← readPos
  let range ← readFloat
  let beacon ← readStr
  pure ⟨clientTick, intent, queue ≠ 0, units, targetNetId, targetPoint, range, beacon⟩

/-- Another version is not read any further. -/
def readFleetCommand : ReadM (Option (FleetCommand F)) := do
  let version ← readUint8
  if version ≠ fleetCommandVersion then pure none
  else do
    let c ← readFleetCommandBody
    pure (some c)

def encodeFleetCommand (c : FleetCommand F) : List UInt8 := encode (writeFleetCommand c)

def decodeFleetCommand (body : List UInt8) : Option (FleetCommand F) :=
  (decode readFleetCommand body).join

end

end Serde

end EarthRise
