import Mathlib.Data.UInt

/-!
# The Bit Stream and the Versioned Buffer

The bit-packing writer and reader that every wire format is built on, and the
versioned buffer around them.

The writer keeps whole bytes and the number of bits still free in the last one.
A field is written from its top bit down, in chunks that end at a byte border;
the reader takes it back in the same chunks. The loops are bounded by the number
of bits, since each chunk takes at least one.

## Main definitions

* `BitWriter.write`, `BitWriter.flush`: Appending a field, ending a byte.
* `BitReader.read`: Taking a field off the front.
* `WriteBuffer.fresh`, `ReadBuffer.ofBytes`: The version header.
-/

namespace EarthRise

namespace Serde

structure BitWriter where
  buf : List UInt8
  bitsFree : Nat
  deriving DecidableEq, Repr

namespace BitWriter

def fresh : BitWriter := { buf := [], bitsFree := 0 }

/-- One chunk: into a new byte if the last one is full, from its top free bit. -/
def writeChunk (w : BitWriter) (value bitsLeft : Nat) : BitWriter × Nat :=
  let w := if w.bitsFree = 0 then { buf := w.buf ++ [0], bitsFree := 8 } else w
  let chunk := min bitsLeft w.bitsFree
  let shift := w.bitsFree - chunk
  let bits := UInt8.ofNat ((value >>> (bitsLeft - chunk)) <<< shift)
  ({ buf := w.buf.dropLast ++ [w.buf.getLastD 0 ||| bits], bitsFree := w.bitsFree - chunk },
    bitsLeft - chunk)

def writeLoop : Nat → BitWriter → Nat → Nat → BitWriter
  | 0, w, _, _ => w
  | fuel + 1, w, value, bitsLeft =>
      if bitsLeft = 0 then w
      else
        let r := w.writeChunk value bitsLeft
        writeLoop fuel r.1 value r.2

/-- Append the low `bits` bits of a value. -/
def write (w : BitWriter) (value bits : Nat) : BitWriter :=
  writeLoop bits w (value % 2 ^ bits) bits

/-- End the byte under way; its free bits stay zero. -/
def flush (w : BitWriter) : BitWriter := { w with bitsFree := 0 }

end BitWriter

/-- The unread bytes, the byte under way and how many of its low bits are left. -/
structure BitReader where
  data : List UInt8
  current : UInt8
  bitAvail : Nat
  error : Bool
  deriving DecidableEq, Repr

namespace BitReader

def ofBytes (data : List UInt8) : BitReader :=
  { data := data, current := 0, bitAvail := 0, error := false }

/-- Take up the next byte if the one under way is used up. -/
def refill (r : BitReader) : Option BitReader :=
  if r.bitAvail = 0 then
    match r.data with
    | [] => none
    | b :: data => some { r with data := data, current := b, bitAvail := 8 }
  else some r

def readLoop : Nat → BitReader → Nat → Nat → Nat × BitReader
  | 0, r, result, _ => (result, r)
  | fuel + 1, r, result, bitsLeft =>
      if bitsLeft = 0 then (result, r)
      else
        match r.refill with
        | none => (0, { r with error := true })
        | some r =>
            let chunk := min bitsLeft r.bitAvail
            let shift := r.bitAvail - chunk
            let bits := (r.current.toNat >>> shift) &&& (2 ^ chunk - 1)
            readLoop fuel { r with bitAvail := r.bitAvail - chunk }
              ((result <<< chunk) ||| bits) (bitsLeft - chunk)

/-- Take `bits` bits off the front; zero and the error flag if there are not
    enough left. -/
def read (r : BitReader) (bits : Nat) : Nat × BitReader :=
  if r.error then (0, r) else readLoop bits r 0 bits

end BitReader

def protocolVersion : Nat := 1

/-- A writer with the version header written. -/
def WriteBuffer.fresh : BitWriter := BitWriter.fresh.write protocolVersion 32

/-- A reader and whether its version header was the wrong one. -/
structure ReadBuffer where
  reader : BitReader
  versionMismatch : Bool
  deriving DecidableEq, Repr

namespace ReadBuffer

def ofBytes (data : List UInt8) : ReadBuffer :=
  let r := (BitReader.ofBytes data).read 32
  { reader := r.2, versionMismatch := r.1 ≠ protocolVersion }

def readBits (rb : ReadBuffer) (bits : Nat) : Nat × ReadBuffer :=
  let r := rb.reader.read bits
  (r.1, { rb with reader := r.2 })

def isGood (rb : ReadBuffer) : Bool := !rb.reader.error && !rb.versionMismatch

end ReadBuffer

end Serde

end EarthRise
