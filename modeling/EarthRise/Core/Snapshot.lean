import EarthRise.Core.BitStream
import EarthRise.Core.UniversePos
import EarthRise.Lib.OrdMap

/-!
# Delta Snapshots

The quantized delta record, its wire format, the byte budget, and the client's
decoder.

A record carries an entity's net id, a mask, and the fields the mask names. The
record in memory always has the entity's current fields; the mask decides which
of them are written. `makeDeltaRecord` sets the mask from a comparison with the
state the client is known to hold, and the position is compared as it would be
written, in steps of the quantization.

The decoder keeps an entity's last state and overwrites the fields that a record
names, one record per entity and tick, newer ticks over older ones.

## Main definitions

* `SnapshotEntity`, `Fields`: An entity, and what of it can be transmitted.
* `DeltaMask`, `DeltaRecord`, `DeltaSnapshot`: What travels.
* `makeDeltaRecord`: The record of an entity against a base.
* `encodeDeltaSnapshot`, `decodeDeltaSnapshot`: The wire format.
* `buildBudgetedSnapshot`: The records that fit.
* `DeltaDecodeState.apply`: The client's decoder.
-/

namespace EarthRise

namespace Sim

open Universe Serde

/-- A 32-bit network id. -/
abbrev NetId := Fin 4294967296

instance netIdNeZero : NeZero 4294967296 := ⟨by decide⟩

instance netIdLawfulBEq : LawfulBEq NetId := inferInstance

/-- A kind is any byte; the named ones are those the code uses. -/
structure EntityKind where
  code : UInt8
  deriving DecidableEq, Repr

namespace EntityKind

def unknown : EntityKind := ⟨0⟩

def base : EntityKind := ⟨1⟩

def ship : EntityKind := ⟨2⟩

def npcUnit : EntityKind := ⟨3⟩

def structure' : EntityKind := ⟨11⟩

end EntityKind

structure SnapshotEntity where
  netId : NetId
  kind : EntityKind
  pos : UniversePos
  localOffset : Vec3 ℚ
  hp : Int32
  shapeId : UInt16
  ownerPlayer : NetId
  deriving DecidableEq

/-- An entity as it is before any field of it is known. -/
def SnapshotEntity.initial : SnapshotEntity :=
  { netId := 0, kind := EntityKind.unknown, pos := ⟨0, 0, 0⟩, localOffset := ⟨0, 0, 0⟩
    hp := 0, shapeId := 0xFFFF, ownerPlayer := 0 }

/-! ## Quantization -/

/-- Steps of the quantization over the side of a sector. -/
def quantSteps : Nat := 1048576

/-- Rounding to the nearest integer, halves away from zero. -/
def roundAway (x : ℚ) : Int := if 0 ≤ x then ⌊x + 1 / 2⌋ else -⌊-x + 1 / 2⌋

/-- The step nearest to a sector-local offset in metres. -/
def quantizeSectorLocal (localMetres : ℚ) : Nat :=
  let span : ℚ := sectorSize
  let clamped := if localMetres < 0 then 0 else if span ≤ localMetres then span else localMetres
  let q := roundAway (clamped / span * quantSteps)
  min (max q 0).toNat (quantSteps - 1)

def dequantizeSectorLocal (q : Nat) : ℚ := q / quantSteps * sectorSize

/-- The offset from the sector's corner, in metres with their fraction. -/
def sectorLocalMetres (pos : UniversePos) (localOffset : Vec3 ℚ) : Vec3 ℚ :=
  let origin := sectorToOrigin (universeToSector pos)
  ⟨(pos.x - origin.x : Int) + localOffset.x, (pos.y - origin.y : Int) + localOffset.y,
    (pos.z - origin.z : Int) + localOffset.z⟩

/-! ## Records -/

/-- What of an entity is transmitted. -/
structure Fields where
  sector : SectorId
  qpos : Vec3 Nat
  hp : Int32
  shapeId : UInt16
  ownerPlayer : NetId
  kind : EntityKind
  deriving DecidableEq

def SnapshotEntity.fields (e : SnapshotEntity) : Fields :=
  { sector := universeToSector e.pos
    qpos := (sectorLocalMetres e.pos e.localOffset).map quantizeSectorLocal
    hp := e.hp, shapeId := e.shapeId, ownerPlayer := e.ownerPlayer, kind := e.kind }

/-- The flags byte: which fields are present. Bit 6 stands for nothing, but it
    travels with the others. -/
structure DeltaMask where
  pos : Bool
  sector : Bool
  hp : Bool
  shape : Bool
  owner : Bool
  kind : Bool
  bit6 : Bool
  tomb : Bool
  deriving DecidableEq, Repr

namespace DeltaMask

/-- Nothing has changed. -/
def none : DeltaMask := ⟨false, false, false, false, false, false, false, false⟩

/-- First sight: every field. -/
def full : DeltaMask := ⟨true, true, true, true, true, true, false, false⟩

/-- The entity is gone. -/
def tombstone : DeltaMask := { none with tomb := true }

def byte (m : DeltaMask) : Nat :=
  m.pos.toNat + 2 * m.sector.toNat + 4 * m.hp.toNat + 8 * m.shape.toNat + 16 * m.owner.toNat +
    32 * m.kind.toNat + 64 * m.bit6.toNat + 128 * m.tomb.toNat

def ofByte (b : Nat) : DeltaMask :=
  ⟨b.testBit 0, b.testBit 1, b.testBit 2, b.testBit 3, b.testBit 4, b.testBit 5, b.testBit 6,
    b.testBit 7⟩

end DeltaMask

structure DeltaRecord extends Fields where
  netId : NetId
  mask : DeltaMask
  deriving DecidableEq

/-- A record before anything is put in it. -/
def DeltaRecord.initial : DeltaRecord :=
  { netId := 0, mask := DeltaMask.none, sector := ⟨0, 0, 0⟩, qpos := ⟨0, 0, 0⟩, hp := 0
    shapeId := 0xFFFF, ownerPlayer := 0, kind := ⟨0⟩ }

structure DeltaSnapshot where
  tick : Nat
  records : List DeltaRecord
  deriving DecidableEq

/-- The smallest record that takes a client from `base` to `cur`; without a base,
    the whole entity. A sector crossing sends the position again. -/
def makeDeltaRecord (cur : SnapshotEntity) (base : Option SnapshotEntity) : DeltaRecord :=
  let f := cur.fields
  let mask : DeltaMask :=
    match base with
    | none => DeltaMask.full
    | some base =>
        let b := base.fields
        let crossed : Bool := f.sector ≠ b.sector
        { sector := crossed, pos := decide (f.qpos ≠ b.qpos) || crossed
          hp := f.hp ≠ b.hp, shape := f.shapeId ≠ b.shapeId
          owner := f.ownerPlayer ≠ b.ownerPlayer, kind := f.kind ≠ b.kind, bit6 := false
          tomb := false }
  { f with netId := cur.netId, mask := mask }

/-- The record that evicts an entity. -/
def tombstoneRecord (netId : NetId) : DeltaRecord :=
  { DeltaRecord.initial with netId := netId, mask := DeltaMask.tombstone }

/-! ## The wire format -/

def zigZag32 (v : BitVec 32) : BitVec 32 := (v <<< 1) ^^^ v.sshiftRight 31

def unZigZag32 (v : BitVec 32) : BitVec 32 := (v >>> 1) ^^^ (~~~(v &&& 1) + 1)

def writeIf (c : Bool) (f : BitWriter → BitWriter) (w : BitWriter) : BitWriter :=
  if c then f w else w

/-- Read a field if it is present; otherwise it has its default. -/
def readIf {α : Type} (c : Bool) (dflt : α) (f : ReadBuffer → α × ReadBuffer)
    (rb : ReadBuffer) : α × ReadBuffer := if c then f rb else (dflt, rb)

/-- A sector coordinate, cut to 32 bits. -/
def writeSectorCoord (c : Int) (w : BitWriter) : BitWriter :=
  w.write (zigZag32 (BitVec.ofInt 32 c)).toNat 32

def readSectorCoord (rb : ReadBuffer) : Int × ReadBuffer :=
  let r := rb.readBits 32
  ((unZigZag32 (BitVec.ofNat 32 r.1)).toInt, r.2)

def writeVec {α : Type} (f : α → BitWriter → BitWriter) (v : Vec3 α) (w : BitWriter) :
    BitWriter := f v.z (f v.y (f v.x w))

def readVec {α : Type} (f : ReadBuffer → α × ReadBuffer) (rb : ReadBuffer) :
    Vec3 α × ReadBuffer :=
  let x := f rb
  let y := f x.2
  let z := f y.2
  (⟨x.1, y.1, z.1⟩, z.2)

def posQuantBitsPerAxis : Nat := 20

def writeDeltaRecord (w : BitWriter) (r : DeltaRecord) : BitWriter :=
  let w := w.write r.netId.val 32
  let w := w.write r.mask.byte 8
  if r.mask.tomb then w
  else
    let w := writeIf r.mask.sector (writeVec writeSectorCoord r.sector) w
    let w := writeIf r.mask.pos
      (writeVec (fun q w => w.write q posQuantBitsPerAxis) r.qpos) w
    let w := writeIf r.mask.hp (fun w => w.write r.hp.toUInt32.toNat 32) w
    let w := writeIf r.mask.shape (fun w => w.write r.shapeId.toNat 16) w
    let w := writeIf r.mask.owner (fun w => w.write r.ownerPlayer.val 32) w
    writeIf r.mask.kind (fun w => w.write r.kind.code.toNat 8) w

def readDeltaRecord (rb : ReadBuffer) : Option (DeltaRecord × ReadBuffer) :=
  let netId := rb.readBits 32
  let flags := netId.2.readBits 8
  let mask := DeltaMask.ofByte flags.1
  let r := { DeltaRecord.initial with netId := Fin.ofNat 4294967296 netId.1, mask := mask }
  if !flags.2.isGood then none
  else if mask.tomb then some (r, flags.2)
  else
    let sector := readIf mask.sector r.sector (readVec readSectorCoord) flags.2
    let qpos := readIf mask.pos r.qpos
      (readVec fun rb => rb.readBits posQuantBitsPerAxis) sector.2
    let hp := readIf mask.hp r.hp
      (fun rb => let x := rb.readBits 32; ((UInt32.ofNat x.1).toInt32, x.2)) qpos.2
    let shapeId := readIf mask.shape r.shapeId
      (fun rb => let x := rb.readBits 16; (UInt16.ofNat x.1, x.2)) hp.2
    let owner := readIf mask.owner r.ownerPlayer
      (fun rb => let x := rb.readBits 32; (Fin.ofNat 4294967296 x.1, x.2)) shapeId.2
    let kind := readIf mask.kind r.kind
      (fun rb => let x := rb.readBits 8; (⟨UInt8.ofNat x.1⟩, x.2)) owner.2
    if kind.2.isGood then
      some ({ netId := r.netId, mask := mask, sector := sector.1, qpos := qpos.1, hp := hp.1
              shapeId := shapeId.1, ownerPlayer := owner.1, kind := kind.1 }, kind.2)
    else none

def encodeDeltaSnapshot (snap : DeltaSnapshot) : List UInt8 :=
  let w := WriteBuffer.fresh.write snap.tick 32
  let w := w.write snap.records.length 16
  (snap.records.foldl writeDeltaRecord w).flush.buf

def readRecords : Nat → ReadBuffer → Option (List DeltaRecord × ReadBuffer)
  | 0, rb => some ([], rb)
  | n + 1, rb =>
      match readDeltaRecord rb with
      | none => none
      | some (r, rb) =>
          match readRecords n rb with
          | none => none
          | some (rs, rb) => some (r :: rs, rb)

def decodeDeltaSnapshot (body : List UInt8) : Option DeltaSnapshot :=
  let rb := ReadBuffer.ofBytes body
  if !rb.isGood then none
  else
    let tick := rb.readBits 32
    let count := tick.2.readBits 16
    match readRecords count.1 count.2 with
    | none => none
    | some (rs, rb) => if rb.isGood then some { tick := tick.1, records := rs } else none

/-! ## The byte budget -/

def deltaHeaderBits : Nat := 32 + 32 + 16

def deltaRecordBits (r : DeltaRecord) : Nat :=
  if r.mask.tomb then 32 + 8
  else
    32 + 8 + (if r.mask.sector then 3 * 32 else 0) +
      (if r.mask.pos then 3 * posQuantBitsPerAxis else 0) + (if r.mask.hp then 32 else 0) +
      (if r.mask.shape then 16 else 0) + (if r.mask.owner then 32 else 0) +
      (if r.mask.kind then 8 else 0)

/-- The prefix of the records that fits behind `bits`, and the net ids of the
    rest. Records with nothing in them are passed over. -/
def takeWhileFits (byteBudget : Nat) : Nat → List DeltaRecord → List DeltaRecord × List NetId
  | _, [] => ([], [])
  | bits, r :: rs =>
      if r.mask = DeltaMask.none then takeWhileFits byteBudget bits rs
      else
        let withRecord := bits + deltaRecordBits r
        if byteBudget < (withRecord + 7) / 8 then
          ([], ((r :: rs).filter fun r => r.mask ≠ DeltaMask.none).map DeltaRecord.netId)
        else
          let rest := takeWhileFits byteBudget withRecord rs
          (r :: rest.1, rest.2)

/-- The snapshot of the records that fit a budget, and what spills over. -/
def buildBudgetedSnapshot (tick : Nat) (ordered : List DeltaRecord) (byteBudget : Nat) :
    DeltaSnapshot × List NetId :=
  let r := takeWhileFits byteBudget deltaHeaderBits ordered
  ({ tick := tick, records := r.1 }, r.2)

/-! ## The client's decoder -/

structure DeltaDecodeState where
  entities : OrdMap NetId SnapshotEntity
  lastTick : OrdMap NetId Nat
  latestTick : Nat

namespace DeltaDecodeState

def fresh : DeltaDecodeState :=
  { entities := OrdMap.empty, lastTick := OrdMap.empty, latestTick := 0 }

/-- Overwrite the fields that a record names. -/
def overwrite (e : SnapshotEntity) (r : DeltaRecord) : SnapshotEntity :=
  let sec := if r.mask.sector then r.sector else universeToSector e.pos
  let origin := sectorToOrigin sec
  let metres := r.qpos.map dequantizeSectorLocal
  { netId := r.netId
    pos := if r.mask.pos then
        ⟨origin.x + ⌊metres.x⌋, origin.y + ⌊metres.y⌋, origin.z + ⌊metres.z⌋⟩ else e.pos
    localOffset := if r.mask.pos then metres.map Int.fract else e.localOffset
    hp := if r.mask.hp then r.hp else e.hp
    shapeId := if r.mask.shape then r.shapeId else e.shapeId
    ownerPlayer := if r.mask.owner then r.ownerPlayer else e.ownerPlayer
    kind := if r.mask.kind then r.kind else e.kind }

/-- A record is stale when its entity has had one of the same tick or a later one. -/
def stale (st : DeltaDecodeState) (tick : Nat) (netId : NetId) : Bool :=
  match st.lastTick.find? netId with
  | none => false
  | some last => tick ≤ last

def applyRecord (tick : Nat) (st : DeltaDecodeState) (r : DeltaRecord) : DeltaDecodeState :=
  if st.stale tick r.netId then st
  else
    { st with
      lastTick := st.lastTick.insert r.netId tick
      entities :=
        if r.mask.tomb then st.entities.erase r.netId
        else st.entities.insert r.netId
          (overwrite ((st.entities.find? r.netId).getD SnapshotEntity.initial) r) }

/-- Apply a decoded snapshot. -/
def applySnapshot (st : DeltaDecodeState) (snap : DeltaSnapshot) : DeltaDecodeState :=
  snap.records.foldl (applyRecord snap.tick)
    { st with latestTick := max st.latestTick snap.tick }

/-- Apply a snapshot body; `none` on malformed data. -/
def apply (st : DeltaDecodeState) (body : List UInt8) : Option DeltaDecodeState :=
  (decodeDeltaSnapshot body).map st.applySnapshot

end DeltaDecodeState

end Sim

end EarthRise
