import EarthRise.Core.Serde
import EarthRise.Core.WarmRestart

/-!
# The Blob of a Warm Restart

The snapshot of a universe as it is stored: records of plain numbers, four lists of them,
the bytes they are written as, and the hash that tells two snapshots apart.

Here the phases and states are bytes, the coordinates and the hit points have their widths,
and nothing says that a byte names a phase.

## Main definitions

* `Blob.PersistState`: A snapshot of plain numbers.
* `Blob.encodeState`, `Blob.decodeState`: Its bytes.
* `Blob.stateHash`: Its hash.
-/

namespace EarthRise

namespace Shard

namespace Blob

open Serde
open Universe (Vec3)

structure PersistBase (F : Type) where
  netId : UInt32
  ownerAccount : UInt64
  pos : Vec3 Int64
  shieldHp : Int32
  armorHp : Int32
  hullHp : Int32
  storage : Amounts F
  fuel : F
  navPhase : UInt8
  baseState : UInt8
  deriving DecidableEq

structure PersistShip (F : Type) where
  netId : UInt32
  ownerAccount : UInt64
  pos : Vec3 Int64
  hp : Int32
  cargo : Amounts F
  shipType : UInt8
  deriving DecidableEq

structure PersistBuild (F : Type) where
  ownerAccount : UInt64
  itemDefId : UInt32
  progress : F
  deriving DecidableEq

structure PersistNpc where
  netId : UInt32
  pos : Vec3 Int64
  hp : Int32
  siteId : UInt16
  aiState : UInt8
  deriving DecidableEq

structure PersistState (F : Type) where
  tick : UInt64
  outboxSeq : UInt64
  bases : List (PersistBase F)
  ships : List (PersistShip F)
  builds : List (PersistBuild F)
  npcs : List PersistNpc
  deriving DecidableEq

section

variable {F : Type} [FloatBits F]

/-! ## Writing -/

def writeAmounts (a : Amounts F) : WriteM := do
  writeFloat a.ore
  writeFloat a.ice
  writeFloat a.gas

def writeBase (b : PersistBase F) : WriteM := do
  writeUint32 b.netId
  writeUint64 b.ownerAccount
  writePos b.pos
  writeInt32 b.shieldHp
  writeInt32 b.armorHp
  writeInt32 b.hullHp
  writeAmounts b.storage
  writeFloat b.fuel
  writeUint8 b.navPhase
  writeUint8 b.baseState

def writeShip (s : PersistShip F) : WriteM := do
  writeUint32 s.netId
  writeUint64 s.ownerAccount
  writePos s.pos
  writeInt32 s.hp
  writeAmounts s.cargo
  writeUint8 s.shipType

def writeBuild (b : PersistBuild F) : WriteM := do
  writeUint64 b.ownerAccount
  writeUint32 b.itemDefId
  writeFloat b.progress

def writeNpc (n : PersistNpc) : WriteM := do
  writeUint32 n.netId
  writePos n.pos
  writeInt32 n.hp
  writeUint16 n.siteId
  writeUint8 n.aiState

def writeState (s : PersistState F) : WriteM := do
  writeUint64 s.tick
  writeUint64 s.outboxSeq
  writeList32 writeBase s.bases
  writeList32 writeShip s.ships
  writeList32 writeBuild s.builds
  writeList32 writeNpc s.npcs

def encodeState (s : PersistState F) : List UInt8 := encode (writeState s)

/-! ## Reading -/

def readAmounts : ReadM (Amounts F) := do
  let ore ← readFloat
  let ice ← readFloat
  let gas ← readFloat
  pure ⟨ore, ice, gas⟩

def readBase : ReadM (PersistBase F) := do
  let netId ← readUint32
  let ownerAccount ← readUint64
  let pos ← readPos
  let shieldHp ← readInt32
  let armorHp ← readInt32
  let hullHp ← readInt32
  let storage ← readAmounts
  let fuel ← readFloat
  let navPhase ← readUint8
  let baseState ← readUint8
  pure ⟨netId, ownerAccount, pos, shieldHp, armorHp, hullHp, storage, fuel, navPhase, baseState⟩

def readShip : ReadM (PersistShip F) := do
  let netId ← readUint32
  let ownerAccount ← readUint64
  let pos ← readPos
  let hp ← readInt32
  let cargo ← readAmounts
  let shipType ← readUint8
  pure ⟨netId, ownerAccount, pos, hp, cargo, shipType⟩

def readBuild : ReadM (PersistBuild F) := do
  let ownerAccount ← readUint64
  let itemDefId ← readUint32
  let progress ← readFloat
  pure ⟨ownerAccount, itemDefId, progress⟩

def readNpc : ReadM PersistNpc := do
  let netId ← readUint32
  let pos ← readPos
  let hp ← readInt32
  let siteId ← readUint16
  let aiState ← readUint8
  pure ⟨netId, pos, hp, siteId, aiState⟩

def readState : ReadM (PersistState F) := do
  let tick ← readUint64
  let outboxSeq ← readUint64
  let bases ← readList32 readBase
  let ships ← readList32 readShip
  let builds ← readList32 readBuild
  let npcs ← readList32 readNpc
  pure ⟨tick, outboxSeq, bases, ships, builds, npcs⟩

def decodeState (blob : List UInt8) : Option (PersistState F) := decode readState blob

/-! ## The hash -/

def floatWord (f : F) : UInt64 := (FloatBits.bits f).toUInt64

def amountsWords (a : Amounts F) : List UInt64 :=
  [floatWord a.ore, floatWord a.ice, floatWord a.gas]

def posWords (pos : Vec3 Int64) : List UInt64 := [pos.x.toUInt64, pos.y.toUInt64, pos.z.toUInt64]

/-- Hit points are hashed as 32 bits. -/
def hpWord (hp : Int32) : UInt64 := hp.toUInt32.toUInt64

def baseWords (b : PersistBase F) : List UInt64 :=
  [b.netId.toUInt64, b.ownerAccount] ++ posWords b.pos ++
  [hpWord b.shieldHp, hpWord b.armorHp, hpWord b.hullHp] ++ amountsWords b.storage ++
  [floatWord b.fuel, b.navPhase.toUInt64, b.baseState.toUInt64]

def shipWords (s : PersistShip F) : List UInt64 :=
  [s.netId.toUInt64, s.ownerAccount] ++ posWords s.pos ++ [hpWord s.hp] ++
  amountsWords s.cargo ++ [s.shipType.toUInt64]

def buildWords (b : PersistBuild F) : List UInt64 :=
  [b.ownerAccount, b.itemDefId.toUInt64, floatWord b.progress]

def npcWords (n : PersistNpc) : List UInt64 :=
  [n.netId.toUInt64] ++ posWords n.pos ++
  [hpWord n.hp, n.siteId.toUInt64, n.aiState.toUInt64]

def stateHash (s : PersistState F) : UInt64 :=
  ([s.tick, s.outboxSeq] ++ listWords baseWords s.bases ++ listWords shipWords s.ships ++
    listWords buildWords s.builds ++ listWords npcWords s.npcs).foldl hashU64
    0xCBF29CE484222325

end

end Blob

end Shard

end EarthRise
