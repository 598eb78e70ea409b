import EarthRise.Core.WarmBlob
import EarthRise.Theory.Serde

/-!
# The Blob of a Warm Restart Is Faithful

A snapshot is read back from its bytes as it was, and no shorter piece of them is taken for
a snapshot, wherever it ends.

Nothing is asked of a snapshot but that its lists have counts of 32 bits. The hash of what is
read back is then the hash of what was written.

## Theorems

* `Blob.codes_writeState`, `Blob.local_readState`: The format.
* `Blob.state_read_back`: Both ends together.
-/

namespace EarthRise

namespace Shard

namespace Blob

open Codec Serde
open Universe (Vec3)

section

variable {F : Type} [FloatBits F]

theorem codes_writeAmounts (a : Amounts F) : Codes buffer (writeAmounts a) readAmounts a :=
  (codes_writeFloat a.ore).bind <| (codes_writeFloat a.ice).bind <|
    (codes_writeFloat a.gas).last

theorem codes_writeBase (b : PersistBase F) : Codes buffer (writeBase b) readBase b :=
  (codes_writeUint32 b.netId).bind <| (codes_writeUint64 b.ownerAccount).bind <|
    (codes_writePos b.pos).bind <| (codes_writeInt32 b.shieldHp).bind <|
    (codes_writeInt32 b.armorHp).bind <| (codes_writeInt32 b.hullHp).bind <|
    (codes_writeAmounts b.storage).bind <| (codes_writeFloat b.fuel).bind <|
    (codes_writeUint8 b.navPhase).bind <| (codes_writeUint8 b.baseState).last

theorem codes_writeShip (s : PersistShip F) : Codes buffer (writeShip s) readShip s :=
  (codes_writeUint32 s.netId).bind <| (codes_writeUint64 s.ownerAccount).bind <|
    (codes_writePos s.pos).bind <| (codes_writeInt32 s.hp).bind <|
    (codes_writeAmounts s.cargo).bind <| (codes_writeUint8 s.shipType).last

theorem codes_writeBuild (b : PersistBuild F) : Codes buffer (writeBuild b) readBuild b :=
  (codes_writeUint64 b.ownerAccount).bind <| (codes_writeUint32 b.itemDefId).bind <|
    (codes_writeFloat b.progress).last

theorem codes_writeNpc (n : PersistNpc) : Codes buffer (writeNpc n) readNpc n :=
  (codes_writeUint32 n.netId).bind <| (codes_writePos n.pos).bind <|
    (codes_writeInt32 n.hp).bind <| (codes_writeUint16 n.siteId).bind <|
    (codes_writeUint8 n.aiState).last

/-- The counts of a snapshot have 32 bits. -/
structure Counted (s : PersistState F) : Prop where
  bases : s.bases.length < 2 ^ 32
  ships : s.ships.length < 2 ^ 32
  builds : s.builds.length < 2 ^ 32
  npcs : s.npcs.length < 2 ^ 32

theorem codes_writeState (s : PersistState F) (h : Counted s) :
    Codes buffer (writeState s) readState s :=
  (codes_writeUint64 s.tick).bind <| (codes_writeUint64 s.outboxSeq).bind <|
    (codes_writeList32 s.bases h.bases fun b _ => codes_writeBase b).bind <|
    (codes_writeList32 s.ships h.ships fun sh _ => codes_writeShip sh).bind <|
    (codes_writeList32 s.builds h.builds fun bd _ => codes_writeBuild bd).bind <|
    (codes_writeList32 s.npcs h.npcs fun n _ => codes_writeNpc n).last

theorem local_readAmounts : Local buffer (readAmounts : ReadM (Amounts F)) :=
  local_readFloat.bind fun _ => local_readFloat.bind fun _ => local_readFloat.bind fun _ =>
    local_pure _

theorem local_readBase : Local buffer (readBase : ReadM (PersistBase F)) :=
  local_readUint32.bind fun _ => local_readUint64.bind fun _ => local_readPos.bind fun _ =>
    local_readInt32.bind fun _ => local_readInt32.bind fun _ => local_readInt32.bind fun _ =>
    local_readAmounts.bind fun _ => local_readFloat.bind fun _ => local_readUint8.bind fun _ =>
    local_readUint8.bind fun _ => local_pure _

theorem local_readShip : Local buffer (readShip : ReadM (PersistShip F)) :=
  local_readUint32.bind fun _ => local_readUint64.bind fun _ => local_readPos.bind fun _ =>
    local_readInt32.bind fun _ => local_readAmounts.bind fun _ => local_readUint8.bind fun _ =>
    local_pure _

theorem local_readBuild : Local buffer (readBuild : ReadM (PersistBuild F)) :=
  local_readUint64.bind fun _ => local_readUint32.bind fun _ => local_readFloat.bind fun _ =>
    local_pure _

theorem local_readNpc : Local buffer readNpc :=
  local_readUint32.bind fun _ => local_readPos.bind fun _ => local_readInt32.bind fun _ =>
    local_readUint16.bind fun _ => local_readUint8.bind fun _ => local_pure _

theorem local_readState : Local buffer (readState : ReadM (PersistState F)) :=
  local_readUint64.bind fun _ => local_readUint64.bind fun _ =>
    (local_readList32 local_readBase).bind fun _ =>
    (local_readList32 local_readShip).bind fun _ =>
    (local_readList32 local_readBuild).bind fun _ =>
    (local_readList32 local_readNpc).bind fun _ => local_pure _

/-- A snapshot is read back as it was, with its hash, and every shorter piece of its bytes
    is turned down. -/
theorem state_read_back (s : PersistState F) (h : Counted s) :
    decodeState (encodeState s) = some s ∧
      (decodeState (encodeState s)).map (stateHash (F := F)) = some (stateHash s) ∧
      ∀ part, part <+: encodeState s → part ≠ encodeState s →
        decodeState (F := F) part = none := by
  have hcodes := codes_writeState s h
  have hback : decodeState (encodeState s) = some s := decode_encode hcodes
  exact ⟨hback, by rw [hback]; rfl,
    fun part hpart hne => decode_cut hcodes local_readState part hpart hne⟩

/-- A snapshot with one ship. -/
theorem state_read_back_ship :
    let s : PersistState Binary32 :=
      ⟨9, 4, [], [⟨5, 6, ⟨-1, 2, 3⟩, -7, ⟨⟨1⟩, ⟨2⟩, ⟨0x7FC00001⟩⟩, 200⟩], [], []⟩
    decodeState (encodeState s) = some s :=
  (state_read_back _ ⟨by decide, by decide, by decide, by decide⟩).1

end

end Blob

end Shard

end EarthRise
