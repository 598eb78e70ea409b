import EarthRise.Core.Snapshot
import EarthRise.Theory.BitStream
import Mathlib.Tactic.FieldSimp

/-!
# Delta Snapshots on the Wire

What a snapshot body decodes to, what a record does to the client's copy, and
what the byte budget keeps.

A record comes out of the codec with the fields its mask names, the sector
coordinates cut to 32 bits, and everything else at its default
(`DeltaRecord.wire`). A position that was reconstructed from its quantization
quantizes to the same steps again, so overwriting an entity with a record is a
merge of the two sets of fields under the record's mask (`fields_overwrite`).

## Main definitions

* `DeltaRecord.wire`: A record as it comes out of the codec.
* `Fields.merge`: Taking the masked fields from one side.

## Theorems

* `decode_encode`: The round trip of a snapshot body.
* `fields_overwrite`: Overwriting is merging.
* `makeDeltaRecord_merge`: A record takes its base to the entity.
-/

namespace EarthRise

namespace Sim

open Universe Serde Bits

/-! ## Sector coordinates -/

/-- The sign of a coordinate is the low bit of its zig-zag code. -/
theorem zigZag32_and_one (v : BitVec 32) : zigZag32 v &&& 1 = if v.msb then 1 else 0 := by
  ext i hi
  rw [BitVec.msb_eq_getLsbD_last]
  by_cases h0 : i = 0
  · subst h0
    cases h : v.getLsbD 31 <;> simp_all [zigZag32, BitVec.getElem_sshiftRight]
  · cases v.getLsbD 31 <;> simp [zigZag32, h0]

theorem unZigZag32_zigZag32 (v : BitVec 32) : unZigZag32 (zigZag32 v) = v := by
  have hneg : ~~~(if v.msb then 1 else 0 : BitVec 32) + 1 =
      if v.msb then BitVec.allOnes 32 else 0 := by
    cases v.msb <;> rfl
  unfold unZigZag32
  rw [zigZag32_and_one, hneg]
  refine BitVec.eq_of_getLsbD_eq fun i hi => ?_
  have hmask : (if v.msb then BitVec.allOnes 32 else 0).getLsbD i = v.msb := by
    cases v.msb with
    | false => exact BitVec.getLsbD_zero
    | true => exact BitVec.getLsbD_allOnes.trans (decide_eq_true hi)
  rw [BitVec.getLsbD_xor, hmask]
  unfold zigZag32
  rw [BitVec.getLsbD_ushiftRight, BitVec.getLsbD_xor, BitVec.getLsbD_shiftLeft,
    BitVec.getLsbD_sshiftRight]
  by_cases hlast : i = 31
  · rw [hlast, BitVec.msb_eq_getLsbD_last]
    simp
  · -- Below the top bit the shift up and the shift down meet.
    have hlt : 1 + i < 32 := by omega
    have hsub : 1 + i - 1 = i := by omega
    have hsign : (if 31 + (1 + i) < 32 then v.getLsbD (31 + (1 + i)) else v.msb) = v.msb :=
      if_neg (by omega)
    rw [hsign, hsub, decide_eq_true hlt]
    simp [Nat.not_le.mpr hlt]

/-- A sector coordinate cut to 32 bits. -/
def wrap32 (c : Int) : Int := (BitVec.ofInt 32 c).toInt

theorem carries_sectorCoord (c : Int) :
    Carries (writeSectorCoord c) readSectorCoord (wrap32 c) := by
  have h := carries_field 32 (zigZag32 (BitVec.ofInt 32 c)).toNat
    fun n => (unZigZag32 (BitVec.ofNat 32 n)).toInt
  rwa [Nat.mod_eq_of_lt (BitVec.isLt _), BitVec.ofNat_toNat, BitVec.setWidth_eq,
    unZigZag32_zigZag32] at h

/-! ## Records -/

theorem carries_if {α : Type} (c : Bool) (dflt a : α) (f : BitWriter → BitWriter)
    (g : ReadBuffer → α × ReadBuffer) (h : Carries f g a) :
    Carries (writeIf c f) (readIf c dflt g) (if c then a else dflt) := by
  cases c with
  | false => exact ⟨[], appends_id, fun _ _ hrb => ⟨rfl, hrb⟩⟩
  | true => exact h

theorem carries_vec {α β : Type} (f : α → BitWriter → BitWriter)
    (g : ReadBuffer → β × ReadBuffer) (conv : α → β) (h : ∀ a, Carries (f a) g (conv a))
    (v : Vec3 α) : Carries (writeVec f v) (readVec g) (v.map conv) := by
  rcases h v.x with ⟨bx, wx, px⟩
  rcases h v.y with ⟨by', wy, py⟩
  rcases h v.z with ⟨bz, wz, pz⟩
  refine ⟨bx ++ by' ++ bz, (wx.comp wy).comp wz, fun rb tail hrb => ?_⟩
  rw [List.append_assoc, List.append_assoc] at hrb
  rcases px rb _ hrb with ⟨hx, hrb⟩
  rcases py _ _ hrb with ⟨hy, hrb⟩
  rcases pz _ _ hrb with ⟨hz, hrb⟩
  refine ⟨?_, hrb⟩
  unfold readVec Vec3.map
  simp only [hx, hy, hz]

theorem DeltaMask.ofByte_byte (m : DeltaMask) : DeltaMask.ofByte (m.byte % 2 ^ 8) = m := by
  have h : ∀ a b c d e f g t : Bool,
      DeltaMask.ofByte (DeltaMask.byte ⟨a, b, c, d, e, f, g, t⟩ % 2 ^ 8) =
        ⟨a, b, c, d, e, f, g, t⟩ := by decide
  exact h m.pos m.sector m.hp m.shape m.owner m.kind m.bit6 m.tomb

/-- A record as it comes out of the codec: the fields of its mask, the sector
    cut to 32 bits, the rest as in an empty record. -/
def DeltaRecord.wire (r : DeltaRecord) : DeltaRecord :=
  let d := DeltaRecord.initial
  if r.mask.tomb then { d with netId := r.netId, mask := r.mask }
  else
    { netId := r.netId, mask := r.mask
      sector := if r.mask.sector then r.sector.map wrap32 else d.sector
      qpos := if r.mask.pos then r.qpos.map (· % 2 ^ posQuantBitsPerAxis) else d.qpos
      hp := if r.mask.hp then r.hp else d.hp
      shapeId := if r.mask.shape then r.shapeId else d.shapeId
      ownerPlayer := if r.mask.owner then r.ownerPlayer else d.ownerPlayer
      kind := if r.mask.kind then r.kind else d.kind }

@[simp] theorem DeltaRecord.wire_netId (r : DeltaRecord) : r.wire.netId = r.netId := by
  unfold DeltaRecord.wire
  cases r.mask.tomb <;> rfl

@[simp] theorem DeltaRecord.wire_mask (r : DeltaRecord) : r.wire.mask = r.mask := by
  unfold DeltaRecord.wire
  cases r.mask.tomb <;> rfl

theorem carries_netId (n : NetId) :
    Carries (fun w => w.write n.val 32)
      (fun rb => (Fin.ofNat 4294967296 (rb.readBits 32).1, (rb.readBits 32).2)) n := by
  have h := carries_field 32 n.val (Fin.ofNat 4294967296)
  have hn : n.val % 2 ^ 32 = n.val := Nat.mod_eq_of_lt n.isLt
  rwa [hn, Fin.ofNat_val_eq_self] at h

theorem carries_hp (hp : Int32) :
    Carries (fun w => w.write hp.toUInt32.toNat 32)
      (fun rb => ((UInt32.ofNat (rb.readBits 32).1).toInt32, (rb.readBits 32).2)) hp := by
  have h := carries_field 32 hp.toUInt32.toNat fun n => (UInt32.ofNat n).toInt32
  rwa [Nat.mod_eq_of_lt hp.toUInt32.toNat_lt, UInt32.ofNat_toNat, Int32.toInt32_toUInt32] at h

theorem carries_shapeId (s : UInt16) :
    Carries (fun w => w.write s.toNat 16)
      (fun rb => (UInt16.ofNat (rb.readBits 16).1, (rb.readBits 16).2)) s := by
  have h := carries_field 16 s.toNat UInt16.ofNat
  rwa [Nat.mod_eq_of_lt s.toNat_lt, UInt16.ofNat_toNat] at h

theorem carries_kind (k : EntityKind) :
    Carries (fun w => w.write k.code.toNat 8)
      (fun rb => ((⟨UInt8.ofNat (rb.readBits 8).1⟩ : EntityKind), (rb.readBits 8).2)) k := by
  have h := carries_field 8 k.code.toNat fun n => (⟨UInt8.ofNat n⟩ : EntityKind)
  rwa [Nat.mod_eq_of_lt k.code.toNat_lt, UInt8.ofNat_toNat] at h

/-- `g` takes `bs` off the front, accepts it and returns `a`. -/
def Accepts {α : Type} (g : ReadBuffer → Option (α × ReadBuffer)) (bs : List Bool) (a : α) :
    Prop :=
  ∀ (rb : ReadBuffer) (tail : List Bool), rb.Reads (bs ++ tail) →
    ∃ rb', g rb = some (a, rb') ∧ rb'.Reads tail

/-- Whatever its mask, a record is read back as what the wire keeps of it. -/
theorem record_carried (r : DeltaRecord) :
    ∃ bs, Appends (fun w => writeDeltaRecord w r) bs ∧ Accepts readDeltaRecord bs r.wire := by
  rcases carries_netId r.netId with ⟨bn, wn, pn⟩
  have wm := appends_write 8 r.mask.byte
  have pm := parses_readBits 8 r.mask.byte
  by_cases ht : r.mask.tomb = true
  · refine ⟨bn ++ bitsOf 8 r.mask.byte, ?_, fun rb tail hrb => ?_⟩
    · have hw : (fun w => writeDeltaRecord w r) =
          fun w => (w.write r.netId.val 32).write r.mask.byte 8 := by
        funext w
        unfold writeDeltaRecord
        simp only [ht, if_true]
      have hall := wn.comp wm
      rw [hw]
      exact hall
    · rw [List.append_assoc] at hrb
      rcases pn rb _ hrb with ⟨hn, hrb⟩
      rcases pm _ _ hrb with ⟨hm, hrb⟩
      refine ⟨_, ?_, hrb⟩
      unfold readDeltaRecord DeltaRecord.wire
      simp only at hn
      simp only [hm, DeltaMask.ofByte_byte, hn, hrb.isGood, ht, Bool.not_true, Bool.false_eq_true,
        if_false, if_true]
  · rcases carries_if r.mask.sector ⟨0, 0, 0⟩ _ _ _
      (carries_vec writeSectorCoord readSectorCoord wrap32 carries_sectorCoord r.sector) with
      ⟨b1, w1, p1⟩
    rcases carries_if r.mask.pos ⟨0, 0, 0⟩ _ _ _
      (carries_vec (fun q w => w.write q posQuantBitsPerAxis)
        (fun rb => rb.readBits posQuantBitsPerAxis) (· % 2 ^ posQuantBitsPerAxis)
        (fun q => carries_field posQuantBitsPerAxis q id) r.qpos) with ⟨b2, w2, p2⟩
    rcases carries_if r.mask.hp 0 _ _ _ (carries_hp r.hp) with ⟨b3, w3, p3⟩
    rcases carries_if r.mask.shape 0xFFFF _ _ _ (carries_shapeId r.shapeId) with ⟨b4, w4, p4⟩
    rcases carries_if r.mask.owner 0 _ _ _ (carries_netId r.ownerPlayer) with ⟨b5, w5, p5⟩
    rcases carries_if r.mask.kind ⟨0⟩ _ _ _ (carries_kind r.kind) with ⟨b6, w6, p6⟩
    refine ⟨bn ++ bitsOf 8 r.mask.byte ++ b1 ++ b2 ++ b3 ++ b4 ++ b5 ++ b6, ?_,
      fun rb tail hrb => ?_⟩
    · have hall := ((((((wn.comp wm).comp w1).comp w2).comp w3).comp w4).comp w5).comp w6
      have hw : (fun w => writeDeltaRecord w r) = fun w =>
          writeIf r.mask.kind (fun w => w.write r.kind.code.toNat 8)
            (writeIf r.mask.owner (fun w => w.write r.ownerPlayer.val 32)
              (writeIf r.mask.shape (fun w => w.write r.shapeId.toNat 16)
                (writeIf r.mask.hp (fun w => w.write r.hp.toUInt32.toNat 32)
                  (writeIf r.mask.pos (writeVec (fun q w => w.write q posQuantBitsPerAxis) r.qpos)
                    (writeIf r.mask.sector (writeVec writeSectorCoord r.sector)
                      ((w.write r.netId.val 32).write r.mask.byte 8)))))) := by
        funext w
        unfold writeDeltaRecord
        simp only [ht, if_false, Bool.false_eq_true]
      rw [hw]
      exact hall
    · simp only [List.append_assoc] at hrb
      rcases pn.eq rb _ hrb with ⟨rb0, hn, hrb⟩
      rcases pm.eq rb0 _ hrb with ⟨rb1, hm, hrb⟩
      have hgood := hrb.isGood
      rcases p1.eq rb1 _ hrb with ⟨rb2, h1, hrb⟩
      rcases p2.eq rb2 _ hrb with ⟨rb3, h2, hrb⟩
      rcases p3.eq rb3 _ hrb with ⟨rb4, h3, hrb⟩
      rcases p4.eq rb4 _ hrb with ⟨rb5, h4, hrb⟩
      rcases p5.eq rb5 _ hrb with ⟨rb6, h5, hrb⟩
      rcases p6.eq rb6 _ hrb with ⟨rb7, h6, hrb⟩
      refine ⟨rb7, ?_, hrb⟩
      rw [Prod.mk.injEq] at hn
      unfold readDeltaRecord DeltaRecord.wire
      simp only [hn.1, hn.2, hm, DeltaMask.ofByte_byte, hgood, ht, Bool.not_true,
        Bool.false_eq_true, if_false, DeltaRecord.initial, h1, h2, h3, h4, h5, h6, hrb.isGood,
        if_true]

/-- A count of records takes that many off the front, whatever follows them. -/
theorem records_carried (rs : List DeltaRecord) :
    ∃ bs, Appends (fun w => rs.foldl writeDeltaRecord w) bs ∧
      ∀ k, k ≤ rs.length → ∀ (rb : ReadBuffer) (tail : List Bool), rb.Reads (bs ++ tail) →
        ∃ rb' tail', readRecords k rb = some ((rs.take k).map DeltaRecord.wire, rb') ∧
          rb'.Reads tail' := by
  induction rs with
  | nil =>
      refine ⟨[], appends_id, fun k hk rb tail hrb => ⟨rb, tail, ?_, hrb⟩⟩
      rw [Nat.le_zero.mp hk]
      rfl
  | cons r rs ih =>
      rcases record_carried r with ⟨b, w, a⟩
      rcases ih with ⟨bs, ws, as⟩
      refine ⟨b ++ bs, w.comp ws, fun k hk rb tail hrb => ?_⟩
      cases k with
      | zero => exact ⟨rb, _, rfl, hrb⟩
      | succ k =>
          rw [List.append_assoc] at hrb
          rcases a rb _ hrb with ⟨rb1, hr, hrb1⟩
          rcases as k (Nat.le_of_succ_le_succ hk) rb1 tail hrb1 with ⟨rb2, tail', hrs, hrb2⟩
          refine ⟨rb2, tail', ?_, hrb2⟩
          unfold readRecords
          simp only [hr, hrs, List.take_succ_cons, List.map_cons]

/-- A snapshot as it comes out of the codec. The record count has 16 bits. -/
def DeltaSnapshot.wire (snap : DeltaSnapshot) : DeltaSnapshot :=
  { tick := snap.tick % 2 ^ 32
    records := (snap.records.take (snap.records.length % 2 ^ 16)).map DeltaRecord.wire }

/-- What a snapshot body decodes to. -/
theorem decode_encode (snap : DeltaSnapshot) :
    decodeDeltaSnapshot (encodeDeltaSnapshot snap) = some snap.wire := by
  rcases records_carried snap.records with ⟨bs, ws, as⟩
  rcases WriteBuffer.fresh_spec with ⟨hfill, hbits⟩
  have hall := ((appends_write 32 snap.tick).comp (appends_write 16 snap.records.length)).comp ws
  rcases hall WriteBuffer.fresh hfill with ⟨_, hw⟩
  rcases BitWriter.byteBits_buf (snap.records.foldl writeDeltaRecord
    ((WriteBuffer.fresh.write snap.tick 32).write snap.records.length 16)) with ⟨pad, hpad⟩
  rw [hw, hbits] at hpad
  simp only [List.append_assoc] at hpad
  have hrb := ReadBuffer.reads_ofBytes (encodeDeltaSnapshot snap) _ hpad
  have hgood := hrb.isGood
  rcases (parses_readBits 32 snap.tick).eq _ _ hrb with ⟨rb1, htick, hrb⟩
  rcases (parses_readBits 16 snap.records.length).eq _ _ hrb with ⟨rb2, hcount, hrb⟩
  rcases as (snap.records.length % 2 ^ 16) (Nat.mod_le _ _) rb2 pad hrb with
    ⟨rb3, tail', hrs, hrb3⟩
  unfold decodeDeltaSnapshot DeltaSnapshot.wire
  simp only [hgood, Bool.not_true, Bool.false_eq_true, if_false, htick, hcount, hrs, hrb3.isGood,
    if_true]

/-! ## Quantization -/

theorem roundAway_natCast (q : Nat) : roundAway (q : ℚ) = q := by
  unfold roundAway
  rw [if_pos (Nat.cast_nonneg q), Int.floor_eq_iff]
  push_cast
  constructor <;> linarith

/-- The offset of a step is inside the sector. -/
theorem dequantize_bounds (q : Nat) (hq : q < quantSteps) :
    0 ≤ dequantizeSectorLocal q ∧ dequantizeSectorLocal q < sectorSize := by
  have h0 : (0 : ℚ) ≤ q := Nat.cast_nonneg q
  have h1 : (q : ℚ) < 1048576 := by exact_mod_cast hq
  unfold dequantizeSectorLocal quantSteps sectorSize
  push_cast
  constructor <;> linarith

/-- The step nearest to the offset of a step is that step. -/
theorem quantize_dequantize (q : Nat) (hq : q < quantSteps) :
    quantizeSectorLocal (dequantizeSectorLocal q) = q := by
  rcases dequantize_bounds q hq with ⟨h0, h1⟩
  have hsteps : dequantizeSectorLocal q / (sectorSize : ℚ) * (quantSteps : ℚ) = (q : ℚ) := by
    unfold dequantizeSectorLocal quantSteps sectorSize
    push_cast
    ring
  unfold quantizeSectorLocal
  simp only [if_neg (not_lt.mpr h0), if_neg (not_le.mpr h1), hsteps, roundAway_natCast]
  unfold quantSteps at hq ⊢
  omega

/-! ## Overwriting -/

/-- The masked fields from the one side, the others from the other. -/
def Fields.merge (mask : DeltaMask) (new old : Fields) : Fields :=
  { sector := if mask.sector then new.sector else old.sector
    qpos := if mask.pos then new.qpos else old.qpos
    hp := if mask.hp then new.hp else old.hp
    shapeId := if mask.shape then new.shapeId else old.shapeId
    ownerPlayer := if mask.owner then new.ownerPlayer else old.ownerPlayer
    kind := if mask.kind then new.kind else old.kind }

/-- A metre offset within a sector added to its corner stays in the sector. -/
theorem sector_of_offset (c : Int) (m : ℚ) (h0 : 0 ≤ m) (h1 : m < sectorSize) :
    (c * sectorSize + ⌊m⌋) / sectorSize = c := by
  have hlo : 0 ≤ ⌊m⌋ := Int.floor_nonneg.mpr h0
  have hhi : ⌊m⌋ < sectorSize := Int.floor_lt.mpr h1
  unfold sectorSize at *
  omega

/-- A position put together from a sector and steps lies in that sector and
    quantizes to those steps. -/
theorem fields_of_reconstructed (sec : SectorId) (q : Vec3 Nat) (hq : q.All (· < quantSteps)) :
    let metres := q.map dequantizeSectorLocal
    let origin := sectorToOrigin sec
    let pos : UniversePos := ⟨origin.x + ⌊metres.x⌋, origin.y + ⌊metres.y⌋, origin.z + ⌊metres.z⌋⟩
    universeToSector pos = sec ∧
      (sectorLocalMetres pos (metres.map Int.fract)).map quantizeSectorLocal = q := by
  rcases q with ⟨qx, qy, qz⟩
  rcases hq with ⟨hx, hy, hz⟩
  rcases sec with ⟨sx, sy, sz⟩
  have bx := dequantize_bounds qx hx
  have by' := dequantize_bounds qy hy
  have bz := dequantize_bounds qz hz
  have ex := sector_of_offset sx _ bx.1 bx.2
  have ey := sector_of_offset sy _ by'.1 by'.2
  have ez := sector_of_offset sz _ bz.1 bz.2
  simp only [universeToSector, sectorToOrigin, sectorLocalMetres, Vec3.map, ex, ey, ez,
    add_sub_cancel_left, Int.floor_add_fract, quantize_dequantize _ hx, quantize_dequantize _ hy,
    quantize_dequantize _ hz, and_self]

/-- Overwriting an entity merges the record's fields into its own. -/
theorem fields_overwrite (e : SnapshotEntity) (r : DeltaRecord)
    (hsec : r.mask.sector = true → r.mask.pos = true) (hq : r.qpos.All (· < quantSteps)) :
    (DeltaDecodeState.overwrite e r).fields = Fields.merge r.mask r.toFields e.fields := by
  unfold DeltaDecodeState.overwrite Fields.merge SnapshotEntity.fields
  by_cases hpos : r.mask.pos = true
  · have h := fields_of_reconstructed
      (if r.mask.sector then r.sector else universeToSector e.pos) r.qpos hq
    simp only at h
    simp only [hpos, if_true, h.1, h.2]
  · have hs : r.mask.sector = false := by
      by_contra hs
      exact hpos (hsec (by simpa using hs))
    simp only [hs, hpos, if_false, Bool.false_eq_true]

theorem wire_qpos_lt (r : DeltaRecord) : r.wire.qpos.All (· < quantSteps) := by
  have hz : (⟨0, 0, 0⟩ : Vec3 Nat).All (· < quantSteps) := ⟨by decide, by decide, by decide⟩
  have hm : ∀ n : Nat, n % 2 ^ posQuantBitsPerAxis < quantSteps := fun n =>
    Nat.mod_lt n (Nat.two_pow_pos posQuantBitsPerAxis)
  unfold DeltaRecord.wire
  by_cases ht : r.mask.tomb = true
  · simp only [ht, if_true]
    exact hz
  · by_cases hp : r.mask.pos = true
    · simp only [ht, hp, if_true, if_false, Bool.false_eq_true]
      exact ⟨hm _, hm _, hm _⟩
    · simp only [ht, hp, if_false, Bool.false_eq_true]
      exact hz

/-- What a delivered record makes of an entity's fields. -/
theorem fields_overwrite_wire (e : SnapshotEntity) (r : DeltaRecord)
    (hsec : r.mask.sector = true → r.mask.pos = true) :
    (DeltaDecodeState.overwrite e r.wire).fields =
      Fields.merge r.mask r.wire.toFields e.fields := by
  have h := fields_overwrite e r.wire (by rwa [r.wire_mask]) (wire_qpos_lt r)
  rwa [r.wire_mask] at h

/-! ## Making records -/

theorem makeDeltaRecord_toFields (cur : SnapshotEntity) (base : Option SnapshotEntity) :
    (makeDeltaRecord cur base).toFields = cur.fields := rfl

theorem makeDeltaRecord_netId (cur : SnapshotEntity) (base : Option SnapshotEntity) :
    (makeDeltaRecord cur base).netId = cur.netId := rfl

theorem makeDeltaRecord_tomb (cur : SnapshotEntity) (base : Option SnapshotEntity) :
    (makeDeltaRecord cur base).mask.tomb = false := by
  cases base with
  | none => rfl
  | some b => rfl

/-- A record with a sector has a position. -/
theorem makeDeltaRecord_pos (cur : SnapshotEntity) (base : Option SnapshotEntity)
    (h : (makeDeltaRecord cur base).mask.sector = true) :
    (makeDeltaRecord cur base).mask.pos = true := by
  cases base with
  | none => rfl
  | some b =>
      unfold makeDeltaRecord at h ⊢
      simp only at h ⊢
      rw [h, Bool.or_true]

/-- The mask names every field in which the entity differs from its base. -/
theorem makeDeltaRecord_merge (cur base : SnapshotEntity) :
    Fields.merge (makeDeltaRecord cur (some base)).mask cur.fields base.fields = cur.fields := by
  have hpick : ∀ {α : Type} [DecidableEq α] (a b : α),
      (if decide (a ≠ b) = true then a else b) = a := by
    intro α _ a b
    by_cases h : a = b
    · rw [h, if_neg (by simp)]
    · rw [if_pos (by simpa using h)]
  have hpos : ∀ c : Bool, (if (decide (cur.fields.qpos ≠ base.fields.qpos) || c) = true
      then cur.fields.qpos else base.fields.qpos) = cur.fields.qpos := by
    intro c
    by_cases h : cur.fields.qpos = base.fields.qpos
    · rw [h, ite_self]
    · rw [if_pos (by simp [h])]
  unfold makeDeltaRecord Fields.merge
  simp only [hpick, hpos]

/-- A record is empty exactly when nothing in it differs from its base. -/
theorem makeDeltaRecord_mask_none (cur base : SnapshotEntity) :
    (makeDeltaRecord cur (some base)).mask = DeltaMask.none ↔ cur.fields = base.fields := by
  constructor
  · intro h
    have hm := makeDeltaRecord_merge cur base
    rw [h] at hm
    exact hm.symm
  · intro h
    unfold makeDeltaRecord
    simp [h, DeltaMask.none]

theorem full_ne_none : DeltaMask.full ≠ DeltaMask.none := by decide

/-- A first record takes anything to the entity. -/
theorem merge_full (f old : Fields) : Fields.merge DeltaMask.full f old = f := rfl

theorem fields_qpos_lt (e : SnapshotEntity) : e.fields.qpos.All (· < quantSteps) := by
  have h : ∀ x : ℚ, quantizeSectorLocal x < quantSteps := by
    intro x
    unfold quantizeSectorLocal quantSteps
    simp only
    omega
  exact ⟨h _, h _, h _⟩

/-- A sector coordinate that fits in 32 bits. -/
def FitsInt32 (c : Int) : Prop := -2147483648 ≤ c ∧ c < 2147483648

instance (c : Int) : Decidable (FitsInt32 c) := inferInstanceAs (Decidable (_ ∧ _))

theorem wrap32_eq_self (c : Int) (h : FitsInt32 c) : wrap32 c = c := by
  unfold wrap32
  rw [BitVec.toInt_ofInt]
  unfold FitsInt32 at h
  exact Int.bmod_eq_of_le (by omega) (by omega)

/-- A record whose sector fits arrives as it was made, under its mask. -/
theorem merge_wire (r : DeltaRecord) (old : Fields) (ht : r.mask.tomb = false)
    (hq : r.qpos.All (· < quantSteps))
    (hsec : r.mask.sector = true → r.sector.All FitsInt32) :
    Fields.merge r.mask r.wire.toFields old = Fields.merge r.mask r.toFields old := by
  have hmap : r.qpos.map (· % 2 ^ posQuantBitsPerAxis) = r.qpos := by
    have hlt : ∀ n, n < quantSteps → n % 2 ^ posQuantBitsPerAxis = n :=
      fun n hn => Nat.mod_eq_of_lt hn
    unfold Vec3.map
    simp only [hlt _ hq.1, hlt _ hq.2.1, hlt _ hq.2.2]
  unfold Fields.merge DeltaRecord.wire
  simp only [ht, Bool.false_eq_true, if_false, hmap]
  congr 1
  · by_cases hs : r.mask.sector = true
    · rcases hsec hs with ⟨hx, hy, hz⟩
      simp only [hs, if_true, Vec3.map, wrap32_eq_self _ hx, wrap32_eq_self _ hy,
        wrap32_eq_self _ hz]
    · simp only [hs, Bool.false_eq_true, if_false]
  all_goals split <;> rfl

/-! ## The byte budget -/

/-- The kept records are a prefix of those with something in them, and the rest
    spills. -/
theorem takeWhileFits_spec (byteBudget bits : Nat) (rs : List DeltaRecord) :
    ∃ rest, rs.filter (fun r => r.mask ≠ DeltaMask.none) =
        (takeWhileFits byteBudget bits rs).1 ++ rest ∧
      (takeWhileFits byteBudget bits rs).2 = rest.map DeltaRecord.netId := by
  induction rs generalizing bits with
  | nil => exact ⟨[], rfl, rfl⟩
  | cons r rs ih =>
      unfold takeWhileFits
      by_cases hm : r.mask = DeltaMask.none
      · rw [if_pos hm, List.filter_cons_of_neg (by simpa using hm)]
        exact ih bits
      · have hkeep : (r :: rs).filter (fun r => r.mask ≠ DeltaMask.none) =
            r :: rs.filter fun r => r.mask ≠ DeltaMask.none :=
          List.filter_cons_of_pos (by simpa using hm)
        rw [if_neg hm]
        by_cases hfit : byteBudget < (bits + deltaRecordBits r + 7) / 8
        · simp only [if_pos hfit]
          exact ⟨_, (List.nil_append _).symm, rfl⟩
        · rcases ih (bits + deltaRecordBits r) with ⟨rest, hsplit, hspill⟩
          simp only [if_neg hfit]
          refine ⟨rest, ?_, hspill⟩
          rw [hkeep, hsplit, List.cons_append]

/-- A record takes at least its id and mask, and at most every field. -/
theorem deltaRecordBits_bounds (r : DeltaRecord) :
    40 ≤ deltaRecordBits r ∧ deltaRecordBits r ≤ 284 := by
  have hif : ∀ (c : Bool) (k : Nat), (if c = true then k else 0) ≤ k := by
    intro c k
    split <;> omega
  unfold deltaRecordBits posQuantBitsPerAxis
  split
  · omega
  · have h1 := hif r.mask.sector (3 * 32)
    have h2 := hif r.mask.pos (3 * 20)
    have h3 := hif r.mask.hp 32
    have h4 := hif r.mask.shape 16
    have h5 := hif r.mask.owner 32
    have h6 := hif r.mask.kind 8
    omega

/-- The kept records fit the budget behind the bits before them. -/
theorem takeWhileFits_fits (byteBudget bits : Nat) (rs : List DeltaRecord) :
    (takeWhileFits byteBudget bits rs).1 = [] ∨
      bits + ((takeWhileFits byteBudget bits rs).1.map deltaRecordBits).sum ≤ 8 * byteBudget := by
  induction rs generalizing bits with
  | nil => exact Or.inl rfl
  | cons r rs ih =>
      unfold takeWhileFits
      by_cases hm : r.mask = DeltaMask.none
      · rw [if_pos hm]
        exact ih bits
      · rw [if_neg hm]
        by_cases hfit : byteBudget < (bits + deltaRecordBits r + 7) / 8
        · simp only [if_pos hfit]
          exact Or.inl trivial
        · simp only [if_neg hfit, List.map_cons, List.sum_cons]
          rcases ih (bits + deltaRecordBits r) with hnil | hle
          · rw [hnil, List.map_nil, List.sum_nil]
            omega
          · omega

/-- A first record that fits is kept. -/
theorem takeWhileFits_head (byteBudget bits : Nat) (r : DeltaRecord) (rs : List DeltaRecord)
    (hm : r.mask ≠ DeltaMask.none) (hfit : bits + deltaRecordBits r ≤ 8 * byteBudget) :
    r ∈ (takeWhileFits byteBudget bits (r :: rs)).1 := by
  have hno : ¬ byteBudget < (bits + deltaRecordBits r + 7) / 8 := by omega
  unfold takeWhileFits
  simp only [if_neg hm, if_neg hno]
  exact List.mem_cons_self

/-! ### The size of a body -/

/-- `f` appends `k` bits. -/
def Sized (f : BitWriter → BitWriter) (k : Nat) : Prop := ∃ bs, Appends f bs ∧ bs.length = k

theorem Sized.comp {f g : BitWriter → BitWriter} {k l : Nat} (hf : Sized f k) (hg : Sized g l) :
    Sized (fun w => g (f w)) (k + l) := by
  rcases hf with ⟨bs, hbs, rfl⟩
  rcases hg with ⟨cs, hcs, rfl⟩
  exact ⟨bs ++ cs, hbs.comp hcs, List.length_append⟩

theorem sized_write (n v : Nat) : Sized (fun w => w.write v n) n :=
  ⟨bitsOf n v, appends_write n v, length_bitsOf n v⟩

theorem sized_if {f : BitWriter → BitWriter} {k : Nat} (c : Bool) (h : Sized f k) :
    Sized (writeIf c f) (if c = true then k else 0) := by
  cases c with
  | false => exact ⟨[], appends_id, rfl⟩
  | true => exact h

theorem sized_vec {α : Type} {f : α → BitWriter → BitWriter} {k : Nat} (h : ∀ a, Sized (f a) k)
    (v : Vec3 α) : Sized (writeVec f v) (3 * k) := by
  have hall := ((h v.x).comp (h v.y)).comp (h v.z)
  rwa [show k + k + k = 3 * k by omega] at hall

/-- What is written after a record's net id and mask. -/
def writeBody (r : DeltaRecord) (w : BitWriter) : BitWriter :=
  if r.mask.tomb then w
  else
    let w := writeIf r.mask.sector (writeVec writeSectorCoord r.sector) w
    let w := writeIf r.mask.pos
      (writeVec (fun q w => w.write q posQuantBitsPerAxis) r.qpos) w
    let w := writeIf r.mask.hp (fun w => w.write r.hp.toUInt32.toNat 32) w
    let w := writeIf r.mask.shape (fun w => w.write r.shapeId.toNat 16) w
    let w := writeIf r.mask.owner (fun w => w.write r.ownerPlayer.val 32) w
    writeIf r.mask.kind (fun w => w.write r.kind.code.toNat 8) w

theorem writeDeltaRecord_eq (w : BitWriter) (r : DeltaRecord) :
    writeDeltaRecord w r = writeBody r ((w.write r.netId.val 32).write r.mask.byte 8) := rfl

theorem sized_body (r : DeltaRecord) : Sized (writeBody r) (deltaRecordBits r - 40) := by
  unfold deltaRecordBits
  by_cases ht : r.mask.tomb = true
  · have hw : writeBody r = fun w => w := by
      funext w
      unfold writeBody
      simp only [ht, if_true]
    rw [if_pos ht, hw]
    exact ⟨[], appends_id, rfl⟩
  · have h1 := sized_if r.mask.sector
      (sized_vec (fun c => sized_write 32 (zigZag32 (BitVec.ofInt 32 c)).toNat) r.sector)
    have h2 := sized_if r.mask.pos (sized_vec (fun q => sized_write posQuantBitsPerAxis q) r.qpos)
    have h3 := sized_if r.mask.hp (sized_write 32 r.hp.toUInt32.toNat)
    have h4 := sized_if r.mask.shape (sized_write 16 r.shapeId.toNat)
    have h5 := sized_if r.mask.owner (sized_write 32 r.ownerPlayer.val)
    have h6 := sized_if r.mask.kind (sized_write 8 r.kind.code.toNat)
    have hall := ((((h1.comp h2).comp h3).comp h4).comp h5).comp h6
    have hw : writeBody r = fun w =>
        writeIf r.mask.kind (fun w => w.write r.kind.code.toNat 8)
          (writeIf r.mask.owner (fun w => w.write r.ownerPlayer.val 32)
            (writeIf r.mask.shape (fun w => w.write r.shapeId.toNat 16)
              (writeIf r.mask.hp (fun w => w.write r.hp.toUInt32.toNat 32)
                (writeIf r.mask.pos (writeVec (fun q w => w.write q posQuantBitsPerAxis) r.qpos)
                  (writeIf r.mask.sector
                    (writeVec (fun c w => w.write (zigZag32 (BitVec.ofInt 32 c)).toNat 32) r.sector)
                    w))))) := by
      funext w
      unfold writeBody
      simp only [ht, if_false, Bool.false_eq_true]
      rfl
    rw [if_neg ht, hw]
    convert hall using 1
    omega

/-- The budget counts what a record takes on the wire. -/
theorem sized_record (r : DeltaRecord) :
    Sized (fun w => writeDeltaRecord w r) (deltaRecordBits r) := by
  have hid := (sized_write 32 r.netId.val).comp (sized_write 8 r.mask.byte)
  have hall := hid.comp (sized_body r)
  have hbits := (deltaRecordBits_bounds r).1
  rwa [show 32 + 8 + (deltaRecordBits r - 40) = deltaRecordBits r by omega] at hall

theorem sized_records (rs : List DeltaRecord) :
    Sized (fun w => rs.foldl writeDeltaRecord w) (rs.map deltaRecordBits).sum := by
  induction rs with
  | nil => exact ⟨[], appends_id, rfl⟩
  | cons r rs ih => exact (sized_record r).comp ih

/-- A writer has no more bytes than its bits need, and one. -/
theorem length_buf_le (w : BitWriter) (hw : w.Filled) : 8 * w.buf.length ≤ w.bits.length + 8 := by
  unfold BitWriter.bits
  rw [List.length_take, length_byteBits]
  rcases hw with ⟨hbuf, hfree⟩ | ⟨_, _, _, hle, _⟩
  · rw [hfree]
    omega
  · omega

/-- The bytes of a body, from the bits the budget counts. -/
theorem length_encode_le (snap : DeltaSnapshot) :
    8 * (encodeDeltaSnapshot snap).length ≤
      deltaHeaderBits + (snap.records.map deltaRecordBits).sum + 8 := by
  rcases WriteBuffer.fresh_spec with ⟨hfill, hbits⟩
  rcases ((sized_write 32 snap.tick).comp (sized_write 16 snap.records.length)).comp
    (sized_records snap.records) with ⟨bs, happ, hlen⟩
  rcases happ WriteBuffer.fresh hfill with ⟨hfill', hbits'⟩
  have hle := length_buf_le _ hfill'
  rw [hbits', List.length_append, hbits, length_bitsOf, hlen] at hle
  unfold deltaHeaderBits
  exact Nat.le_trans hle (by omega)

/-- A body of a budgeted snapshot is at most a byte over the budget. -/
theorem length_budgeted_le (tick : Nat) (ordered : List DeltaRecord) (byteBudget : Nat) :
    (encodeDeltaSnapshot (buildBudgetedSnapshot tick ordered byteBudget).1).length ≤
      max byteBudget 10 + 1 := by
  have hlen := length_encode_le (buildBudgetedSnapshot tick ordered byteBudget).1
  have hfits := takeWhileFits_fits byteBudget deltaHeaderBits ordered
  have hrec : (buildBudgetedSnapshot tick ordered byteBudget).1.records =
      (takeWhileFits byteBudget deltaHeaderBits ordered).1 := rfl
  rw [hrec] at hlen
  rcases hfits with hnil | hle
  · rw [hnil, List.map_nil, List.sum_nil] at hlen
    unfold deltaHeaderBits at hlen
    omega
  · omega

/-! ## The decoder -/

namespace DeltaDecodeState

/-- What the decoder keeps of one entity: its copy and the tick of its last
    record. -/
abbrev Slot := Option SnapshotEntity × Option Nat

def slot (st : DeltaDecodeState) (n : NetId) : Slot := (st.entities.find? n, st.lastTick.find? n)

/-- A tick that is not past the last one of a slot. -/
def Slot.stale (s : Slot) (tick : Nat) : Bool := s.2.elim false fun last => tick ≤ last

/-- What a record makes of its entity's slot. -/
def Slot.touch (s : Slot) (tick : Nat) (r : DeltaRecord) : Slot :=
  if s.stale tick then s
  else
    (if r.mask.tomb then none else some (overwrite (s.1.getD SnapshotEntity.initial) r), some tick)

theorem Slot.touch_stale (s : Slot) (tick : Nat) (r : DeltaRecord) (h : s.stale tick = true) :
    s.touch tick r = s := if_pos h

theorem Slot.touch_fresh (s : Slot) (tick : Nat) (r : DeltaRecord) (h : ¬ s.stale tick = true) :
    s.touch tick r = (if r.mask.tomb then none
      else some (overwrite (s.1.getD SnapshotEntity.initial) r), some tick) := if_neg h

theorem slot_applyRecord (tick : Nat) (st : DeltaDecodeState) (r : DeltaRecord) (n : NetId) :
    (applyRecord tick st r).slot n =
      if r.netId = n then (st.slot n).touch tick r else st.slot n := by
  have hstale : st.stale tick r.netId = (st.slot r.netId).stale tick := by
    unfold stale slot Slot.stale
    cases st.lastTick.find? r.netId <;> rfl
  unfold applyRecord
  rw [hstale]
  by_cases hn : r.netId = n
  · rw [if_pos hn, hn]
    by_cases hs : (st.slot n).stale tick = true
    · rw [if_pos hs, Slot.touch_stale _ tick r hs]
    · rw [if_neg hs, Slot.touch_fresh _ tick r hs]
      unfold slot
      cases ht : r.mask.tomb <;> simp [OrdMap.find?_erase]
  · rw [if_neg hn]
    by_cases hs : (st.slot r.netId).stale tick = true
    · rw [if_pos hs]
    · have hn' : ¬ n = r.netId := fun h => hn h.symm
      rw [if_neg hs]
      unfold slot
      cases ht : r.mask.tomb <;> simp [OrdMap.find?_erase, OrdMap.find?_insert, hn']

/-- Only the first record of an entity counts in a snapshot. -/
theorem Slot.touch_touch (s : Slot) (tick : Nat) (r r' : DeltaRecord) :
    (s.touch tick r).touch tick r' = s.touch tick r := by
  have hstale : (s.touch tick r).stale tick = true := by
    by_cases hs : s.stale tick = true
    · rw [touch_stale s tick r hs]
      exact hs
    · rw [touch_fresh s tick r hs]
      exact decide_eq_true (Nat.le_refl tick)
  exact touch_stale _ tick r' hstale

theorem slot_applyRecords (tick : Nat) (rs : List DeltaRecord) (st : DeltaDecodeState)
    (n : NetId) :
    (rs.foldl (applyRecord tick) st).slot n =
      (rs.find? fun r => r.netId = n).elim (st.slot n) ((st.slot n).touch tick) := by
  induction rs generalizing st with
  | nil => rfl
  | cons r rs ih =>
      rw [List.foldl_cons, ih, slot_applyRecord]
      by_cases hn : r.netId = n
      · rw [if_pos hn, List.find?_cons_of_pos (by simpa using hn)]
        cases rs.find? fun r => r.netId = n with
        | none => rfl
        | some r' => exact Slot.touch_touch _ tick r r'
      · rw [if_neg hn, List.find?_cons_of_neg (by simpa using hn)]

/-- What a snapshot makes of one entity's slot. -/
theorem slot_applySnapshot (st : DeltaDecodeState) (snap : DeltaSnapshot) (n : NetId) :
    (st.applySnapshot snap).slot n =
      (snap.records.find? fun r => r.netId = n).elim (st.slot n)
        ((st.slot n).touch snap.tick) :=
  slot_applyRecords snap.tick snap.records _ n

end DeltaDecodeState

end Sim

end EarthRise
