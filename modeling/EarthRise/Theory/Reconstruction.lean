import EarthRise.Theory.Snapshot
import EarthRise.Lib.Exact
import Mathlib.Tactic.Linarith
import Mathlib.Tactic.NormNum

/-!
# Position Reconstruction

How far a client's copy of a position is from the position.

Everything a client holds was put together from a sector and quantization steps,
whatever stream of snapshots it has heard: a record either brings a position with
it or leaves the one there (`reconstructed_received`). Such a copy lies exactly on
its steps, so it is off by what the quantization of the original is off, once, and
no number of further records adds to it. The steps are rounded to the nearest and
cut off at the sector's upper edge; either way less than one step is lost.

## Main definitions

* `Reconstructed`: An entity put together from a sector and steps.
* `DeltaDecodeState.received`: A client after a stream of snapshots.
* `offAxis`: How far apart two entities are on each axis.

## Theorems

* `dequantize_quantize`: The error of one axis.
* `reconstructed_received`: What a client holds is reconstructed.
* `reconstruction`: Where a record takes a client that holds its base.
-/

namespace EarthRise

namespace Sim

open Universe Serde

/-! ## One axis -/

theorem roundAway_error (x : ℚ) (h : 0 ≤ x) :
    (roundAway x : ℚ) - x ≤ 1 / 2 ∧ x - roundAway x ≤ 1 / 2 ∧ 0 ≤ roundAway x := by
  unfold roundAway
  rw [if_pos h]
  have hle := Int.floor_le (x + 1 / 2)
  have hlt := Int.lt_floor_add_one (x + 1 / 2)
  refine ⟨by linarith, by linarith, Int.floor_nonneg.mpr (by linarith)⟩

/-- The offset of the step nearest to an offset within the sector is less than a
    step away, at the upper edge too. -/
theorem dequantize_quantize (m : ℚ) (h0 : 0 ≤ m) (h1 : m < sectorSize) :
    |dequantizeSectorLocal (quantizeSectorLocal m) - m| ≤ (sectorSize : ℚ) / quantSteps := by
  have hspan : (sectorSize : ℚ) = 16384 := by
    unfold sectorSize
    norm_num
  have hsteps : (quantSteps : ℚ) = 1048576 := by
    unfold quantSteps
    norm_num
  rw [hspan] at h1
  have hscaled : m / (sectorSize : ℚ) * (quantSteps : ℚ) = m * 64 := by
    rw [hspan, hsteps]
    ring
  rcases roundAway_error (m * 64) (by linarith) with ⟨hup, hdown, hpos⟩
  have hquant : quantizeSectorLocal m = min (roundAway (m * 64)).toNat 1048575 := by
    unfold quantizeSectorLocal
    simp only [if_neg (not_lt.mpr h0), hscaled, max_eq_left hpos,
      if_neg (show ¬ (sectorSize : ℚ) ≤ m by rw [hspan]; linarith)]
    rfl
  have hnat : ((roundAway (m * 64)).toNat : ℚ) = roundAway (m * 64) := by
    have := Int.toNat_of_nonneg hpos
    exact_mod_cast congrArg (fun z : Int => (z : ℚ)) this
  have hback : ∀ q : Nat, dequantizeSectorLocal q = (q : ℚ) / 64 := by
    intro q
    unfold dequantizeSectorLocal
    rw [hspan, hsteps]
    ring
  rw [hquant, hback, hspan, hsteps, abs_le]
  by_cases hclamp : (roundAway (m * 64)).toNat ≤ 1048575
  · rw [min_eq_left hclamp, hnat]
    constructor <;> linarith
  · -- The nearest step is the sector's edge; the last step below it is taken.
    have hedge : (1048576 : ℚ) ≤ (roundAway (m * 64)).toNat := by
      exact_mod_cast Nat.lt_of_not_le hclamp
    rw [hnat] at hedge
    rw [min_eq_right (by omega)]
    push_cast
    constructor <;> linarith

/-! ## What a client holds -/

/-- An entity whose position was put together from a sector and steps. -/
def Reconstructed (e : SnapshotEntity) : Prop :=
  ∃ (sec : SectorId) (q : Vec3 Nat), q.All (· < quantSteps) ∧
    e.pos = ⟨(sectorToOrigin sec).x + ⌊(q.map dequantizeSectorLocal).x⌋,
      (sectorToOrigin sec).y + ⌊(q.map dequantizeSectorLocal).y⌋,
      (sectorToOrigin sec).z + ⌊(q.map dequantizeSectorLocal).z⌋⟩ ∧
    e.localOffset = (q.map dequantizeSectorLocal).map Int.fract

theorem reconstructed_initial : Reconstructed SnapshotEntity.initial := by
  refine ⟨⟨0, 0, 0⟩, ⟨0, 0, 0⟩, ⟨by decide, by decide, by decide⟩, ?_, ?_⟩
  · decide +kernel
  · decide +kernel

/-- A record brings a position of that kind or leaves the one there. -/
theorem reconstructed_overwrite (e : SnapshotEntity) (r : DeltaRecord) (he : Reconstructed e)
    (hq : r.qpos.All (· < quantSteps)) : Reconstructed (DeltaDecodeState.overwrite e r) := by
  by_cases hpos : r.mask.pos = true
  · refine ⟨if r.mask.sector then r.sector else universeToSector e.pos, r.qpos, hq, ?_, ?_⟩
    · simp only [DeltaDecodeState.overwrite, hpos, if_true]
    · simp only [DeltaDecodeState.overwrite, hpos, if_true]
  · rcases he with ⟨sec, q, hlt, hp, ho⟩
    refine ⟨sec, q, hlt, ?_, ?_⟩
    · simp only [DeltaDecodeState.overwrite, hpos, Bool.false_eq_true, if_false]
      exact hp
    · simp only [DeltaDecodeState.overwrite, hpos, Bool.false_eq_true, if_false]
      exact ho

/-- It lies on its steps. -/
theorem Reconstructed.metres {e : SnapshotEntity} (h : Reconstructed e) :
    sectorLocalMetres e.pos e.localOffset = e.fields.qpos.map dequantizeSectorLocal := by
  rcases h with ⟨sec, q, hq, hpos, hoff⟩
  have hfields := fields_of_reconstructed sec q hq
  simp only at hfields
  rw [← hpos, ← hoff] at hfields
  have hqpos : e.fields.qpos = q := hfields.2
  rw [hqpos]
  unfold sectorLocalMetres
  rw [hfields.1, hpos, hoff]
  simp only [Vec3.map, add_sub_cancel_left, Int.floor_add_fract]

namespace DeltaDecodeState

/-- A client after the bodies of a stream of snapshots; one that it cannot read
    changes nothing. -/
def received (snaps : List DeltaSnapshot) : DeltaDecodeState :=
  snaps.foldl (fun st snap => (st.apply (encodeDeltaSnapshot snap)).getD st) fresh

theorem apply_encode (st : DeltaDecodeState) (snap : DeltaSnapshot) :
    st.apply (encodeDeltaSnapshot snap) = some (st.applySnapshot snap.wire) := by
  unfold apply
  rw [decode_encode, Option.map_some]

end DeltaDecodeState

open DeltaDecodeState

/-- What a snapshot leaves of an entity was there or was overwritten. -/
theorem find_applySnapshot (st : DeltaDecodeState) (snap : DeltaSnapshot) (n : NetId)
    (e : SnapshotEntity) (h : (st.applySnapshot snap).entities.find? n = some e) :
    st.entities.find? n = some e ∨
      ∃ r ∈ snap.records, e = overwrite ((st.entities.find? n).getD SnapshotEntity.initial) r := by
  have hslot := slot_applySnapshot st snap n
  have hfind : ((st.applySnapshot snap).slot n).1 = some e := h
  rw [hslot] at hfind
  cases hr : snap.records.find? fun r => r.netId = n with
  | none =>
      rw [hr] at hfind
      exact Or.inl hfind
  | some r =>
      rw [hr] at hfind
      simp only [Option.elim_some] at hfind
      by_cases hs : (st.slot n).stale snap.tick = true
      · rw [Slot.touch_stale _ _ _ hs] at hfind
        exact Or.inl hfind
      · rw [Slot.touch_fresh _ _ _ hs] at hfind
        cases ht : r.mask.tomb with
        | true =>
            rw [ht] at hfind
            simp only [if_true] at hfind
            exact absurd hfind nofun
        | false =>
            rw [ht] at hfind
            simp only [Bool.false_eq_true, if_false, Option.some.injEq] at hfind
            exact Or.inr ⟨r, List.mem_of_find?_eq_some hr, hfind.symm⟩

theorem reconstructed_received (snaps : List DeltaSnapshot) (n : NetId) (e : SnapshotEntity)
    (h : (received snaps).entities.find? n = some e) : Reconstructed e := by
  have hrun : ∀ (snaps : List DeltaSnapshot) (st : DeltaDecodeState),
      (∀ n e, st.entities.find? n = some e → Reconstructed e) →
      ∀ n e, (snaps.foldl (fun st snap => (st.apply (encodeDeltaSnapshot snap)).getD st)
        st).entities.find? n = some e → Reconstructed e := by
    intro snaps
    induction snaps with
    | nil => exact fun _ hst => hst
    | cons snap snaps ih =>
        intro st hst
        refine ih _ ?_
        simp only [apply_encode, Option.getD_some]
        intro n e hfind
        rcases find_applySnapshot st snap.wire n e hfind with hold | ⟨r, hr, rfl⟩
        · exact hst n e hold
        · have hbase : Reconstructed ((st.entities.find? n).getD SnapshotEntity.initial) := by
            cases hb : st.entities.find? n with
            | none => exact reconstructed_initial
            | some b => exact hst n b hb
          unfold DeltaSnapshot.wire at hr
          rcases List.mem_map.mp hr with ⟨r', _, rfl⟩
          exact reconstructed_overwrite _ _ hbase (wire_qpos_lt r')
  refine hrun snaps fresh ?_ n e h
  intro n e hnone
  exact absurd hnone (by simp [fresh])

/-! ## Where a record takes the client -/

/-- How far apart two entities are on each axis, in metres. -/
def offAxis (a b : SnapshotEntity) : Vec3 ℚ :=
  ⟨|(a.pos.x + a.localOffset.x) - (b.pos.x + b.localOffset.x)|,
    |(a.pos.y + a.localOffset.y) - (b.pos.y + b.localOffset.y)|,
    |(a.pos.z + a.localOffset.z) - (b.pos.z + b.localOffset.z)|⟩

/-- An offset within a metre of a whole position in the sector is in the sector. -/
theorem local_bounds (p : Int) (o : ℚ) (ho : 0 ≤ o ∧ o < 1) :
    0 ≤ ((p - p / sectorSize * sectorSize : Int) : ℚ) + o ∧
      ((p - p / sectorSize * sectorSize : Int) : ℚ) + o < sectorSize := by
  have hsize : sectorSize = 16384 := rfl
  rw [hsize]
  have hlo : 0 ≤ p - p / 16384 * 16384 := by omega
  have hhi : p - p / 16384 * 16384 ≤ 16383 := by omega
  have hlo' : (0 : ℚ) ≤ ((p - p / 16384 * 16384 : Int) : ℚ) := by exact_mod_cast hlo
  have hhi' : ((p - p / 16384 * 16384 : Int) : ℚ) ≤ 16383 := by exact_mod_cast hhi
  refine ⟨by linarith [ho.1], ?_⟩
  push_cast at hhi' ⊢
  linarith [ho.2]

/-- A copy on the steps of an entity is at most one step from it. -/
theorem offAxis_le (e cur : SnapshotEntity) (he : Reconstructed e)
    (hfields : e.fields = cur.fields) (hoff : cur.localOffset.All fun o => 0 ≤ o ∧ o < 1) :
    (offAxis e cur).All (· ≤ (sectorSize : ℚ) / quantSteps) := by
  have hsector : universeToSector e.pos = universeToSector cur.pos :=
    congrArg Fields.sector hfields
  have hmetres := he.metres
  rw [congrArg Fields.qpos hfields] at hmetres
  unfold SnapshotEntity.fields sectorLocalMetres at hmetres
  rw [hsector] at hmetres
  simp only [Vec3.map, Vec3.mk.injEq] at hmetres
  -- Both lie in one sector, so their distance is that of their sector offsets.
  have haxis : ∀ (p p' c : Int) (o o' : ℚ), 0 ≤ ((p - c : Int) : ℚ) + o →
      ((p - c : Int) : ℚ) + o < sectorSize →
      ((p' - c : Int) : ℚ) + o' =
        dequantizeSectorLocal (quantizeSectorLocal (((p - c : Int) : ℚ) + o)) →
      |((p' : ℚ) + o') - (p + o)| ≤ (sectorSize : ℚ) / quantSteps := by
    intro p p' c o o' h0 h1 hstep
    have herror := dequantize_quantize _ h0 h1
    rw [← hstep] at herror
    push_cast at herror
    rwa [show (p' : ℚ) + o' - (p + o) = (p' - c + o') - (p - c + o) by ring]
  have hx := local_bounds cur.pos.x cur.localOffset.x hoff.1
  have hy := local_bounds cur.pos.y cur.localOffset.y hoff.2.1
  have hz := local_bounds cur.pos.z cur.localOffset.z hoff.2.2
  exact ⟨haxis _ _ _ _ _ hx.1 hx.2 hmetres.1, haxis _ _ _ _ _ hy.1 hy.2 hmetres.2.1,
    haxis _ _ _ _ _ hz.1 hz.2 hmetres.2.2⟩

/-- The record of an entity over what the client holds, or over nothing, gives the
    client the entity's fields. -/
theorem fields_of_record (cur held : SnapshotEntity) (base : Option SnapshotEntity)
    (hbase : base = none ∨ base = some held) (hsec : (universeToSector cur.pos).All FitsInt32) :
    (overwrite held (makeDeltaRecord cur base).wire).fields = cur.fields := by
  rw [fields_overwrite_wire _ _ (makeDeltaRecord_pos cur base),
    merge_wire _ _ (makeDeltaRecord_tomb cur base) (fields_qpos_lt cur) (fun _ => hsec),
    makeDeltaRecord_toFields]
  rcases hbase with rfl | rfl
  · exact merge_full cur.fields held.fields
  · exact makeDeltaRecord_merge cur held

/-- A client applies the record of an entity over what it holds of it, or over
    nothing. It ends in the entity's sector, on each axis at most one step of the
    quantization away, and what it then holds differs from itself in nothing. -/
theorem reconstruction (snaps : List DeltaSnapshot) (cur : SnapshotEntity) (tick : Nat)
    (base : Option SnapshotEntity) (hoff : cur.localOffset.All fun o => 0 ≤ o ∧ o < 1)
    (hsec : (universeToSector cur.pos).All FitsInt32) (htick : tick < 2 ^ 32)
    (hbase : base = none ∨ base = (received snaps).entities.find? cur.netId)
    (hnew : (received snaps).stale tick cur.netId = false) :
    ∃ st e, (received snaps).apply (encodeDeltaSnapshot ⟨tick, [makeDeltaRecord cur base]⟩) =
        some st ∧ st.entities.find? cur.netId = some e ∧
      universeToSector e.pos = universeToSector cur.pos ∧
      (offAxis e cur).All (· ≤ (sectorSize : ℚ) / quantSteps) ∧
      (makeDeltaRecord e (some e)).mask = DeltaMask.none := by
  have hheld : ∃ held, ((received snaps).entities.find? cur.netId).getD
      SnapshotEntity.initial = held ∧ Reconstructed held ∧ (base = none ∨ base = some held) := by
    cases hb : (received snaps).entities.find? cur.netId with
    | none =>
        rw [hb] at hbase
        exact ⟨_, rfl, reconstructed_initial, Or.inl (hbase.elim id id)⟩
    | some b =>
        rw [hb] at hbase
        exact ⟨b, rfl, reconstructed_received snaps cur.netId b hb, hbase⟩
  rcases hheld with ⟨held, hget, hrec, hbase⟩
  have hfields := fields_of_record cur held base hbase hsec
  have he := reconstructed_overwrite held (makeDeltaRecord cur base).wire hrec
    (wire_qpos_lt _)
  have hwire : (⟨tick, [makeDeltaRecord cur base]⟩ : DeltaSnapshot).wire =
      ⟨tick, [(makeDeltaRecord cur base).wire]⟩ := by
    unfold DeltaSnapshot.wire
    rw [Nat.mod_eq_of_lt htick]
    rfl
  have hfresh : ¬ ((received snaps).slot cur.netId).stale tick = true := by
    have hsame : ((received snaps).slot cur.netId).stale tick =
        (received snaps).stale tick cur.netId := by
      unfold stale slot Slot.stale
      cases (received snaps).lastTick.find? cur.netId <;> rfl
    rw [hsame, hnew]
    exact Bool.false_ne_true
  have hfind : (((received snaps).applySnapshot
      ⟨tick, [(makeDeltaRecord cur base).wire]⟩).slot cur.netId).1 =
        some (overwrite held (makeDeltaRecord cur base).wire) := by
    have hid : (makeDeltaRecord cur base).wire.netId = cur.netId := by
      rw [DeltaRecord.wire_netId, makeDeltaRecord_netId]
    have ht : (makeDeltaRecord cur base).wire.mask.tomb = false := by
      rw [DeltaRecord.wire_mask, makeDeltaRecord_tomb]
    rw [slot_applySnapshot, List.find?_cons_of_pos (by simpa using hid), Option.elim_some,
      Slot.touch_fresh _ _ _ hfresh, ht, ← hget]
    rfl
  refine ⟨_, overwrite held (makeDeltaRecord cur base).wire, apply_encode _ _, ?_,
    congrArg Fields.sector hfields, offAxis_le _ cur he hfields hoff,
    (makeDeltaRecord_mask_none _ _).mpr rfl⟩
  rw [hwire]
  exact hfind

/-- An entity a hair below a sector's upper edges, in the lowest sector there is on
    one axis and the highest on another. -/
def edgeEntity : SnapshotEntity :=
  { netId := 7, kind := EntityKind.ship
    pos := ⟨-2147483648 * 16384 + 16383, 2147483647 * 16384 + 16383, -1⟩
    localOffset := ⟨999 / 1000, 1 / 3, 0⟩, hp := 100, shapeId := 3, ownerPlayer := 5 }

/-- What its client has heard: the same entity a metre off and in another sector. -/
def edgeStream : List DeltaSnapshot :=
  [⟨1, [makeDeltaRecord { edgeEntity with pos := ⟨-2147483648 * 16384 + 16382, 0, -1⟩ } none]⟩]

theorem reconstruction_edge :
    ∃ st e, (received edgeStream).apply (encodeDeltaSnapshot ⟨2, [makeDeltaRecord edgeEntity
          ((received edgeStream).entities.find? edgeEntity.netId)]⟩) = some st ∧
      st.entities.find? edgeEntity.netId = some e ∧
      universeToSector e.pos = universeToSector edgeEntity.pos ∧
      (offAxis e edgeEntity).All (· ≤ (sectorSize : ℚ) / quantSteps) ∧
      (makeDeltaRecord e (some e)).mask = DeltaMask.none :=
  reconstruction edgeStream edgeEntity 2 _
    ⟨by decide +kernel, by decide +kernel, by decide +kernel⟩
    ⟨by decide, by decide, by decide⟩ (by decide) (Or.inr rfl) (by decide +kernel)

end Sim

end EarthRise
