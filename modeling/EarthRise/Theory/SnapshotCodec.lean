import EarthRise.Theory.Snapshot
import EarthRise.Theory.Connection
import EarthRise.Core.ServerHost

/-!
# The Snapshot Codec, Exactly

A snapshot body is read back as the snapshot it was made of, and a truncated body
is not read at all.

A record whose sector and steps fit their fields, and that has nothing outside its
mask, loses nothing on the wire (`wire_of_canonical`). A truncated body keeps a
prefix of the bits, so its records are read as they were written until the first
one that is cut; there the reader runs out, and the failure stays (`Takes`).

The writer opens a byte only for a bit that goes into it. Cutting even one byte
therefore cuts a bit that was written, and the length is the bits rounded up.

What a budgeted snapshot holds, how long its body is, and how long the datagram is
that carries it.

The budget counts bits where the encoder writes bytes, and both count the same: a
body is exactly as long as the bits of its header and its records, rounded up. So
a snapshot built within a budget is encoded within it, and each record with
something in it is either kept or spilled, in the order they came.

A sealed datagram adds the kind byte, the clear header, the message's four bytes
of framing and the tag of the encryption. The host's budget leaves room for the
header and the tag in the safe payload; the rest still fits a datagram.

## Main definitions

* `DeltaRecord.Canonical`: A record that the wire can hold.
* `DeltaRecord.bits`: What a record puts on the wire.
* `DeltaSnapshot.bits`: What a snapshot does.

## Theorems

* `length_encode`: The length of a body.
* `decode_take`: A truncated body is rejected.
* `decode_encode_canonical`: The round trip, and what a truncation does.
* `length_sealApp`: The length of a sealed datagram.
* `budgeted_exact`: What the budget keeps, how long it is, and that it can be sent.
-/

namespace EarthRise

namespace Sim

open Universe Serde Bits

/-! ## What the wire can hold -/

/-- A record whose fields fit the wire and that has nothing but defaults outside
    its mask; a tombstone has its net id and its mask only. -/
structure DeltaRecord.Canonical (r : DeltaRecord) : Prop where
  sectorFits : r.sector.All FitsInt32
  qposFits : r.qpos.All (· < quantSteps)
  sector : r.mask.tomb = true ∨ r.mask.sector = false → r.sector = DeltaRecord.initial.sector
  qpos : r.mask.tomb = true ∨ r.mask.pos = false → r.qpos = DeltaRecord.initial.qpos
  hp : r.mask.tomb = true ∨ r.mask.hp = false → r.hp = DeltaRecord.initial.hp
  shapeId : r.mask.tomb = true ∨ r.mask.shape = false → r.shapeId = DeltaRecord.initial.shapeId
  ownerPlayer : r.mask.tomb = true ∨ r.mask.owner = false →
    r.ownerPlayer = DeltaRecord.initial.ownerPlayer
  kind : r.mask.tomb = true ∨ r.mask.kind = false → r.kind = DeltaRecord.initial.kind

theorem map_wrap32 (v : SectorId) (h : v.All FitsInt32) : v.map wrap32 = v := by
  unfold Vec3.map
  rw [wrap32_eq_self _ h.1, wrap32_eq_self _ h.2.1, wrap32_eq_self _ h.2.2]

theorem map_mod_steps (v : Vec3 Nat) (h : v.All (· < quantSteps)) :
    v.map (· % 2 ^ posQuantBitsPerAxis) = v := by
  have hlt : ∀ n, n < quantSteps → n % 2 ^ posQuantBitsPerAxis = n :=
    fun n hn => Nat.mod_eq_of_lt hn
  unfold Vec3.map
  simp only [hlt _ h.1, hlt _ h.2.1, hlt _ h.2.2]

/-- Such a record comes out of the codec as it went in. -/
theorem DeltaRecord.wire_of_canonical (r : DeltaRecord) (h : r.Canonical) : r.wire = r := by
  have hkeep : ∀ {α : Type} (c : Bool) (a d : α), (c = false → a = d) →
      (if c = true then a else d) = a := by
    intro α c a d hd
    cases c with
    | true => rfl
    | false => exact (hd rfl).symm
  unfold DeltaRecord.wire
  by_cases ht : r.mask.tomb = true
  · have hfields : r.toFields = DeltaRecord.initial.toFields := by
      calc r.toFields
          = ⟨r.sector, r.qpos, r.hp, r.shapeId, r.ownerPlayer, r.kind⟩ := rfl
        _ = DeltaRecord.initial.toFields := by
          rw [h.sector (Or.inl ht), h.qpos (Or.inl ht), h.hp (Or.inl ht),
            h.shapeId (Or.inl ht), h.ownerPlayer (Or.inl ht), h.kind (Or.inl ht)]
    simp only [ht, if_true]
    rw [← hfields]
  · simp only [ht, if_false, Bool.false_eq_true]
    rw [map_wrap32 _ h.sectorFits, map_mod_steps _ h.qposFits,
      hkeep _ _ _ fun hc => h.sector (Or.inr hc), hkeep _ _ _ fun hc => h.qpos (Or.inr hc),
      hkeep _ _ _ fun hc => h.hp (Or.inr hc), hkeep _ _ _ fun hc => h.shapeId (Or.inr hc),
      hkeep _ _ _ fun hc => h.ownerPlayer (Or.inr hc), hkeep _ _ _ fun hc => h.kind (Or.inr hc)]

theorem DeltaSnapshot.wire_of_canonical (snap : DeltaSnapshot) (htick : snap.tick < 2 ^ 32)
    (hlen : snap.records.length ≤ 65535) (h : ∀ r ∈ snap.records, r.Canonical) :
    snap.wire = snap := by
  have hmap : snap.records.map DeltaRecord.wire = snap.records := by
    conv_rhs => rw [← List.map_id snap.records]
    exact List.map_congr_left fun r hr => r.wire_of_canonical (h r hr)
  unfold DeltaSnapshot.wire
  rw [Nat.mod_eq_of_lt htick, Nat.mod_eq_of_lt (by omega), List.take_length, hmap]

/-! ## The bits of a record -/

/-- What a record puts on the wire. -/
def DeltaRecord.bits (r : DeltaRecord) : List Bool := (writeDeltaRecord BitWriter.fresh r).bits

theorem DeltaRecord.appends_bits (r : DeltaRecord) :
    Appends (fun w => writeDeltaRecord w r) r.bits := by
  rcases record_carried r with ⟨bs, happ, _⟩
  have hbs : r.bits = bs := Appends.eq_bits happ
  rw [hbs]
  exact happ

theorem DeltaRecord.accepts_bits (r : DeltaRecord) : Accepts readDeltaRecord r.bits r.wire := by
  rcases record_carried r with ⟨bs, happ, hacc⟩
  have hbs : r.bits = bs := Appends.eq_bits happ
  rw [hbs]
  exact hacc

theorem DeltaRecord.length_bits (r : DeltaRecord) : r.bits.length = deltaRecordBits r := by
  rcases sized_record r with ⟨bs, happ, hlen⟩
  have hbs : r.bits = bs := Appends.eq_bits happ
  rw [hbs]
  exact hlen

/-- A record's bits start with its net id and its mask. -/
theorem DeltaRecord.bits_header (r : DeltaRecord) :
    ∃ body, r.bits = bitsOf 32 r.netId.val ++ (bitsOf 8 r.mask.byte ++ body) := by
  rcases sized_body r with ⟨body, happ, _⟩
  have hall := ((appends_write 32 r.netId.val).comp (appends_write 8 r.mask.byte)).comp happ
  refine ⟨body, ?_⟩
  rw [← List.append_assoc]
  exact Appends.eq_bits hall

/-! ## Truncated records -/

variable {α : Type}

theorem takes_if {f : ReadBuffer → α × ReadBuffer} {k : Nat} (c : Bool) (dflt : α)
    (h : Takes f k) : Takes (readIf c dflt f) (if c = true then k else 0) := by
  cases c with
  | true => exact h
  | false =>
      exact ⟨fun _ hrb => hrb, fun _ bs _ hlt => absurd hlt (Nat.not_lt_zero _),
        fun _ bs hrb _ => hrb⟩

theorem takes_vec {f : ReadBuffer → α × ReadBuffer} {k : Nat} (h : Takes f k) :
    Takes (readVec f) (3 * k) := by
  have hall := h.comp (h.comp h Prod.mk) fun x yz => (⟨x, yz.1, yz.2⟩ : Vec3 α)
  rwa [show k + (k + k) = 3 * k by omega] at hall

/-- A buffer that is short of a record's header has no record. -/
theorem readDeltaRecord_header (rb : ReadBuffer) (h : Lacks rb 40) :
    readDeltaRecord rb = none := by
  have h1 : Lacks (rb.readBits 32).2 8 := (takes_field 32 id).lacks (l := 8) h
  have h2 : Lacks ((rb.readBits 32).2.readBits 8).2 0 := (takes_field 8 id).lacks (l := 0) h1
  unfold readDeltaRecord
  simp only [h2.bad, Bool.not_false, if_true]

/-- A buffer that has a record's header and is short of the rest has no record. -/
theorem readDeltaRecord_body (r : DeltaRecord) (rb : ReadBuffer) (tail : List Bool)
    (h : rb.Reads (bitsOf 32 r.netId.val ++ (bitsOf 8 r.mask.byte ++ tail)))
    (hlt : 40 + tail.length < deltaRecordBits r) : readDeltaRecord rb = none := by
  rcases (parses_readBits 32 r.netId.val).eq rb _ h with ⟨rb0, hn, h0⟩
  rcases (parses_readBits 8 r.mask.byte).eq rb0 _ h0 with ⟨rb1, hm, h1⟩
  by_cases ht : r.mask.tomb = true
  · unfold deltaRecordBits at hlt
    rw [if_pos ht] at hlt
    omega
  · -- What is missing is still missing after each field.
    have hlack : Lacks rb1 ((if r.mask.sector = true then 3 * 32 else 0) +
        ((if r.mask.pos = true then 3 * posQuantBitsPerAxis else 0) +
          ((if r.mask.hp = true then 32 else 0) + ((if r.mask.shape = true then 16 else 0) +
            ((if r.mask.owner = true then 32 else 0) +
              ((if r.mask.kind = true then 8 else 0) + 0)))))) := by
      refine Or.inr ⟨tail, h1, ?_⟩
      unfold deltaRecordBits at hlt
      rw [if_neg ht] at hlt
      omega
    have l1 := (takes_if r.mask.sector (⟨0, 0, 0⟩ : Vec3 Int)
      (takes_vec (takes_field 32 fun n => (unZigZag32 (BitVec.ofNat 32 n)).toInt))).lacks hlack
    have l2 := (takes_if r.mask.pos (⟨0, 0, 0⟩ : Vec3 Nat)
      (takes_vec (takes_field posQuantBitsPerAxis id))).lacks l1
    have l3 := (takes_if r.mask.hp (0 : Int32)
      (takes_field 32 fun n => (UInt32.ofNat n).toInt32)).lacks l2
    have l4 := (takes_if r.mask.shape (0xFFFF : UInt16) (takes_field 16 UInt16.ofNat)).lacks l3
    have l5 := (takes_if r.mask.owner (0 : NetId)
      (takes_field 32 (Fin.ofNat 4294967296))).lacks l4
    have l6 := (takes_if r.mask.kind (⟨0⟩ : EntityKind)
      (takes_field 8 fun n => (⟨UInt8.ofNat n⟩ : EntityKind))).lacks l5
    have hbad := l6.bad
    unfold readDeltaRecord
    simp only [hn, hm, DeltaMask.ofByte_byte, h1.isGood, ht, Bool.not_true, Bool.false_eq_true,
      if_false, DeltaRecord.initial]
    refine if_neg ?_
    rw [Bool.not_eq_true]
    exact hbad

/-- A strict prefix of a record's bits holds no record. -/
theorem record_truncated (r : DeltaRecord) (rb : ReadBuffer) (p : List Bool) (hrb : rb.Reads p)
    (hp : p <+: r.bits) (hlt : p.length < r.bits.length) : readDeltaRecord rb = none := by
  by_cases hhead : p.length < 40
  · exact readDeltaRecord_header rb (Or.inr ⟨p, hrb, hhead⟩)
  · rcases r.bits_header with ⟨body, hbits⟩
    rcases hp with ⟨q, hq⟩
    have hsplit : p = (bitsOf 32 r.netId.val ++ bitsOf 8 r.mask.byte) ++ p.drop 40 := by
      have htake := congrArg (List.take 40) hq
      rw [List.take_append_of_le_length (by omega), hbits, ← List.append_assoc,
        List.take_left' (by rw [List.length_append, length_bitsOf, length_bitsOf])] at htake
      rw [← htake, List.take_append_drop]
    rw [hsplit, List.append_assoc] at hrb
    refine readDeltaRecord_body r rb _ hrb ?_
    rw [← r.length_bits, List.length_drop]
    omega

/-- The bits of a list of records. -/
def recordsBits (rs : List DeltaRecord) : List Bool := rs.flatMap DeltaRecord.bits

theorem appends_records (rs : List DeltaRecord) :
    Appends (fun w => rs.foldl writeDeltaRecord w) (recordsBits rs) := by
  induction rs with
  | nil => exact appends_id
  | cons r rs ih => exact r.appends_bits.comp ih

theorem length_recordsBits (rs : List DeltaRecord) :
    (recordsBits rs).length = (rs.map deltaRecordBits).sum := by
  induction rs with
  | nil => rfl
  | cons r rs ih =>
      rw [List.map_cons, List.sum_cons, ← ih, ← r.length_bits]
      exact List.length_append

/-- The records before the cut are read, and the one that is cut is not. -/
theorem records_truncated (rs : List DeltaRecord) (rb : ReadBuffer) (p : List Bool)
    (hrb : rb.Reads p) (hp : p <+: recordsBits rs) (hlt : p.length < (recordsBits rs).length) :
    readRecords rs.length rb = none := by
  induction rs generalizing rb p with
  | nil => exact absurd hlt (Nat.not_lt_zero _)
  | cons r rs ih =>
      have hcons : recordsBits (r :: rs) = r.bits ++ recordsBits rs := rfl
      rw [List.length_cons]
      unfold readRecords
      rw [hcons] at hp hlt
      have hhead := List.prefix_append r.bits (recordsBits rs)
      by_cases hle : r.bits.length ≤ p.length
      · rcases List.prefix_of_prefix_length_le hhead hp hle with ⟨q, rfl⟩
        rcases r.accepts_bits rb q hrb with ⟨rb', hr, hrb'⟩
        rw [List.length_append, List.length_append] at hlt
        have hrest := ih rb' q hrb' ((List.prefix_append_right_inj r.bits).mp hp) (by omega)
        simp only [hr, hrest]
      · have hcut := List.prefix_of_prefix_length_le hp hhead (by omega)
        simp only [record_truncated r rb p hrb hcut (by omega)]

theorem readDeltaRecord_failed (rb : ReadBuffer) (h : rb.reader.error = true) :
    readDeltaRecord rb = none := readDeltaRecord_header rb (Or.inl h)

/-- A failed buffer yields no records, and stays failed. -/
theorem readRecords_failed (n : Nat) (rb : ReadBuffer) (h : rb.reader.error = true) :
    readRecords n rb = none ∨ readRecords n rb = some ([], rb) := by
  cases n with
  | zero => exact Or.inr rfl
  | succ n =>
      unfold readRecords
      simp only [readDeltaRecord_failed rb h]
      exact Or.inl trivial

/-! ## The length of a body -/

open Serde.BitWriter

theorem tight_writeIf (c : Bool) (f : BitWriter → BitWriter) (w : BitWriter)
    (hf : ∀ w : BitWriter, w.Tight → (f w).Tight) (hw : w.Tight) : (writeIf c f w).Tight := by
  cases c with
  | true => exact hf w hw
  | false => exact hw

theorem tight_writeVec (f : α → BitWriter → BitWriter) (v : Vec3 α) (w : BitWriter)
    (hf : ∀ a (w : BitWriter), w.Tight → (f a w).Tight) (hw : w.Tight) :
    (writeVec f v w).Tight := hf _ _ (hf _ _ (hf _ _ hw))

theorem tight_writeDeltaRecord (w : BitWriter) (r : DeltaRecord) (hw : w.Tight) :
    (writeDeltaRecord w r).Tight := by
  have hhead := tight_write _ r.mask.byte 8 (tight_write w r.netId.val 32 hw)
  rw [writeDeltaRecord_eq]
  unfold writeBody
  cases r.mask.tomb with
  | true => exact hhead
  | false =>
      have h1 := tight_writeIf r.mask.sector _ _
        (fun w hw => tight_writeVec writeSectorCoord r.sector w
          (fun _ w hw => tight_write w _ 32 hw) hw) hhead
      have h2 := tight_writeIf r.mask.pos _ _
        (fun w hw => tight_writeVec (fun q w => w.write q posQuantBitsPerAxis) r.qpos w
          (fun q w hw => tight_write w q posQuantBitsPerAxis hw) hw) h1
      have h3 := tight_writeIf r.mask.hp _ _
        (fun w hw => tight_write w r.hp.toUInt32.toNat 32 hw) h2
      have h4 := tight_writeIf r.mask.shape _ _
        (fun w hw => tight_write w r.shapeId.toNat 16 hw) h3
      have h5 := tight_writeIf r.mask.owner _ _
        (fun w hw => tight_write w r.ownerPlayer.val 32 hw) h4
      exact tight_writeIf r.mask.kind _ _ (fun w hw => tight_write w r.kind.code.toNat 8 hw) h5

theorem tight_records (rs : List DeltaRecord) (w : BitWriter) (hw : w.Tight) :
    (rs.foldl writeDeltaRecord w).Tight := by
  induction rs generalizing w with
  | nil => exact hw
  | cons r rs ih => exact ih _ (tight_writeDeltaRecord w r hw)

/-- What a snapshot puts on the wire. -/
def DeltaSnapshot.bits (snap : DeltaSnapshot) : List Bool :=
  bitsOf 32 protocolVersion ++ (bitsOf 32 snap.tick ++
    (bitsOf 16 snap.records.length ++ recordsBits snap.records))

/-- A body is its snapshot's bits and zeros up to the end of the last byte. -/
theorem encode_bits (snap : DeltaSnapshot) :
    (∃ pad, byteBits (encodeDeltaSnapshot snap) = snap.bits ++ pad) ∧
      (encodeDeltaSnapshot snap).length = (snap.bits.length + 7) / 8 := by
  rcases WriteBuffer.fresh_spec with ⟨hfill, hbits⟩
  have hall := ((appends_write 32 snap.tick).comp (appends_write 16 snap.records.length)).comp
    (appends_records snap.records)
  rcases hall WriteBuffer.fresh hfill with ⟨hfill', hw⟩
  rw [hbits] at hw
  have hsnap : bitsOf 32 protocolVersion ++
      (bitsOf 32 snap.tick ++ bitsOf 16 snap.records.length ++ recordsBits snap.records) =
        snap.bits := by
    unfold DeltaSnapshot.bits
    rw [List.append_assoc]
  rw [hsnap] at hw
  have htight : (snap.records.foldl writeDeltaRecord
      ((WriteBuffer.fresh.write snap.tick 32).write snap.records.length 16)).Tight :=
    tight_records _ _ (tight_write _ _ 16 (tight_write _ _ 32
      (tight_write BitWriter.fresh protocolVersion 32 (by unfold Tight BitWriter.fresh; decide))))
  rw [← hw]
  exact ⟨byteBits_buf (snap.records.foldl writeDeltaRecord
    ((WriteBuffer.fresh.write snap.tick 32).write snap.records.length 16)),
    length_buf _ hfill' htight⟩

theorem DeltaSnapshot.length_bits (snap : DeltaSnapshot) :
    snap.bits.length = deltaHeaderBits + (snap.records.map deltaRecordBits).sum := by
  unfold DeltaSnapshot.bits deltaHeaderBits
  rw [List.length_append, List.length_append, List.length_append, length_bitsOf, length_bitsOf,
    length_bitsOf, length_recordsBits]
  omega

/-- A body is as long as the bits that the budget counts. -/
theorem length_encode (snap : DeltaSnapshot) :
    (encodeDeltaSnapshot snap).length =
      (deltaHeaderBits + (snap.records.map deltaRecordBits).sum + 7) / 8 := by
  rw [(encode_bits snap).2, snap.length_bits]

/-! ## Truncated bodies -/

/-- Fewer bits than the version takes. -/
theorem ofBytes_short (body : List UInt8) (h : (byteBits body).length < 32) :
    (ReadBuffer.ofBytes body).isGood = false := by
  have herror := BitReader.read_starved (BitReader.ofBytes body) 32 _
    (BitReader.reads_ofBytes body) h
  unfold ReadBuffer.isGood ReadBuffer.ofBytes
  simp only [herror, Bool.not_true, Bool.false_and]

/-- A body whose bits are a strict prefix of a snapshot's is rejected. -/
theorem decode_prefix (snap : DeltaSnapshot) (hlen : snap.records.length ≤ 65535)
    (body : List UInt8) (hp : byteBits body <+: snap.bits)
    (hlt : (byteBits body).length < snap.bits.length) : decodeDeltaSnapshot body = none := by
  generalize hbody : byteBits body = p at hp hlt
  unfold decodeDeltaSnapshot
  by_cases hversion : p.length < 32
  · rw [← hbody] at hversion
    simp only [ofBytes_short body hversion, Bool.not_false, if_true]
  unfold DeltaSnapshot.bits at hp hlt
  rcases List.prefix_of_prefix_length_le (List.prefix_append _ _) hp
    (by rw [length_bitsOf]; omega) with ⟨p', rfl⟩
  have hrb := ReadBuffer.reads_ofBytes body p' hbody
  have hgood := hrb.isGood
  have hp' := (List.prefix_append_right_inj _).mp hp
  rw [List.length_append, List.length_append] at hlt
  by_cases hhead : p'.length < 48
  · -- The tick or the count is cut: the buffer has failed before the records.
    have h1 : Lacks ((ReadBuffer.ofBytes body).readBits 32).2 16 :=
      (takes_field 32 id).lacks (Or.inr ⟨p', hrb, hhead⟩ : Lacks _ (32 + 16))
    have h2 : Lacks (((ReadBuffer.ofBytes body).readBits 32).2.readBits 16).2 0 :=
      (takes_field 16 id).lacks (l := 0) h1
    simp only [hgood, Bool.not_true, Bool.false_eq_true, if_false]
    rcases readRecords_failed (((ReadBuffer.ofBytes body).readBits 32).2.readBits 16).1 _
      h2.failed with hnone | hnil
    · simp only [hnone]
    · simp only [hnil, h2.bad, Bool.false_eq_true, if_false]
  · rcases List.prefix_of_prefix_length_le (List.prefix_append _ _) hp'
      (by rw [length_bitsOf]; omega) with ⟨q, rfl⟩
    have hq := (List.prefix_append_right_inj _).mp hp'
    rw [List.length_append, length_bitsOf] at hhead
    rcases List.prefix_of_prefix_length_le (List.prefix_append _ _) hq
      (by rw [length_bitsOf]; omega) with ⟨q', rfl⟩
    have hq' := (List.prefix_append_right_inj _).mp hq
    rcases (parses_readBits 32 snap.tick).eq _ _ hrb with ⟨rb1, htick, h1⟩
    rcases (parses_readBits 16 snap.records.length).eq _ _ h1 with ⟨rb2, hcount, h2⟩
    rw [Nat.mod_eq_of_lt (by omega)] at hcount
    simp only [List.length_append] at hlt
    have hnone := records_truncated snap.records rb2 q' h2 hq' (by omega)
    simp only [hgood, Bool.not_true, Bool.false_eq_true, if_false, htick, hcount, hnone]

/-- A body that lost its last bytes is rejected. -/
theorem decode_take (snap : DeltaSnapshot) (hlen : snap.records.length ≤ 65535) (k : Nat)
    (hk : k < (encodeDeltaSnapshot snap).length) :
    decodeDeltaSnapshot ((encodeDeltaSnapshot snap).take k) = none := by
  rcases encode_bits snap with ⟨⟨pad, hpad⟩, hlength⟩
  have hbits : (byteBits ((encodeDeltaSnapshot snap).take k)).length = 8 * k := by
    rw [length_byteBits, List.length_take]
    omega
  have hcut : byteBits ((encodeDeltaSnapshot snap).take k) <+: snap.bits ++ pad := by
    refine ⟨byteBits ((encodeDeltaSnapshot snap).drop k), ?_⟩
    rw [← byteBits_append, List.take_append_drop, hpad]
  refine decode_prefix snap hlen _ ?_ (by omega)
  exact List.prefix_of_prefix_length_le hcut (List.prefix_append _ _) (by omega)

/-- A snapshot that the wire can hold is read back as it was, whatever the masks of
    its records; and none of its bytes can be missing at the end. -/
theorem decode_encode_canonical (snap : DeltaSnapshot) (htick : snap.tick < 2 ^ 32)
    (hlen : snap.records.length ≤ 65535) (h : ∀ r ∈ snap.records, r.Canonical) :
    decodeDeltaSnapshot (encodeDeltaSnapshot snap) = some snap ∧
      ∀ k, k < (encodeDeltaSnapshot snap).length →
        decodeDeltaSnapshot ((encodeDeltaSnapshot snap).take k) = none := by
  refine ⟨?_, decode_take snap hlen⟩
  rw [decode_encode, snap.wire_of_canonical htick hlen h]

/-- A crossing at the ends of the sector range, an eviction, and a change of hull
    and kind under the flag that stands for nothing. -/
def sampleSnapshot : DeltaSnapshot :=
  { tick := 4294967295
    records :=
      [{ netId := 7, mask := ⟨true, true, false, false, false, false, false, false⟩
         sector := ⟨-2147483648, 2147483647, -1⟩, qpos := ⟨1048575, 0, 7⟩, hp := 0
         shapeId := 0xFFFF, ownerPlayer := 0, kind := ⟨0⟩ },
       tombstoneRecord 4294967295,
       { netId := 9, mask := ⟨false, false, true, false, false, true, true, false⟩
         sector := ⟨0, 0, 0⟩, qpos := ⟨0, 0, 0⟩, hp := -2147483648
         shapeId := 0xFFFF, ownerPlayer := 0, kind := ⟨255⟩ }] }

theorem decode_encode_canonical_sample :
    decodeDeltaSnapshot (encodeDeltaSnapshot sampleSnapshot) = some sampleSnapshot ∧
      ∀ k, k < (encodeDeltaSnapshot sampleSnapshot).length →
        decodeDeltaSnapshot ((encodeDeltaSnapshot sampleSnapshot).take k) = none := by
  refine decode_encode_canonical sampleSnapshot (by decide) (by decide) fun r hr => ?_
  have hcases : r = sampleSnapshot.records[0] ∨ r = sampleSnapshot.records[1] ∨
      r = sampleSnapshot.records[2] := by
    simpa [sampleSnapshot] using hr
  rcases hcases with rfl | rfl | rfl
  · exact ⟨⟨by decide, by decide, by decide⟩, ⟨by decide, by decide, by decide⟩, by decide,
      by decide, by decide, by decide, by decide, by decide⟩
  · exact ⟨⟨by decide, by decide, by decide⟩, ⟨by decide, by decide, by decide⟩, by decide,
      by decide, by decide, by decide, by decide, by decide⟩
  · exact ⟨⟨by decide, by decide, by decide⟩, ⟨by decide, by decide, by decide⟩, by decide,
      by decide, by decide, by decide, by decide, by decide⟩

end Sim

namespace Net

variable {Key : Type} (C : CryptoProvider Key)

/-- The encryption puts a tag of sixteen bytes beside the text. -/
def ICrypto.Tagged {Key : Type} (C : ICrypto Key) : Prop :=
  ∀ k d n aad plain cipher, C.encrypt k d n aad plain = some cipher →
    cipher.length = plain.length + 16

theorem length_writeMessage (ch : Channel) (type : MsgType) (body : Bytes) :
    (writeMessage ch type body).length = body.length + 4 := by
  unfold writeMessage Framing.writeMessage putU16
  simp only [List.length_append, List.length_cons, List.length_nil, length_putLE]
  omega

/-- A sealed datagram is its message and forty-one bytes. -/
theorem length_sealApp (hC : C.toICrypto.Tagged) (c c' : ServerConnection Key) (ch : Channel)
    (type : MsgType) (body d : Bytes) (h : c.sealApp C ch type body = some (d, c')) :
    d.length = body.length + 41 := by
  unfold ServerConnection.sealApp at h
  cases hchan : c.channel with
  | none =>
      rw [hchan] at h
      exact absurd h nofun
  | some channel =>
      rw [hchan] at h
      simp only [sealMessage, Option.map_map, Option.map_eq_some_iff] at h
      rcases h with ⟨r, hr, heq⟩
      unfold SecureChannel.sealDatagram at hr
      by_cases hkeys : channel.hasKeys = false
      · rw [if_pos hkeys] at hr
        exact absurd hr nofun
      · rw [if_neg hkeys] at hr
        simp only at hr
        cases henc : C.encrypt channel.sendKey channel.sendDir channel.sendCounter
            (writePacketHeader ⟨protocolId, channel.token, channel.sendCounter⟩)
            (writeMessage ch type body) with
        | none =>
            rw [henc] at hr
            exact absurd hr nofun
        | some ct =>
            rw [henc] at hr
            simp only [Option.some.injEq] at hr
            have hd : d = kindEncrypted ::
                (writePacketHeader ⟨protocolId, channel.token, channel.sendCounter⟩ ++ ct) := by
              have := congrArg Prod.fst heq
              simp only [Function.comp_apply, ← hr] at this
              exact this.symm
            have hct := hC _ _ _ _ _ _ henc
            rw [length_writeMessage] at hct
            rw [hd, List.length_cons, List.length_append, length_writePacketHeader, hct]
            unfold wireSize
            omega

end Net

namespace Sim

open Net

/-- A body of a budgeted snapshot fits the budget, and what is kept and what spills
    are all the records with something in them. -/
theorem length_budgeted (tick : Nat) (ordered : List DeltaRecord) (byteBudget : Nat)
    (h : 10 ≤ byteBudget) :
    (encodeDeltaSnapshot (buildBudgetedSnapshot tick ordered byteBudget).1).length ≤
      byteBudget := by
  have hrec : (buildBudgetedSnapshot tick ordered byteBudget).1.records =
      (takeWhileFits byteBudget deltaHeaderBits ordered).1 := rfl
  rw [length_encode, hrec]
  rcases takeWhileFits_fits byteBudget deltaHeaderBits ordered with hnil | hle
  · rw [hnil, List.map_nil, List.sum_nil]
    unfold deltaHeaderBits
    omega
  · omega

/-- The body of a budgeted snapshot is as long as its bits need, within the budget;
    what is kept and then what spills are the records with something in them, in
    their order; and under the host's budget the sealed body fits a datagram. -/
theorem budgeted_exact (tick : Nat) (ordered : List DeltaRecord) (byteBudget : Nat)
    (h : 10 ≤ byteBudget) :
    ((encodeDeltaSnapshot (buildBudgetedSnapshot tick ordered byteBudget).1).length =
        (80 + ((buildBudgetedSnapshot tick ordered byteBudget).1.records.map
          deltaRecordBits).sum + 7) / 8 ∧
      (encodeDeltaSnapshot (buildBudgetedSnapshot tick ordered byteBudget).1).length ≤
        byteBudget) ∧
    (∃ spilled, ordered.filter (fun r => r.mask ≠ DeltaMask.none) =
        (buildBudgetedSnapshot tick ordered byteBudget).1.records ++ spilled ∧
      (buildBudgetedSnapshot tick ordered byteBudget).2 = spilled.map DeltaRecord.netId) ∧
    ∀ {Key : Type} (C : CryptoProvider Key), C.toICrypto.Tagged →
      ∀ (c c' : ServerConnection Key) (d : Bytes),
        c.sealApp C .unreliable .snapshot
          (encodeDeltaSnapshot (buildBudgetedSnapshot tick ordered snapshotByteBudget).1) =
            some (d, c') → d.length ≤ maxDatagramBytes := by
  refine ⟨⟨length_encode _, length_budgeted tick ordered byteBudget h⟩,
    takeWhileFits_spec byteBudget deltaHeaderBits ordered, ?_⟩
  intro Key C hC c c' d hseal
  have hlen := length_sealApp C hC c c' _ _ _ d hseal
  have hbudget : snapshotByteBudget = 1164 := rfl
  have hbody := length_budgeted tick ordered snapshotByteBudget (by omega)
  unfold maxDatagramBytes
  omega

/-- A provider with a tag of sixteen bytes behind the masked text. -/
def taggedProvider : CryptoProvider UInt8 :=
  { sampleProvider with
    encrypt := fun k dir n aad plain =>
      some (plain.map (· ^^^ k) ++
        List.replicate 16 (SecureChannel.checksum k dir n aad plain))
    decrypt := fun k dir n aad cipher =>
      let plain := (cipher.take (cipher.length - 16)).map (· ^^^ k)
      if cipher.drop (cipher.length - 16) =
          List.replicate 16 (SecureChannel.checksum k dir n aad plain) then some plain
      else none }

theorem taggedProvider_tagged : taggedProvider.toICrypto.Tagged := by
  intro k d n aad plain cipher henc
  simp only [taggedProvider, Option.some.injEq] at henc
  rw [← henc, List.length_append, List.length_map, List.length_replicate]

/-- A connection whose channel has its keys. -/
def keyedConnection : ServerConnection UInt8 :=
  { ServerConnection.start [] 7 0 with channel := some SecureChannel.server }

/-- An eviction, a record with nothing in it, and a first sight. -/
def sampleRecords : List DeltaRecord :=
  [tombstoneRecord 3, { tombstoneRecord 4 with mask := DeltaMask.none },
    makeDeltaRecord SnapshotEntity.initial none]

theorem budgeted_exact_sample :
    (∃ spilled, sampleRecords.filter (fun r => r.mask ≠ DeltaMask.none) =
        (buildBudgetedSnapshot 1 sampleRecords snapshotByteBudget).1.records ++ spilled ∧
      (buildBudgetedSnapshot 1 sampleRecords snapshotByteBudget).2 =
        spilled.map DeltaRecord.netId) ∧
    ∃ d c', keyedConnection.sealApp taggedProvider .unreliable .snapshot
        (encodeDeltaSnapshot (buildBudgetedSnapshot 1 sampleRecords snapshotByteBudget).1) =
          some (d, c') ∧ d.length ≤ maxDatagramBytes := by
  have h := budgeted_exact 1 sampleRecords snapshotByteBudget (by decide)
  exact ⟨h.2.1, _, _, rfl, h.2.2 taggedProvider taggedProvider_tagged keyedConnection _ _ rfl⟩

end Sim

end EarthRise
