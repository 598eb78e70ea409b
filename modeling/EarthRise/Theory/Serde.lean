import EarthRise.Core.Serde
import EarthRise.Theory.BitStream
import Mathlib.Tactic.Ring

/-!
# Formats of Whole Bytes

The versioned buffer as a medium for codecs, for formats all of whose fields are whole bytes.

Between such fields the writer has no byte under way and the reader has taken up none, so
what a buffer holds is a list of bytes, and starting at the border of a byte changes
nothing. Every field satisfies both laws, and so do the formats that are made of them. What
a format writes behind the version header is read back, and every shorter piece of it, a
piece of the header included, is turned down.

A command is read back as it was written, and every shorter piece of its bytes is turned
down, though the reader asks only at the end whether all its reads were good.

The proofs follow the fields of the two functions, in their order.

## Main definitions

* `beBytes`, `beNat`: The bytes of a number, the highest first.
* `buffer`: The medium.

## Theorems

* `codes_writeUint8` and so on, `codes_writeBytes`: Fields are read back.
* `local_readUint8` and so on, `local_readBytes`: Fields depend on what they take.
* `decode_encode`: A format is read back.
* `decode_cut`: A buffer that is cut short.
* `codes_writeFleetCommand`, `local_readFleetCommand`: The format.
* `fleetCommand_read_back`: Both ends together.
-/

namespace EarthRise

namespace Serde

open Codec
open Universe (Vec3)

/-! ## Bytes of a number -/

/-- The `k` low bytes of a number, the highest first. -/
def beBytes : Nat → Nat → List UInt8
  | 0, _ => []
  | k + 1, v => UInt8.ofNat (v >>> (8 * k)) :: beBytes k v

/-- The number of bytes, the highest first. -/
def beNat (bs : List UInt8) : Nat := bs.foldl (fun n b => n * 256 + b.toNat) 0

theorem length_beBytes (k v : Nat) : (beBytes k v).length = k := by
  induction k with
  | zero => rfl
  | succ k ih => rw [beBytes, List.length_cons, ih]

theorem foldl_beBytes (k v n : Nat) :
    (beBytes k v).foldl (fun n b => n * 256 + b.toNat) n = n * 256 ^ k + v % 256 ^ k := by
  induction k generalizing n with
  | zero => simp [beBytes, Nat.mod_one]
  | succ k ih =>
      have hbyte : (UInt8.ofNat (v >>> (8 * k))).toNat = v / 256 ^ k % 256 := by
        rw [UInt8.toNat_ofNat', Nat.shiftRight_eq_div_pow, Nat.pow_mul]
      rw [beBytes, List.foldl_cons, ih, hbyte, Nat.mod_pow_succ]
      ring

theorem beNat_beBytes (k v : Nat) (h : v < 256 ^ k) : beNat (beBytes k v) = v := by
  unfold beNat
  rw [foldl_beBytes, Nat.zero_mul, Nat.zero_add, Nat.mod_eq_of_lt h]

/-! ## Whole bytes through the loops -/

/-- A writer without a byte under way takes the bytes of a number as they are. -/
theorem writeLoop_bytes (k : Nat) : ∀ (fuel : Nat) (buf : List UInt8) (v : Nat), k ≤ fuel →
    BitWriter.writeLoop fuel ⟨buf, 0⟩ v (8 * k) = ⟨buf ++ beBytes k v, 0⟩ := by
  induction k with
  | zero =>
      intro fuel buf v _
      rw [beBytes, List.append_nil]
      cases fuel with
      | zero => rfl
      | succ fuel => exact if_pos rfl
  | succ k ih =>
      intro fuel buf v hfuel
      cases fuel with
      | zero => exact absurd hfuel (Nat.not_succ_le_zero k)
      | succ fuel =>
          have hchunk : BitWriter.writeChunk ⟨buf, 0⟩ v (8 * (k + 1)) =
              (⟨buf ++ [UInt8.ofNat (v >>> (8 * k))], 0⟩, 8 * k) := by
            have hmin : min (8 * (k + 1)) 8 = 8 := by omega
            have hleft : 8 * (k + 1) - 8 = 8 * k := by omega
            unfold BitWriter.writeChunk
            simp only [if_true, hmin, hleft, Nat.sub_self, Nat.shiftLeft_zero,
              List.dropLast_concat, List.getLastD_concat, UInt8.zero_or]
          rw [BitWriter.writeLoop, if_neg (by omega), hchunk]
          simp only
          rw [ih fuel _ v (Nat.le_of_succ_le_succ hfuel), beBytes, List.append_assoc]
          rfl

theorem write_bytes (buf : List UInt8) (v k : Nat) (h : v < 256 ^ k) :
    BitWriter.write ⟨buf, 0⟩ v (8 * k) = ⟨buf ++ beBytes k v, 0⟩ := by
  have hpow : 2 ^ (8 * k) = 256 ^ k := Nat.pow_mul 2 8 k
  unfold BitWriter.write
  rw [hpow, Nat.mod_eq_of_lt h]
  exact writeLoop_bytes k _ buf v (by omega)

/-- A reader that has not taken up a byte takes up as many as there are in a number. -/
theorem readLoop_bytes (bs : List UInt8) : ∀ (fuel : Nat) (r : BitReader) (result : Nat)
    (rest : List UInt8), bs.length ≤ fuel → r.data = bs ++ rest → r.bitAvail = 0 →
    r.error = false →
    (BitReader.readLoop fuel r result (8 * bs.length)).1 =
        bs.foldl (fun n b => n * 256 + b.toNat) result ∧
      (BitReader.readLoop fuel r result (8 * bs.length)).2.data = rest ∧
      (BitReader.readLoop fuel r result (8 * bs.length)).2.bitAvail = 0 ∧
      (BitReader.readLoop fuel r result (8 * bs.length)).2.error = false := by
  induction bs with
  | nil =>
      intro fuel r result rest _ hdata havail herror
      have hend : BitReader.readLoop fuel r result (8 * ([] : List UInt8).length) = (result, r) := by
        cases fuel with
        | zero => rfl
        | succ fuel => exact if_pos rfl
      rw [hend]
      exact ⟨rfl, hdata, havail, herror⟩
  | cons b bs ih =>
      intro fuel r result rest hfuel hdata havail herror
      rw [List.length_cons] at hfuel ⊢
      cases fuel with
      | zero => exact absurd hfuel (Nat.not_succ_le_zero _)
      | succ fuel =>
          have hrefill : r.refill =
              some { r with data := bs ++ rest, current := b, bitAvail := 8 } := by
            unfold BitReader.refill
            rw [if_pos havail, hdata]
            rfl
          have hmin : min (8 * (bs.length + 1)) 8 = 8 := by omega
          have hleft : 8 * (bs.length + 1) - 8 = 8 * bs.length := by omega
          have hbyte : result <<< 8 ||| (b.toNat >>> 0 &&& (2 ^ 8 - 1)) =
              result * 256 + b.toNat := by
            rw [Nat.and_two_pow_sub_one_eq_mod, Nat.shiftRight_zero,
              Nat.mod_eq_of_lt b.toNat_lt, ← Nat.shiftLeft_add_eq_or_of_lt b.toNat_lt,
              Nat.shiftLeft_eq]
          rw [BitReader.readLoop, if_neg (by omega), hrefill]
          simp only [hmin, hleft, Nat.sub_self, hbyte, List.foldl_cons]
          exact ih fuel _ _ rest (Nat.le_of_succ_le_succ hfuel) rfl rfl herror

/-! ## The medium -/

/-- No byte is under way on either side. -/
def buffer : Medium BitWriter ReadBuffer UInt8 where
  holds w bs := w = ⟨bs, 0⟩
  left rb bs := rb.versionMismatch = false ∧ rb.reader.error = false ∧ rb.reader.bitAvail = 0 ∧
    rb.reader.data = bs
  failed rb := rb.isGood = false
  unique _ _ _ h h' := h.2.2.2.symm.trans h'.2.2.2
  sound rb bs h := by
    unfold ReadBuffer.isGood
    rw [h.1, h.2.1]
    decide

/-- A number of whole bytes. -/
theorem puts_writeBits (k v : Nat) (h : v < 256 ^ k) :
    Puts buffer (writeBits v (8 * k)) (beBytes k v) := by
  intro w cs hw
  have hrun : ((writeBits v (8 * k)).run w).2 = w.write v (8 * k) := rfl
  rw [hrun, show w = ⟨cs, 0⟩ from hw]
  exact write_bytes cs v k h

theorem gets_readBits (bs : List UInt8) :
    Gets buffer (readBits (8 * bs.length)) bs (beNat bs) := by
  intro rb rest h
  rcases h with ⟨hversion, herror, havail, hdata⟩
  have hread : rb.reader.read (8 * bs.length) =
      rb.reader.readLoop (8 * bs.length) 0 (8 * bs.length) := by
    unfold BitReader.read
    rw [if_neg (by rw [herror]; decide)]
  rcases readLoop_bytes bs (8 * bs.length) rb.reader 0 rest (by omega) hdata havail herror with
    ⟨hval, hrest⟩
  have hrun : (readBits (8 * bs.length)).run rb = rb.readBits (8 * bs.length) := rfl
  rw [hrun]
  unfold ReadBuffer.readBits
  rw [hread]
  exact ⟨hval, hversion, hrest.2.2, hrest.2.1, hrest.1⟩

/-- Without enough bytes a number is not read. -/
theorem read_error_of_left (k : Nat) (rb : ReadBuffer) (bs : List UInt8) (h : buffer.left rb bs)
    (hlt : bs.length < k) : (rb.reader.read (8 * k)).2.error = true := by
  rcases h with ⟨_, herror, havail, hdata⟩
  have hreads : rb.reader.Reads (byteBits bs) := by
    refine ⟨herror, by rw [havail]; exact Nat.zero_le 8, ?_⟩
    unfold BitReader.rest
    rw [havail, hdata]
    rfl
  exact rb.reader.read_starved (8 * k) (byteBits bs) hreads (by rw [length_byteBits]; omega)

theorem readBits_starved (k : Nat) (rb : ReadBuffer) (bs : List UInt8)
    (h : buffer.left rb bs) (hlt : bs.length < k) :
    buffer.failed ((readBits (8 * k)).run rb).2 := by
  have hrun : (readBits (8 * k)).run rb = rb.readBits (8 * k) := rfl
  rw [hrun]
  unfold buffer ReadBuffer.isGood ReadBuffer.readBits
  simp only [read_error_of_left k rb bs h hlt, Bool.not_true, Bool.false_and]

theorem failed_readBits (bits : Nat) (rb : ReadBuffer) (h : buffer.failed rb) :
    buffer.failed ((readBits bits).run rb).2 := by
  have hrun : (readBits bits).run rb = rb.readBits bits := rfl
  rw [hrun]
  unfold buffer ReadBuffer.isGood at h ⊢
  unfold ReadBuffer.readBits
  simp only [Bool.and_eq_false_iff, Bool.not_eq_false'] at h ⊢
  rcases h with herror | hversion
  · exact Or.inl (rb.reader.read_error bits herror)
  · exact Or.inr hversion

theorem local_readBits (k : Nat) : Local buffer (readBits (8 * k)) where
  failed rb h := failed_readBits (8 * k) rb h
  taken rb bs h := by
    by_cases hlt : bs.length < k
    · exact Or.inl (readBits_starved k rb bs h hlt)
    · have hlen : (bs.take k).length = k := by
        rw [List.length_take]
        omega
      have hgets := gets_readBits (bs.take k)
      rw [hlen] at hgets
      refine Or.inr ⟨bs.take k, bs.drop k, (List.take_append_drop k bs).symm, fun t after ht => ?_⟩
      rcases hgets rb (bs.drop k) (by rwa [List.take_append_drop]) with ⟨hval, _⟩
      rcases hgets t after ht with ⟨hval', hleft⟩
      exact ⟨hval'.trans hval.symm, hleft⟩

/-! ## Fields -/

theorem codes_writeBits (k v : Nat) (h : v < 256 ^ k) :
    Codes buffer (writeBits v (8 * k)) (readBits (8 * k)) v := by
  have hgets := gets_readBits (beBytes k v)
  rw [length_beBytes, beNat_beBytes k v h] at hgets
  exact ⟨beBytes k v, puts_writeBits k v h, hgets⟩

theorem codes_writeUint8 (v : UInt8) : Codes buffer (writeUint8 v) readUint8 v := by
  have h := (codes_writeBits 1 v.toNat v.toNat_lt).last (f := UInt8.ofNat)
  rwa [UInt8.ofNat_toNat] at h

theorem codes_writeUint16 (v : UInt16) : Codes buffer (writeUint16 v) readUint16 v := by
  have h := (codes_writeBits 2 v.toNat v.toNat_lt).last (f := UInt16.ofNat)
  rwa [UInt16.ofNat_toNat] at h

theorem codes_writeUint32 (v : UInt32) : Codes buffer (writeUint32 v) readUint32 v := by
  have h := (codes_writeBits 4 v.toNat v.toNat_lt).last (f := UInt32.ofNat)
  rwa [UInt32.ofNat_toNat] at h

theorem codes_writeUint64 (v : UInt64) : Codes buffer (writeUint64 v) readUint64 v := by
  have h := (codes_writeBits 8 v.toNat v.toNat_lt).last (f := UInt64.ofNat)
  rwa [UInt64.ofNat_toNat] at h

theorem codes_writeInt64 (v : Int64) : Codes buffer (writeInt64 v) readInt64 v := by
  have h := (codes_writeUint64 v.toUInt64).last (f := UInt64.toInt64)
  rwa [Int64.toInt64_toUInt64] at h

variable {F : Type}

theorem codes_writeFloat [FloatBits F] (v : F) :
    Codes buffer (writeFloat v) readFloat v := by
  have h := (codes_writeUint32 (FloatBits.bits v)).last (f := (FloatBits.ofBits : UInt32 → F))
  rwa [FloatBits.ofBits_bits] at h

theorem local_readUint8 : Local buffer readUint8 := (local_readBits 1).bind fun _ => local_pure _

theorem local_readUint16 : Local buffer readUint16 :=
  (local_readBits 2).bind fun _ => local_pure _

theorem local_readUint32 : Local buffer readUint32 :=
  (local_readBits 4).bind fun _ => local_pure _

theorem local_readUint64 : Local buffer readUint64 :=
  (local_readBits 8).bind fun _ => local_pure _

theorem local_readInt64 : Local buffer readInt64 := local_readUint64.bind fun _ => local_pure _

theorem local_readFloat [FloatBits F] : Local buffer (readFloat : ReadM F) :=
  local_readUint32.bind fun _ => local_pure _

/-- Between whole bytes there is nothing to end. -/
theorem codes_flush : Codes buffer flush alignToByte PUnit.unit := by
  refine ⟨[], fun w cs hw => ?_, fun rb rest h => ⟨rfl, h.1, h.2.1, rfl, h.2.2.2⟩⟩
  have hrun : (flush.run w).2 = w.flush := rfl
  rw [hrun, show w = ⟨cs, 0⟩ from hw, List.append_nil]
  rfl

theorem local_alignToByte : Local buffer alignToByte where
  failed _ h := h
  taken _ bs _ := Or.inr ⟨[], bs, rfl, fun _ _ h => ⟨rfl, h.1, h.2.1, rfl, h.2.2.2⟩⟩

theorem codes_writeBytes (data : List UInt8) :
    Codes buffer (writeBytes data) (readBytes data.length) data :=
  codes_flush.bind (codes_forM data fun b _ => codes_writeUint8 b)

theorem local_readBytes (len : Nat) : Local buffer (readBytes len) :=
  local_alignToByte.bind fun _ => local_readTimes local_readUint8 len

/-! ## Text, positions and lists -/

/-- Text that fits its length is read back. -/
theorem codes_writeStr (s : List UInt8) (h : s.length ≤ 65535) :
    Codes buffer (writeStr s) readStr s := by
  have hlen : (UInt16.ofNat s.length).toNat = s.length := by
    rw [UInt16.toNat_ofNat', Nat.mod_eq_of_lt (by omega)]
  unfold writeStr readStr
  refine (codes_writeUint16 _).bind ?_
  by_cases hs : s = []
  · rw [if_neg (not_not_intro hs), hs]
    exact codes_nothing []
  · have hne : UInt16.ofNat s.length ≠ 0 := fun heq => by
      rw [heq] at hlen
      exact hs (List.length_eq_zero_iff.mp hlen.symm)
    rw [if_pos hs, if_pos hne, hlen]
    exact codes_writeBytes s

theorem local_readStr : Local buffer readStr := by
  refine local_readUint16.bind fun n => ?_
  split
  · exact local_readBytes n.toNat
  · exact local_pure []

theorem codes_writePos (p : Vec3 Int64) : Codes buffer (writePos p) readPos p :=
  (codes_writeInt64 p.x).bind <| (codes_writeInt64 p.y).bind <| (codes_writeInt64 p.z).last

theorem local_readPos : Local buffer readPos :=
  local_readInt64.bind fun _ => local_readInt64.bind fun _ => local_readInt64.bind fun _ =>
    local_pure _

theorem codes_writeInt32 (v : Int32) : Codes buffer (writeInt32 v) readInt32 v := by
  have h := (codes_writeUint32 v.toUInt32).last (f := UInt32.toInt32)
  rwa [Int32.toInt32_toUInt32] at h

theorem local_readInt32 : Local buffer readInt32 := local_readUint32.bind fun _ => local_pure _

section

variable {α : Type} {f : α → WriteM} {r : ReadM α}

/-- A list whose count fits is read back. -/
theorem codes_writeList8 (as : List α) (h : as.length ≤ 255)
    (hf : ∀ a ∈ as, Codes buffer (f a) r a) :
    Codes buffer (writeList8 f as) (readList8 r) as := by
  refine (codes_writeUint8 _).bind ?_
  rw [UInt8.toNat_ofNat', Nat.mod_eq_of_lt (by omega)]
  exact codes_forM as hf

theorem codes_writeList16 (as : List α) (h : as.length ≤ 65535)
    (hf : ∀ a ∈ as, Codes buffer (f a) r a) :
    Codes buffer (writeList16 f as) (readList16 r) as := by
  refine (codes_writeUint16 _).bind ?_
  rw [UInt16.toNat_ofNat', Nat.mod_eq_of_lt (by omega)]
  exact codes_forM as hf

theorem codes_writeList32 (as : List α) (h : as.length < 2 ^ 32)
    (hf : ∀ a ∈ as, Codes buffer (f a) r a) :
    Codes buffer (writeList32 f as) (readList32 r) as := by
  refine (codes_writeUint32 _).bind ?_
  rw [UInt32.toNat_ofNat', Nat.mod_eq_of_lt h]
  exact codes_forM as hf

theorem local_readList16 (hr : Local buffer r) : Local buffer (readList16 r) :=
  local_readUint16.bind fun n => local_readTimes hr n.toNat

theorem local_readList32 (hr : Local buffer r) : Local buffer (readList32 r) :=
  local_readUint32.bind fun n => local_readTimes hr n.toNat

end

/-! ## What fits a count -/

theorem returns_readBytes (len : Nat) :
    Returns (fun bs : List UInt8 => bs.length = len) (readBytes len) := fun _ =>
  (returns_readTimes (returns_any readUint8) len _).1

/-- Whatever text is read fits its length. -/
theorem returns_readStr : Returns (fun s : List UInt8 => s.length ≤ 65535) readStr := by
  refine (returns_any readUint16).bind fun n _ => ?_
  split
  · intro rb
    have hlen : ((readBytes n.toNat).run rb).1.length = n.toNat := returns_readBytes _ rb
    have hlt := n.toNat_lt
    omega
  · exact returns_pure (Nat.zero_le _)

section

variable {α : Type} {r : ReadM α} {P : α → Prop}

/-- Whatever list is read fits its count. -/
theorem returns_readList8 (hr : Returns P r) :
    Returns (fun as => as.length ≤ 255 ∧ ∀ a ∈ as, P a) (readList8 r) := by
  refine (returns_any readUint8).bind fun n _ rb => ?_
  have has := returns_readTimes hr n.toNat rb
  have hlt := n.toNat_lt
  exact ⟨by omega, has.2⟩

theorem returns_readList16 (hr : Returns P r) :
    Returns (fun as => as.length ≤ 65535 ∧ ∀ a ∈ as, P a) (readList16 r) := by
  refine (returns_any readUint16).bind fun n _ rb => ?_
  have has := returns_readTimes hr n.toNat rb
  have hlt := n.toNat_lt
  exact ⟨by omega, has.2⟩

end

/-! ## How much a field is -/

theorem putsLength_writeBits (k v : Nat) (h : v < 256 ^ k) :
    PutsLength buffer (writeBits v (8 * k)) k :=
  ⟨beBytes k v, (length_beBytes k v).ge, puts_writeBits k v h⟩

theorem putsLength_writeUint8 (v : UInt8) : PutsLength buffer (writeUint8 v) 1 :=
  putsLength_writeBits 1 v.toNat v.toNat_lt

theorem putsLength_writeFloat [FloatBits F] (v : F) :
    PutsLength buffer (writeFloat v) 4 :=
  putsLength_writeBits 4 (FloatBits.bits v).toNat (FloatBits.bits v).toNat_lt

theorem takesLength_readBits (k : Nat) : TakesLength buffer (readBits (8 * k)) k := by
  intro rb bs hlen h
  have hgets := gets_readBits (bs.take k)
  rw [List.length_take, Nat.min_eq_left hlen] at hgets
  exact (hgets rb (bs.drop k) (by rwa [List.take_append_drop])).2

theorem takesLength_readUint8 : TakesLength buffer readUint8 1 :=
  (takesLength_readBits 1).bind fun _ => takesLength_pure _

theorem takesLength_readUint16 : TakesLength buffer readUint16 2 :=
  (takesLength_readBits 2).bind fun _ => takesLength_pure _

theorem takesLength_readUint32 : TakesLength buffer readUint32 4 :=
  (takesLength_readBits 4).bind fun _ => takesLength_pure _

theorem takesLength_readInt32 : TakesLength buffer readInt32 4 :=
  takesLength_readUint32.bind fun _ => takesLength_pure _

theorem takesLength_readFloat [FloatBits F] :
    TakesLength buffer (readFloat : ReadM F) 4 :=
  takesLength_readUint32.bind fun _ => takesLength_pure _

/-! ## Buffers -/

/-- The version header. -/
def header : List UInt8 := [0, 0, 0, 1]

theorem holds_fresh : buffer.holds WriteBuffer.fresh header := by
  have h := write_bytes [] protocolVersion 4 (by decide)
  exact h

theorem left_ofBytes (bs : List UInt8) : buffer.left (ReadBuffer.ofBytes (header ++ bs)) bs := by
  have hgets := gets_readBits header ⟨BitReader.ofBytes (header ++ bs), false⟩ bs
    ⟨rfl, rfl, rfl, rfl⟩
  have hval : ((BitReader.ofBytes (header ++ bs)).read 32).1 = protocolVersion := hgets.1
  refine ⟨?_, hgets.2.2⟩
  unfold ReadBuffer.ofBytes
  simp only [hval, ne_eq, not_true, decide_false]

variable {w : WriteM}

theorem encode_eq {bs : List UInt8} (h : Puts buffer w bs) :
    encode w = header ++ bs := by
  have hw : (w.run WriteBuffer.fresh).2 = ⟨header ++ bs, 0⟩ := h _ _ holds_fresh
  have hrun : encode w = ((w.run WriteBuffer.fresh).2.flush).buf := rfl
  rw [hrun, hw]
  rfl

/-- What a format writes is read back. -/
theorem decode_encode {α : Type} {r : ReadM α} {a : α} (h : Codes buffer w r a) :
    decode r (encode w) = some a := by
  rcases h with ⟨bs, hw, hr⟩
  have hopen := left_ofBytes bs
  rcases hr (ReadBuffer.ofBytes (header ++ bs)) [] (by rwa [List.append_nil]) with ⟨hval, hleft⟩
  have hgood : (ReadBuffer.ofBytes (header ++ bs)).isGood = true :=
    (Bool.not_eq_false _).mp (buffer.sound _ _ hopen)
  have hend : (r.run (ReadBuffer.ofBytes (header ++ bs))).2.isGood = true :=
    (Bool.not_eq_false _).mp (buffer.sound _ _ hleft)
  rw [encode_eq hw]
  unfold decode
  simp only [hgood, if_true, hend, hval]

/-- A buffer that is written with enough in it is not turned down. -/
theorem decode_feeds {α : Type} {r : ReadM α} (h : Feeds buffer w r) :
    ∃ a, decode r (encode w) = some a := by
  rcases h with ⟨bs, hw, hr⟩
  have hopen := left_ofBytes bs
  rcases hr _ hopen with ⟨rest, hleft⟩
  have hgood : (ReadBuffer.ofBytes (header ++ bs)).isGood = true :=
    (Bool.not_eq_false _).mp (buffer.sound _ _ hopen)
  have hend : (r.run (ReadBuffer.ofBytes (header ++ bs))).2.isGood = true :=
    (Bool.not_eq_false _).mp (buffer.sound _ _ hleft)
  refine ⟨(r.run (ReadBuffer.ofBytes (header ++ bs))).1, ?_⟩
  rw [encode_eq hw]
  unfold decode
  simp only [hgood, if_true, hend]

/-- What a format reads from a buffer is something that its reader returns. -/
theorem decode_returns {α : Type} {P : α → Prop} {r : ReadM α} (hr : Returns P r)
    {body : List UInt8} {a : α} (h : decode r body = some a) : P a := by
  unfold decode at h
  simp only [Option.ite_none_right_eq_some] at h
  rcases h with ⟨_, _, hval⟩
  exact Option.some.inj hval ▸ hr _

/-- A buffer that does not hold a version header is turned down. -/
theorem decode_short {α : Type} (r : ReadM α) (body : List UInt8) (h : body.length < 4) :
    decode r body = none := by
  have herror : ((BitReader.ofBytes body).read 32).2.error = true :=
    read_error_of_left 4 ⟨BitReader.ofBytes body, false⟩ body ⟨rfl, rfl, rfl, rfl⟩ h
  have hnot : (ReadBuffer.ofBytes body).isGood = false := by
    unfold ReadBuffer.isGood ReadBuffer.ofBytes
    simp only [herror, Bool.not_true, Bool.false_and]
  unfold decode
  simp only [hnot, Bool.false_eq_true, if_false]

/-- Every shorter piece of what a format writes is turned down. -/
theorem decode_cut {α : Type} {r : ReadM α} {a : α} (h : Codes buffer w r a)
    (hr : Local buffer r) (part : List UInt8) (hpart : part <+: encode w)
    (hne : part ≠ encode w) : decode r part = none := by
  rcases h with ⟨bs, hw, hgets⟩
  rw [encode_eq hw] at hpart hne
  by_cases hshort : part.length < 4
  · exact decode_short r part hshort
  · -- The piece holds the header and a piece of the rest.
    have hheader : header <+: part :=
      List.prefix_of_prefix_length_le ⟨bs, rfl⟩ hpart (Nat.le_of_not_lt hshort)
    rcases hheader with ⟨part, rfl⟩
    have hrest : part <+: bs := (List.prefix_append_right_inj header).mp hpart
    have hbad := hr.cut hgets (left_ofBytes bs) (left_ofBytes part) hrest
      fun heq => hne (congrArg (header ++ ·) heq)
    have hnot : (r.run (ReadBuffer.ofBytes (header ++ part))).2.isGood = false := hbad
    unfold decode
    simp only [hnot, Bool.false_eq_true, if_false, ite_self]

section

variable {F : Type} [FloatBits F]

theorem codes_writeFleetCommand (c : FleetCommand F) (hunits : c.units.length ≤ 65535)
    (hbeacon : c.beacon.length ≤ 65535) :
    Codes buffer (writeFleetCommand c) readFleetCommand (some c) := by
  have hqueue : decide ((if c.queue then (1 : UInt8) else 0) ≠ 0) = c.queue := by
    cases c.queue <;> rfl
  unfold writeFleetCommand readFleetCommand
  refine (codes_writeUint8 _).bind ?_
  rw [if_neg (not_not_intro rfl)]
  refine Codes.last (a := c) ?_
  unfold readFleetCommandBody
  refine (codes_writeUint32 c.clientTick).bind <| (codes_writeUint8 c.intent).bind <|
    (codes_writeUint8 _).bind ?_
  rw [hqueue]
  exact (codes_writeList16 c.units hunits fun u _ => codes_writeUint32 u).bind <|
    (codes_writeUint32 c.targetNetId).bind <| (codes_writePos c.targetPoint).bind <|
    (codes_writeFloat c.range).bind <| (codes_writeStr c.beacon hbeacon).last

theorem local_readFleetCommand :
    Local buffer (readFleetCommand : ReadM (Option (FleetCommand F))) := by
  refine local_readUint8.bind fun version => ?_
  split
  · exact local_pure none
  · refine Local.bind ?_ fun c => local_pure (some c)
    exact local_readUint32.bind fun _ => local_readUint8.bind fun _ =>
      local_readUint8.bind fun _ => (local_readList16 local_readUint32).bind fun _ =>
      local_readUint32.bind fun _ =>
      local_readPos.bind fun _ => local_readFloat.bind fun _ => local_readStr.bind fun _ =>
      local_pure _

/-- A command whose lists fit their lengths is read back field by field, and every shorter
    piece of it is turned down. -/
theorem fleetCommand_read_back (c : FleetCommand F) (hunits : c.units.length ≤ 65535)
    (hbeacon : c.beacon.length ≤ 65535) :
    decodeFleetCommand (encodeFleetCommand c) = some c ∧
      ∀ part, part <+: encodeFleetCommand c → part ≠ encodeFleetCommand c →
        decodeFleetCommand (F := F) part = none := by
  have hcodes := codes_writeFleetCommand c hunits hbeacon
  constructor
  · unfold decodeFleetCommand encodeFleetCommand
    rw [decode_encode hcodes]
    rfl
  · intro part hpart hne
    unfold decodeFleetCommand
    rw [decode_cut hcodes local_readFleetCommand part hpart hne]
    rfl

end

/-- A jump of two units. -/
theorem fleetCommand_read_back_jump :
    let c : FleetCommand Binary32 := ⟨7, 8, true, [3, 4], 0, ⟨-1, 2, 0⟩, ⟨0x7FC00001⟩, [65, 66]⟩
    decodeFleetCommand (encodeFleetCommand c) = some c :=
  (fleetCommand_read_back _ (by decide) (by decide)).1

end Serde

end EarthRise
