import EarthRise.Core.Serde
import EarthRise.Theory.BitStream

/-!
# Whatever Is Written Is Read Back

Fields of any width, blocks of bytes and flushes, one after the other, and a reader that follows
the same schema: it takes fields of the same widths and blocks of the same lengths, and aligns
where the writer flushed.

What an operation appends depends on where in a byte it starts, since a flush fills the byte up.
So the layout of a list of operations goes along with the position. The reader is at the same
place of a byte as the writer was, since both ends of the stream are at the border of a byte, and
so it gives up as many bits as the flush filled in.

A read that finds too little returns zero and sets the error flag, and nothing unsets that.

## Main definitions

* `Width`: The number of bits of a field.
* `WriteOp`, `ReadOp`, `WriteOp.schema`: What is written, and how it is read.
* `WriteOp.layout`, `layoutAll`: The bits that are appended from a position on.

## Theorems

* `run_layout`, `writeAll_layout`: The writer appends the layout.
* `schema_layout`, `readAll_layout`: The reader takes it.
* `readAll_failed`: After an error everything is zero.
* `schema_reads_back`: The round trip, and reads that find too little.
-/

namespace EarthRise

namespace Serde

open Bits

/-- The number of bits of a field, as the writer and the reader assert it. -/
structure Width where
  bits : Nat
  pos : 1 ≤ bits
  le : bits ≤ 64

inductive WriteOp
  | bits (value : UInt64) (width : Width)
  | bytes (data : List UInt8)
  | flush

inductive ReadOp
  | bits (width : Width)
  | bytes (len : Nat)
  | align

/-- What an operation of the reader returns. -/
inductive FieldValue
  | bits (v : Nat)
  | bytes (data : List UInt8)
  | nothing
  deriving DecidableEq

def WriteOp.run : WriteOp → WriteM
  | .bits value width => writeBits value.toNat width.bits
  | .bytes data => writeBytes data
  | .flush => Serde.flush

def ReadOp.run : ReadOp → ReadM FieldValue
  | .bits width => do
      let v ← readBits width.bits
      pure (.bits v)
  | .bytes len => do
      let data ← readBytes len
      pure (.bytes data)
  | .align => do
      alignToByte
      pure .nothing

def WriteOp.schema : WriteOp → ReadOp
  | .bits _ width => .bits width
  | .bytes data => .bytes data.length
  | .flush => .align

/-- What was written, masked to its width. -/
def WriteOp.value : WriteOp → FieldValue
  | .bits value width => .bits (value.toNat % 2 ^ width.bits)
  | .bytes data => .bytes data
  | .flush => .nothing

/-- What a reader returns that has nothing to read. -/
def ReadOp.zero : ReadOp → FieldValue
  | .bits _ => .bits 0
  | .bytes len => .bytes (List.replicate len 0)
  | .align => .nothing

def writeAll : BitWriter → List WriteOp → BitWriter
  | w, [] => w
  | w, op :: ops => writeAll (op.run.run w).2 ops

def readAll : List ReadOp → ReadM (List FieldValue)
  | [] => pure []
  | op :: ops => do
      let v ← op.run
      let vs ← readAll ops
      pure (v :: vs)

/-- The number of bits that are left to read. -/
def BitReader.remaining (r : BitReader) : Nat := r.bitAvail + 8 * r.data.length

/-! ## Where bits land -/

/-- The bits that fill a byte up, from a position on. -/
def padding (p : Nat) : List Bool := List.replicate ((8 - p % 8) % 8) false

@[simp] theorem length_padding (p : Nat) : (padding p).length = (8 - p % 8) % 8 :=
  List.length_replicate

/-- What an operation appends at a position. -/
def WriteOp.layout (p : Nat) : WriteOp → List Bool
  | .bits value width => bitsOf width.bits value.toNat
  | .bytes data => padding p ++ byteBits data
  | .flush => padding p

def layoutAll : Nat → List WriteOp → List Bool
  | _, [] => []
  | p, op :: ops => op.layout p ++ layoutAll (p + (op.layout p).length) ops

/-! ## Writing -/

namespace BitWriter

theorem filled_flush (w : BitWriter) (hw : w.Filled) : w.flush.Filled := by
  rcases hw with ⟨hbuf, _⟩ | ⟨init, last, hbuf, _, _⟩
  · exact Or.inl ⟨hbuf, rfl⟩
  · exact Or.inr ⟨init, last, hbuf, Nat.zero_le 8, by
      show last.toNat % 2 ^ 0 = 0
      rw [Nat.pow_zero, Nat.mod_one]⟩

/-- The low bits of a byte are the padding where they are zero. -/
theorem bitsOf_zeros (f v : Nat) (h : v % 2 ^ f = 0) : bitsOf f v = List.replicate f false := by
  rw [← bitsOf_mod, h]
  clear h
  induction f with
  | zero => rfl
  | succ f ih => rw [bitsOf, ih, Nat.zero_testBit, List.replicate_succ]

theorem bits_flush (w : BitWriter) (hw : w.Filled) (ht : w.Tight) :
    w.flush.bits = w.bits ++ padding w.bits.length := by
  unfold Tight at ht
  rcases hw with ⟨hbuf, hfree⟩ | ⟨init, last, hbuf, hfree, hzero⟩
  · -- Nothing was written, and nothing is padded.
    unfold bits flush
    rw [hbuf, hfree]
    rfl
  · have hw : w = ⟨init ++ [last], w.bitsFree⟩ := by rw [← hbuf]
    have hbits := bits_snoc init last w.bitsFree hfree
    rw [← hw] at hbits
    have hflush : w.flush.bits = byteBits init ++ bitsOf 8 last.toNat := by
      have h := bits_snoc init last 0 (Nat.zero_le 8)
      unfold flush
      rwa [hbuf]
    have hlength : w.bits.length = 8 * init.length + (8 - w.bitsFree) := by
      rw [hbits, List.length_append, length_byteBits, length_bitsOf]
    -- The byte is what was written of it, and its free bits.
    have hbyte : bitsOf 8 last.toNat = bitsOf (8 - w.bitsFree) (last.toNat >>> w.bitsFree) ++
        List.replicate w.bitsFree false := by
      rw [← bitsOf_zeros w.bitsFree last.toNat hzero, ← bitsOf_add, Nat.sub_add_cancel hfree]
    have hpad : (8 - w.bits.length % 8) % 8 = w.bitsFree := by
      rw [hlength]
      omega
    unfold padding
    rw [hflush, hbyte, hpad, hbits, List.append_assoc]

end BitWriter

theorem forM_writeUint8 (data : List UInt8) (w : BitWriter) (hw : w.Filled) (ht : w.Tight) :
    ((data.forM writeUint8).run w).2.Filled ∧ ((data.forM writeUint8).run w).2.Tight ∧
      ((data.forM writeUint8).run w).2.bits = w.bits ++ byteBits data := by
  induction data generalizing w with
  | nil => exact ⟨hw, ht, (List.append_nil _).symm⟩
  | cons b data ih =>
      rcases BitWriter.bits_write w b.toNat 8 hw with ⟨hfilled, hbits⟩
      have hrest := ih (w.write b.toNat 8) hfilled (BitWriter.tight_write w b.toNat 8 ht)
      rw [hbits, List.append_assoc, ← byteBits_cons] at hrest
      exact hrest

/-- An operation appends its layout. -/
theorem run_layout (op : WriteOp) (w : BitWriter) (hw : w.Filled) (ht : w.Tight) :
    (op.run.run w).2.Filled ∧ (op.run.run w).2.Tight ∧
      (op.run.run w).2.bits = w.bits ++ op.layout w.bits.length := by
  cases op with
  | bits value width =>
      rcases BitWriter.bits_write w value.toNat width.bits hw with ⟨hfilled, hbits⟩
      exact ⟨hfilled, BitWriter.tight_write w value.toNat width.bits ht, hbits⟩
  | bytes data =>
      have h := forM_writeUint8 data w.flush (BitWriter.filled_flush w hw) (Nat.succ_pos 7)
      rw [BitWriter.bits_flush w hw ht, List.append_assoc] at h
      exact h
  | flush => exact ⟨BitWriter.filled_flush w hw, Nat.succ_pos 7, BitWriter.bits_flush w hw ht⟩

theorem writeAll_layout (ops : List WriteOp) (w : BitWriter) (hw : w.Filled) (ht : w.Tight) :
    (writeAll w ops).bits = w.bits ++ layoutAll w.bits.length ops := by
  induction ops generalizing w with
  | nil => exact (List.append_nil _).symm
  | cons op ops ih =>
      rcases run_layout op w hw ht with ⟨hfilled, htight, hbits⟩
      rw [writeAll, ih _ hfilled htight, hbits, List.append_assoc, List.length_append, layoutAll]

/-! ## Reading -/

namespace BitReader

/-- There is never a whole byte under way. -/
theorem readLoop_avail (fuel : Nat) : ∀ (r : BitReader) (result n : Nat), r.bitAvail < 8 →
    (readLoop fuel r result n).2.bitAvail < 8 := by
  induction fuel with
  | zero => exact fun _ _ _ h => h
  | succ fuel ih =>
      intro r result n h
      unfold readLoop
      by_cases hn : n = 0
      · rw [if_pos hn]
        exact h
      · rw [if_neg hn]
        cases hnext : r.refill with
        | none => exact h
        | some r' =>
            have hr' : 0 < r'.bitAvail ∧ r'.bitAvail ≤ 8 := by
              unfold refill at hnext
              split at hnext
              · split at hnext
                · cases hnext
                · rw [Option.some.injEq] at hnext
                  rw [← hnext]
                  exact ⟨Nat.succ_pos 7, Nat.le_refl 8⟩
              · rw [Option.some.injEq] at hnext
                rw [← hnext]
                omega
            -- Every chunk takes at least one bit.
            exact ih _ _ _ (by
              show r'.bitAvail - min n r'.bitAvail < 8
              omega)

theorem read_avail (r : BitReader) (n : Nat) (h : r.bitAvail < 8) : (r.read n).2.bitAvail < 8 := by
  unfold read
  split
  · exact h
  · exact readLoop_avail n r 0 n h

/-- A read that fails returns zero. -/
theorem readLoop_zero (fuel : Nat) : ∀ (r : BitReader) (result n : Nat), r.error = false →
    (readLoop fuel r result n).2.error = true → (readLoop fuel r result n).1 = 0 := by
  induction fuel with
  | zero =>
      intro r result n hgood herror
      exact absurd (hgood.symm.trans herror) Bool.false_ne_true
  | succ fuel ih =>
      intro r result n hgood herror
      unfold readLoop at herror ⊢
      by_cases hn : n = 0
      · rw [if_pos hn] at herror
        exact absurd (hgood.symm.trans herror) Bool.false_ne_true
      · rw [if_neg hn] at herror ⊢
        cases hnext : r.refill with
        | none => rfl
        | some r' =>
            rw [hnext] at herror
            refine ih _ _ _ ?_ herror
            show r'.error = false
            unfold refill at hnext
            split at hnext
            · split at hnext
              · cases hnext
              · rw [Option.some.injEq] at hnext
                rw [← hnext]
                exact hgood
            · rw [Option.some.injEq] at hnext
              rw [← hnext]
              exact hgood

theorem read_failed (r : BitReader) (n : Nat) (h : r.error = true) : r.read n = (0, r) := by
  unfold read
  rw [if_pos h]

/-- Too few bits are left. -/
theorem read_short (r : BitReader) (n : Nat) (havail : r.bitAvail < 8) (hlt : r.remaining < n) :
    (r.read n).1 = 0 ∧ (r.read n).2.error = true := by
  cases hgood : r.error with
  | true =>
      rw [read_failed r n hgood]
      exact ⟨rfl, hgood⟩
  | false =>
      have hreads : Reads r r.rest := ⟨hgood, Nat.le_of_lt havail, rfl⟩
      have hlength : r.rest.length = r.remaining := length_rest r r.rest hreads
      have herror := read_starved r n r.rest hreads (hlength ▸ hlt)
      refine ⟨?_, herror⟩
      unfold read at herror ⊢
      rw [if_neg (by rw [hgood]; exact Bool.false_ne_true)] at herror ⊢
      exact readLoop_zero n r 0 n hgood herror

end BitReader

/-- The reader is in order, `bs` is left, and there is no whole byte under way. -/
structure At (rb : ReadBuffer) (bs : List Bool) : Prop where
  reads : rb.reader.Reads bs
  avail : rb.reader.bitAvail < 8

theorem at_ofBytes (data : List UInt8) (mismatch : Bool) :
    At ⟨BitReader.ofBytes data, mismatch⟩ (byteBits data) :=
  ⟨BitReader.reads_ofBytes data, Nat.succ_pos 7⟩

variable {rb : ReadBuffer} {tail : List Bool} {p : Nat}

theorem At.readBits {n v : Nat}
    (h : At rb (bitsOf n v ++ tail)) :
    ((readBits n).run rb).1 = v % 2 ^ n ∧ At ((readBits n).run rb).2 tail := by
  rcases BitReader.read_bitsOf rb.reader n v tail h.reads with ⟨hval, hrest⟩
  exact ⟨hval, hrest, BitReader.read_avail rb.reader n h.avail⟩

/-- The reader gives up what the writer has filled in. -/
theorem At.align (h : At rb (padding p ++ tail))
    (hp : (p + (padding p ++ tail).length) % 8 = 0) : At (alignToByte.run rb).2 tail := by
  have hlength := BitReader.length_rest rb.reader _ h.reads
  have havail := h.avail
  have hpad : (padding p).length = rb.reader.bitAvail := by
    rw [hlength] at hp
    rw [List.length_append, length_padding] at hlength
    rw [length_padding]
    omega
  have hdrop := BitReader.reads_drop rb.reader _ h.reads rb.reader.bitAvail (Nat.le_refl _)
  rw [Nat.sub_self, List.drop_left' hpad] at hdrop
  exact ⟨hdrop, Nat.succ_pos 7⟩

theorem At.readTimes {data : List UInt8}
    (h : At rb (byteBits data ++ tail)) :
    ((Codec.readTimes readUint8 data.length).run rb).1 = data ∧
      At ((Codec.readTimes readUint8 data.length).run rb).2 tail := by
  induction data generalizing rb with
  | nil => exact ⟨rfl, h⟩
  | cons b data ih =>
      rw [byteBits_cons, List.append_assoc] at h
      rcases At.readBits h with ⟨hval, hrest⟩
      rcases ih hrest with ⟨hdata, hat⟩
      refine ⟨?_, hat⟩
      show UInt8.ofNat ((Serde.readBits 8).run rb).1 :: _ = b :: data
      rw [hval, Nat.mod_eq_of_lt b.toNat_lt, UInt8.ofNat_toNat]
      exact congrArg (b :: ·) hdata

/-- An operation is read back. -/
theorem schema_layout (op : WriteOp)
    (h : At rb (op.layout p ++ tail)) (hp : (p + (op.layout p ++ tail).length) % 8 = 0) :
    (op.schema.run.run rb).1 = op.value ∧ At (op.schema.run.run rb).2 tail := by
  cases op with
  | bits value width =>
      rcases At.readBits h with ⟨hval, hat⟩
      exact ⟨congrArg FieldValue.bits hval, hat⟩
  | bytes data =>
      rw [WriteOp.layout, List.append_assoc] at h hp
      rcases At.readTimes (h.align hp) with ⟨hval, hat⟩
      exact ⟨congrArg FieldValue.bytes hval, hat⟩
  | flush => exact ⟨rfl, h.align hp⟩

theorem readAll_layout (ops : List WriteOp)
    (h : At rb (layoutAll p ops ++ tail)) (hp : (p + (layoutAll p ops ++ tail).length) % 8 = 0) :
    ((readAll (ops.map WriteOp.schema)).run rb).1 = ops.map WriteOp.value ∧
      At ((readAll (ops.map WriteOp.schema)).run rb).2 tail := by
  induction ops generalizing rb p with
  | nil => exact ⟨rfl, h⟩
  | cons op ops ih =>
      rw [layoutAll, List.append_assoc] at h hp
      rcases schema_layout op h hp with ⟨hval, hat⟩
      rcases ih hat (by
        rw [List.length_append, ← Nat.add_assoc] at hp
        exact hp) with ⟨hvals, hend⟩
      refine ⟨?_, hend⟩
      show (op.schema.run.run rb).1 :: _ = op.value :: ops.map WriteOp.value
      rw [hval]
      exact congrArg (op.value :: ·) hvals

/-! ## Running out -/

/-- No operation leaves a whole byte under way. -/
theorem readAll_avail (ops : List ReadOp) (rb : ReadBuffer) (h : rb.reader.bitAvail < 8) :
    ((readAll ops).run rb).2.reader.bitAvail < 8 := by
  have htimes : ∀ (len : Nat) (rb : ReadBuffer), rb.reader.bitAvail < 8 →
      ((Codec.readTimes readUint8 len).run rb).2.reader.bitAvail < 8 := by
    intro len
    induction len with
    | zero => exact fun _ h => h
    | succ len ih => exact fun rb h => ih _ (BitReader.read_avail rb.reader 8 h)
  induction ops generalizing rb with
  | nil => exact h
  | cons op ops ih =>
      refine ih (op.run.run rb).2 ?_
      cases op with
      | bits width => exact BitReader.read_avail rb.reader width.bits h
      | bytes len => exact htimes len _ (Nat.succ_pos 7)
      | align => exact Nat.succ_pos 7

/-- After an error everything is zero. -/
theorem readAll_failed (ops : List ReadOp) (rb : ReadBuffer) (h : rb.reader.error = true) :
    ((readAll ops).run rb).1 = ops.map ReadOp.zero ∧
      ((readAll ops).run rb).2.reader.error = true := by
  have hread : ∀ (n : Nat) (rb : ReadBuffer), rb.reader.error = true →
      (readBits n).run rb = (0, rb) := by
    intro n rb h
    show ((rb.reader.read n).1, { rb with reader := (rb.reader.read n).2 }) = _
    rw [BitReader.read_failed rb.reader n h]
  have htimes : ∀ (len : Nat) (rb : ReadBuffer), rb.reader.error = true →
      ((Codec.readTimes readUint8 len).run rb).1 = List.replicate len 0 ∧
        ((Codec.readTimes readUint8 len).run rb).2.reader.error = true := by
    intro len
    induction len with
    | zero => exact fun _ h => ⟨rfl, h⟩
    | succ len ih =>
        intro rb h
        rcases ih rb h with ⟨hzeros, herror⟩
        have hrun : (Codec.readTimes readUint8 (len + 1)).run rb =
            (UInt8.ofNat ((readBits 8).run rb).1 ::
              ((Codec.readTimes readUint8 len).run ((readBits 8).run rb).2).1,
              ((Codec.readTimes readUint8 len).run ((readBits 8).run rb).2).2) := rfl
        rw [hrun, hread 8 rb h, hzeros]
        exact ⟨rfl, herror⟩
  induction ops generalizing rb with
  | nil => exact ⟨rfl, h⟩
  | cons op ops ih =>
      have hop : (op.run.run rb).1 = op.zero ∧ (op.run.run rb).2.reader.error = true := by
        cases op with
        | bits width =>
            have hrun : (ReadOp.bits width).run.run rb =
                (.bits ((readBits width.bits).run rb).1, ((readBits width.bits).run rb).2) := rfl
            rw [hrun, hread width.bits rb h]
            exact ⟨rfl, h⟩
        | bytes len =>
            rcases htimes len (alignToByte.run rb).2 h with ⟨hzeros, herror⟩
            exact ⟨congrArg FieldValue.bytes hzeros, herror⟩
        | align => exact ⟨rfl, h⟩
      rcases ih (op.run.run rb).2 hop.2 with ⟨hzeros, herror⟩
      refine ⟨?_, herror⟩
      show (op.run.run rb).1 :: _ = op.zero :: ops.map ReadOp.zero
      rw [hop.1]
      exact congrArg (op.zero :: ·) hzeros

/-- What is written is read back by the same schema, masked to the widths and without an error.
    And wherever a reader is in whatever bytes, a read of more bits than are left returns zero and
    sets the error flag, and then every read returns zero and the flag stays set. -/
theorem schema_reads_back (ops : List WriteOp) (mismatch : Bool) :
    (let r := (readAll (ops.map WriteOp.schema)).run
        ⟨BitReader.ofBytes (writeAll BitWriter.fresh ops).buf, mismatch⟩
     r.1 = ops.map WriteOp.value ∧ r.2.reader.error = false) ∧
    ∀ (data : List UInt8) (before : List ReadOp) (width : Width),
      let rb := ((readAll before).run ⟨BitReader.ofBytes data, mismatch⟩).2
      rb.reader.remaining < width.bits →
      let r := (readBits width.bits).run rb
      r.1 = 0 ∧ r.2.reader.error = true ∧
        ∀ after : List ReadOp, ((readAll after).run r.2).1 = after.map ReadOp.zero ∧
          ((readAll after).run r.2).2.reader.error = true := by
  refine ⟨?_, fun data before width hlt => ?_⟩
  · have hbits := writeAll_layout ops BitWriter.fresh BitWriter.fresh_filled (Nat.succ_pos 7)
    rw [BitWriter.bits_fresh, List.nil_append, List.length_nil] at hbits
    rcases BitWriter.byteBits_buf (writeAll BitWriter.fresh ops) with ⟨pad, hbuf⟩
    have hat := at_ofBytes (writeAll BitWriter.fresh ops).buf mismatch
    have hlength := length_byteBits (writeAll BitWriter.fresh ops).buf
    rw [hbuf, hbits] at hat hlength
    have hread := readAll_layout ops hat (by
      rw [Nat.zero_add, hlength]
      exact Nat.mul_mod_right 8 _)
    exact ⟨hread.1, hread.2.reads.good⟩
  · have havail := readAll_avail before ⟨BitReader.ofBytes data, mismatch⟩ (Nat.succ_pos 7)
    rcases BitReader.read_short _ width.bits havail hlt with ⟨hzero, herror⟩
    exact ⟨hzero, herror, fun after => readAll_failed after _ herror⟩

/-- A bit, a byte behind it, and a reader that wants one bit more. -/
theorem schema_reads_back_short :
    (writeAll BitWriter.fresh [.bits 3 ⟨1, by decide, by decide⟩, .bytes [7]]).buf = [128, 7] ∧
    ((readBits 1).run ((readAll [.bits ⟨1, by decide, by decide⟩, .bytes 1]).run
      ⟨BitReader.ofBytes [128, 7], false⟩).2).2.reader.error = true := by
  refine ⟨by decide, ?_⟩
  exact ((schema_reads_back [] false).2 [128, 7] [.bits ⟨1, by decide, by decide⟩, .bytes 1]
    ⟨1, by decide, by decide⟩ (by decide)).2.1

end Serde

end EarthRise
