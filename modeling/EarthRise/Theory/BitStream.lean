import EarthRise.Core.BitStream
import EarthRise.Lib.Bits

/-!
# What the Bit Stream Carries

The writer and the reader as a concatenation of bit strings.

`BitWriter.bits` is what has been written: the bits of the bytes so far, less the
free ones at the end. A write appends the field's bit string to it, wherever in a
byte it starts (`bits_write`). `BitReader.rest` is what is left to read, and a
read takes the field's bits off its front (`read_spec`). The bytes of a flushed
writer start with its bits, so what was written is what is read.

## Main definitions

* `byteBits`: The bits of a list of bytes.
* `BitWriter.bits`, `BitWriter.Filled`: What was written, the free bits zero.
* `BitWriter.Tight`: No byte without a written bit.
* `BitReader.rest`, `Reads`: What is left to read.
* `Appends`, `Parses`, `Carries`: A writer and a reader of the same bits.
* `Lacks`, `Takes`: A reader that is short of bits, and one that needs them.

## Theorems

* `bits_write`: A write appends.
* `read_spec`: A read takes off the front.
* `reads_ofBytes`: A reader starts with the bits of the bytes.
* `read_starved`: A read of more than is left fails.
-/

namespace EarthRise

namespace Serde

open Bits

/-- The bits of a list of bytes, each from its top bit down. -/
def byteBits (bs : List UInt8) : List Bool := bs.flatMap fun b => bitsOf 8 b.toNat

@[simp] theorem byteBits_nil : byteBits [] = [] := rfl

theorem byteBits_append (bs bs' : List UInt8) :
    byteBits (bs ++ bs') = byteBits bs ++ byteBits bs' := List.flatMap_append

theorem byteBits_cons (b : UInt8) (bs : List UInt8) :
    byteBits (b :: bs) = bitsOf 8 b.toNat ++ byteBits bs := rfl

theorem byteBits_singleton (b : UInt8) : byteBits [b] = bitsOf 8 b.toNat := by
  rw [byteBits_cons, byteBits_nil, List.append_nil]

theorem length_byteBits (bs : List UInt8) : (byteBits bs).length = 8 * bs.length := by
  induction bs with
  | nil => rfl
  | cons b bs ih =>
      rw [byteBits_cons, List.length_append, length_bitsOf, ih, List.length_cons]
      omega

/-! ## Writing -/

namespace BitWriter

/-- Nothing has been written, or the free bits are the low bits of the last byte
    and are zero. -/
def Filled (w : BitWriter) : Prop :=
  (w.buf = [] ∧ w.bitsFree = 0) ∨
    ∃ init last, w.buf = init ++ [last] ∧ w.bitsFree ≤ 8 ∧ last.toNat % 2 ^ w.bitsFree = 0

/-- What has been written. -/
def bits (w : BitWriter) : List Bool := (byteBits w.buf).take (8 * w.buf.length - w.bitsFree)

theorem fresh_filled : Filled fresh := Or.inl ⟨rfl, rfl⟩

theorem bits_fresh : fresh.bits = [] := rfl

theorem bits_snoc (init : List UInt8) (last : UInt8) (f : Nat) (hf : f ≤ 8) :
    (⟨init ++ [last], f⟩ : BitWriter).bits = byteBits init ++ bitsOf (8 - f) (last.toNat >>> f) := by
  have hlen : 8 * (init ++ [last]).length - f = (byteBits init).length + (8 - f) := by
    rw [length_byteBits, List.length_append, List.length_singleton]
    omega
  unfold bits
  simp only [hlen, byteBits_append, byteBits_singleton]
  have hback : 8 - (8 - f) = f := by omega
  rw [List.take_length_add_append, take_bitsOf 8 (8 - f) _ (by omega), hback]

/-- The chunk's bits land in the free bits of the byte and nowhere else. -/
theorem testBit_chunk (last : UInt8) (f c x i : Nat) (hc : c ≤ f)
    (hx : x < 2 ^ c ∨ f = 8) (hi : i < 8) :
    (last ||| UInt8.ofNat (x <<< (f - c))).toNat.testBit i =
      (last.toNat.testBit i || (decide (f - c ≤ i) && decide (i < f) && x.testBit (i - (f - c)))) := by
  have hmod : (UInt8.ofNat (x <<< (f - c))).toNat = (x <<< (f - c)) % 2 ^ 8 := UInt8.toNat_ofNat'
  rw [UInt8.toNat_or, Nat.testBit_or, hmod, Nat.testBit_mod_two_pow, decide_eq_true hi,
    Bool.true_and, Nat.testBit_shiftLeft]
  congr 1
  by_cases hlo : f - c ≤ i
  · rw [decide_eq_true hlo, Bool.true_and, Bool.true_and]
    by_cases hhi : i < f
    · rw [decide_eq_true hhi, Bool.true_and]
    · -- Above the free bits there is nothing of the value, or no byte.
      rw [decide_eq_false hhi, Bool.false_and]
      rcases hx with hx | h8
      · refine Nat.testBit_lt_two_pow (lt_of_lt_of_le hx ?_)
        exact Nat.pow_le_pow_right (by omega) (by omega)
      · omega
  · rw [decide_eq_false hlo, Bool.false_and, Bool.false_and, Bool.false_and]

/-- One chunk appends the top bits that are left of the value. -/
theorem writeChunk_spec (w : BitWriter) (value bitsLeft : Nat) (hw : Filled w)
    (hpos : 0 < bitsLeft) (hv : value < 2 ^ bitsLeft ∨ w.bitsFree = 0) :
    ∃ c, 0 < c ∧ c ≤ bitsLeft ∧ (w.writeChunk value bitsLeft).2 = bitsLeft - c ∧
      Filled (w.writeChunk value bitsLeft).1 ∧
      (w.writeChunk value bitsLeft).1.bits = w.bits ++ bitsOf c (value >>> (bitsLeft - c)) ∧
      (bitsLeft - c = 0 ∨ (w.writeChunk value bitsLeft).1.bitsFree = 0) := by
  -- The byte the chunk goes into, with its free bits.
  obtain ⟨init, last, f, hbyte, hf0, hf8, hzero, hbits, hx⟩ :
      ∃ init last f, (if w.bitsFree = 0 then (⟨w.buf ++ [0], 8⟩ : BitWriter) else w) =
        ⟨init ++ [last], f⟩ ∧ 0 < f ∧ f ≤ 8 ∧ last.toNat % 2 ^ f = 0 ∧
        byteBits init ++ bitsOf (8 - f) (last.toNat >>> f) = w.bits ∧
        (value < 2 ^ bitsLeft ∨ f = 8) := by
    by_cases hfree : w.bitsFree = 0
    · refine ⟨w.buf, 0, 8, by rw [if_pos hfree], by omega, by omega, by decide, ?_, Or.inr rfl⟩
      have hall : (byteBits w.buf).length ≤ 8 * w.buf.length - w.bitsFree := by
        rw [length_byteBits, hfree]
        omega
      unfold bits
      rw [List.take_of_length_le hall]
      exact List.append_nil _
    · rcases hw with ⟨_, h0⟩ | ⟨init, last, hbuf, hle, hzero⟩
      · exact absurd h0 hfree
      · refine ⟨init, last, w.bitsFree, ?_, by omega, hle, hzero, ?_, ?_⟩
        · rw [if_neg hfree, ← hbuf]
        · rw [← bits_snoc init last w.bitsFree hle, ← hbuf]
        · exact Or.inl (hv.resolve_right hfree)
  have hc : 0 < min bitsLeft f ∧ min bitsLeft f ≤ bitsLeft ∧ min bitsLeft f ≤ f := by omega
  refine ⟨min bitsLeft f, hc.1, hc.2.1, ?_⟩
  unfold writeChunk
  rw [hbyte]
  simp only [List.dropLast_concat, List.getLastD_concat]
  generalize hcdef : min bitsLeft f = c at *
  have hxc : value >>> (bitsLeft - c) < 2 ^ c ∨ f = 8 := by
    refine hx.imp_left fun h => ?_
    rw [Nat.shiftRight_eq_div_pow, Nat.div_lt_iff_lt_mul (Nat.two_pow_pos _), ← pow_add]
    exact lt_of_lt_of_eq h (by congr 1; omega)
  have hbit := fun i => testBit_chunk last f c (value >>> (bitsLeft - c)) i hc.2.2 hxc
  refine ⟨trivial, Or.inr ⟨init, _, rfl, Nat.le_trans (Nat.sub_le _ _) hf8, ?_⟩, ?_, by omega⟩
  · -- The bits below the chunk were free before and are free now.
    refine Nat.eq_of_testBit_eq fun i => ?_
    rw [Nat.testBit_mod_two_pow, Nat.zero_testBit]
    by_cases hi : i < f - c
    · have hlast : last.toNat.testBit i = false := by
        have := congrArg (Nat.testBit · i) hzero
        simp only [Nat.testBit_mod_two_pow, Nat.zero_testBit] at this
        rwa [decide_eq_true (by omega), Bool.true_and] at this
      rw [hbit i (by omega), hlast, decide_eq_false (by omega : ¬ f - c ≤ i)]
      simp
    · rw [decide_eq_false hi, Bool.false_and]
  · rw [bits_snoc init _ (f - c) (by omega), ← hbits, List.append_assoc]
    congr 1
    have hsplit : 8 - (f - c) = 8 - f + c := by omega
    rw [hsplit, bitsOf_add, ← Nat.shiftRight_add]
    have hfc : f - c + c = f := by omega
    rw [hfc]
    congr 1
    · refine bitsOf_congr _ _ _ fun i hi => ?_
      rw [Nat.testBit_shiftRight, Nat.testBit_shiftRight, hbit (f + i) (by omega),
        decide_eq_false (by omega : ¬ f + i < f)]
      simp
    · refine bitsOf_congr _ _ _ fun i hi => ?_
      have hlast : last.toNat.testBit (f - c + i) = false := by
        have := congrArg (Nat.testBit · (f - c + i)) hzero
        simp only [Nat.testBit_mod_two_pow, Nat.zero_testBit] at this
        rwa [decide_eq_true (by omega), Bool.true_and] at this
      rw [Nat.testBit_shiftRight, hbit (f - c + i) (by omega), hlast,
        decide_eq_true (by omega : f - c ≤ f - c + i), decide_eq_true (by omega : f - c + i < f)]
      simp

theorem writeLoop_spec (fuel : Nat) :
    ∀ (w : BitWriter) (value bitsLeft : Nat), Filled w → bitsLeft ≤ fuel →
      (value < 2 ^ bitsLeft ∨ w.bitsFree = 0) →
      Filled (writeLoop fuel w value bitsLeft) ∧
        (writeLoop fuel w value bitsLeft).bits = w.bits ++ bitsOf bitsLeft value := by
  induction fuel with
  | zero =>
      intro w value bitsLeft hw hle _
      have : bitsLeft = 0 := by omega
      rw [this]
      exact ⟨hw, (List.append_nil _).symm⟩
  | succ fuel ih =>
      intro w value bitsLeft hw hle hv
      unfold writeLoop
      by_cases h0 : bitsLeft = 0
      · rw [if_pos h0, h0]
        exact ⟨hw, (List.append_nil _).symm⟩
      · rw [if_neg h0]
        rcases writeChunk_spec w value bitsLeft hw (by omega) hv with
          ⟨c, hc0, hcle, hleft, hw', hbits, hnext⟩
        simp only [hleft]
        by_cases hdone : bitsLeft - c = 0
        · -- The last chunk: nothing is left to write.
          have hstop : writeLoop fuel (w.writeChunk value bitsLeft).1 value (bitsLeft - c) =
              (w.writeChunk value bitsLeft).1 := by
            rw [hdone]
            cases fuel with
            | zero => rfl
            | succ fuel => unfold writeLoop; rw [if_pos rfl]
          have hceq : c = bitsLeft := by omega
          rw [hstop]
          refine ⟨hw', ?_⟩
          rw [hbits, hceq, Nat.sub_self, Nat.shiftRight_zero]
        · rcases ih _ value (bitsLeft - c) hw' (by omega)
            (Or.inr (hnext.resolve_left hdone)) with ⟨hw'', hbits'⟩
          refine ⟨hw'', ?_⟩
          have hadd : bitsLeft = c + (bitsLeft - c) := by omega
          rw [hbits', hbits, List.append_assoc]
          conv_rhs => rw [hadd, bitsOf_add]

/-- A write appends the low bits of the value. -/
theorem bits_write (w : BitWriter) (value n : Nat) (hw : Filled w) :
    Filled (w.write value n) ∧ (w.write value n).bits = w.bits ++ bitsOf n value := by
  have h := writeLoop_spec n w (value % 2 ^ n) n hw (Nat.le_refl _)
    (Or.inl (Nat.mod_lt _ (Nat.two_pow_pos n)))
  rw [bitsOf_mod] at h
  exact h

/-- The bytes of a writer start with what was written. -/
theorem byteBits_buf (w : BitWriter) : ∃ pad, byteBits w.buf = w.bits ++ pad :=
  ⟨_, (List.take_append_drop _ _).symm⟩

/-! ### The number of bytes -/

/-- The byte under way has a bit in it. -/
def Tight (w : BitWriter) : Prop := w.bitsFree < 8

theorem tight_writeChunk (w : BitWriter) (value bitsLeft : Nat) (hw : w.Tight)
    (hpos : 0 < bitsLeft) : (w.writeChunk value bitsLeft).1.Tight := by
  unfold Tight at *
  unfold writeChunk
  by_cases h0 : w.bitsFree = 0
  · simp only [h0, if_true]
    omega
  · simp only [h0, if_false]
    omega

theorem tight_write (w : BitWriter) (value n : Nat) (hw : w.Tight) : (w.write value n).Tight := by
  have hloop : ∀ (fuel : Nat) (w : BitWriter) (value bitsLeft : Nat), w.Tight →
      (writeLoop fuel w value bitsLeft).Tight := by
    intro fuel
    induction fuel with
    | zero => exact fun w _ _ hw => hw
    | succ fuel ih =>
        intro w value bitsLeft hw
        unfold writeLoop
        by_cases h0 : bitsLeft = 0
        · rw [if_pos h0]
          exact hw
        · rw [if_neg h0]
          exact ih _ _ _ (tight_writeChunk w value bitsLeft hw (by omega))
  exact hloop n w _ n hw

/-- A writer without an empty byte is as long as its bits need. -/
theorem length_buf (w : BitWriter) (hw : w.Filled) (ht : w.Tight) :
    w.buf.length = (w.bits.length + 7) / 8 := by
  unfold Tight at ht
  unfold bits
  rw [List.length_take, length_byteBits]
  rcases hw with ⟨hbuf, hfree⟩ | ⟨init, last, hbuf, _, _⟩
  · rw [hbuf, hfree]
    rfl
  · rw [hbuf, List.length_append, List.length_singleton]
    omega

end BitWriter

/-! ## Reading -/

namespace BitReader

/-- What is left to read. -/
def rest (r : BitReader) : List Bool := bitsOf r.bitAvail r.current.toNat ++ byteBits r.data

/-- The reader is in order and `bs` is what is left to read. -/
structure Reads (r : BitReader) (bs : List Bool) : Prop where
  good : r.error = false
  avail : r.bitAvail ≤ 8
  rest : r.rest = bs

theorem reads_ofBytes (data : List UInt8) : Reads (ofBytes data) (byteBits data) :=
  ⟨rfl, Nat.zero_le _, rfl⟩

/-- With something left to read, there is a byte under way after a refill. -/
theorem reads_refill (r : BitReader) (bs : List Bool) (h : Reads r bs) (hbs : bs ≠ []) :
    ∃ r', r.refill = some r' ∧ Reads r' bs ∧ 0 < r'.bitAvail := by
  unfold refill
  by_cases h0 : r.bitAvail = 0
  · rw [if_pos h0]
    have hrest := h.rest
    unfold rest at hrest
    rw [h0] at hrest
    cases hdata : r.data with
    | nil =>
        rw [hdata] at hrest
        exact absurd hrest.symm hbs
    | cons b data =>
        rw [hdata] at hrest
        exact ⟨_, rfl, ⟨h.good, Nat.le_refl _, hrest⟩, Nat.succ_pos 7⟩
  · rw [if_neg h0]
    exact ⟨r, rfl, h, Nat.pos_of_ne_zero h0⟩

/-- Giving up the top bits of the byte under way. -/
theorem reads_drop (r : BitReader) (bs : List Bool) (h : Reads r bs) (c : Nat)
    (hc : c ≤ r.bitAvail) : Reads { r with bitAvail := r.bitAvail - c } (bs.drop c) := by
  have hbyte : bitsOf r.bitAvail r.current.toNat =
      bitsOf c (r.current.toNat >>> (r.bitAvail - c)) ++
        bitsOf (r.bitAvail - c) r.current.toNat := by
    conv_lhs => rw [show r.bitAvail = c + (r.bitAvail - c) by omega, bitsOf_add]
  refine ⟨h.good, Nat.le_trans (Nat.sub_le _ _) h.avail, ?_⟩
  rw [← h.rest]
  unfold rest
  rw [hbyte, List.append_assoc, List.drop_left' (length_bitsOf c _)]

theorem readLoop_spec (fuel : Nat) :
    ∀ (r : BitReader) (result n : Nat) (bs tail : List Bool), bs.length = n → n ≤ fuel →
      Reads r (bs ++ tail) →
      (readLoop fuel r result n).1 = result * 2 ^ n + natOf bs ∧
        Reads (readLoop fuel r result n).2 tail := by
  induction fuel with
  | zero =>
      intro r result n bs tail hlen hle h
      have hn : n = 0 := by omega
      have hbs : bs = [] := List.length_eq_zero_iff.mp (hlen.trans hn)
      rw [hn, hbs]
      rw [hbs] at h
      exact ⟨by simp [readLoop, natOf], h⟩
  | succ fuel ih =>
      intro r result n bs tail hlen hle h
      unfold readLoop
      by_cases hn : n = 0
      · have hbs : bs = [] := List.length_eq_zero_iff.mp (hlen.trans hn)
        rw [if_pos hn, hn, hbs]
        rw [hbs] at h
        exact ⟨by simp [natOf], h⟩
      · rw [if_neg hn]
        have hne : bs ++ tail ≠ [] := by
          intro hnil
          rw [List.append_eq_nil_iff] at hnil
          rw [hnil.1] at hlen
          exact hn hlen.symm
        rcases reads_refill r (bs ++ tail) h hne with ⟨r', hnext, hreads, hpos⟩
        simp only [hnext]
        -- The chunk is the top of what is left in the byte.
        have hc : min n r'.bitAvail ≤ n ∧ min n r'.bitAvail ≤ r'.bitAvail ∧
            0 < min n r'.bitAvail := by omega
        generalize min n r'.bitAvail = c at hc ⊢
        have hbyte : bitsOf r'.bitAvail r'.current.toNat =
            bitsOf c (r'.current.toNat >>> (r'.bitAvail - c)) ++
              bitsOf (r'.bitAvail - c) r'.current.toNat := by
          conv_lhs => rw [show r'.bitAvail = c + (r'.bitAvail - c) by omega, bitsOf_add]
        have hrest := hreads.rest
        unfold rest at hrest
        rw [hbyte, List.append_assoc] at hrest
        have hsplit : bs = bs.take c ++ bs.drop c := (List.take_append_drop c bs).symm
        have hlen' : (bs.take c).length = c := by
          rw [List.length_take]
          omega
        rw [hsplit, List.append_assoc] at hrest
        have hparts := List.append_inj hrest (by rw [length_bitsOf, hlen'])
        have hval : (r'.current.toNat >>> (r'.bitAvail - c)) &&& (2 ^ c - 1) =
            natOf (bs.take c) := by
          rw [Nat.and_two_pow_sub_one_eq_mod, ← hparts.1, natOf_bitsOf]
        have hlt : natOf (bs.take c) < 2 ^ c := by
          rw [← hparts.1, natOf_bitsOf]
          exact Nat.mod_lt _ (Nat.two_pow_pos c)
        have hdrop : (bs.drop c).length = n - c := by
          rw [List.length_drop, hlen]
        rcases ih { r' with bitAvail := r'.bitAvail - c }
          ((result <<< c) ||| natOf (bs.take c)) (n - c) (bs.drop c) tail hdrop (by omega)
          ⟨hreads.good, Nat.le_trans (Nat.sub_le _ _) hreads.avail, hparts.2⟩ with ⟨hfst, hsnd⟩
        rw [hval]
        refine ⟨?_, hsnd⟩
        have hor : (result <<< c) ||| natOf (bs.take c) = result * 2 ^ c + natOf (bs.take c) := by
          rw [← Nat.shiftLeft_add_eq_or_of_lt hlt, Nat.shiftLeft_eq]
        have hpow : 2 ^ n = 2 ^ c * 2 ^ (n - c) := by
          rw [← pow_add]
          congr 1
          omega
        rw [hfst, hor, hpow]
        conv_rhs => rw [hsplit, natOf_append, hdrop]
        ring

/-- A read takes as many bits off the front and returns what they spell. -/
theorem read_spec (r : BitReader) (bs tail : List Bool) (h : Reads r (bs ++ tail)) :
    (r.read bs.length).1 = natOf bs ∧ Reads (r.read bs.length).2 tail := by
  unfold read
  rw [if_neg (by rw [h.good]; decide)]
  have hloop := readLoop_spec bs.length r 0 bs.length bs tail rfl (Nat.le_refl _) h
  rwa [Nat.zero_mul, Nat.zero_add] at hloop

/-- Reading a field that was written. -/
theorem read_bitsOf (r : BitReader) (n v : Nat) (tail : List Bool)
    (h : Reads r (bitsOf n v ++ tail)) :
    (r.read n).1 = v % 2 ^ n ∧ Reads (r.read n).2 tail := by
  have hread := read_spec r (bitsOf n v) tail h
  rwa [length_bitsOf, natOf_bitsOf] at hread

/-! ### Running out -/

theorem length_rest (r : BitReader) (bs : List Bool) (h : Reads r bs) :
    bs.length = r.bitAvail + 8 * r.data.length := by
  rw [← h.rest]
  unfold rest
  rw [List.length_append, length_bitsOf, length_byteBits]

theorem refill_none (r : BitReader) (h : Reads r []) : r.refill = none := by
  have hlen := r.length_rest [] h
  rw [List.length_nil] at hlen
  have hdata : r.data = [] := List.length_eq_zero_iff.mp (by omega)
  unfold refill
  rw [if_pos (by omega), hdata]

theorem readLoop_starved (fuel : Nat) :
    ∀ (r : BitReader) (result n : Nat) (bs : List Bool), Reads r bs → bs.length < n →
      n ≤ fuel → (readLoop fuel r result n).2.error = true := by
  induction fuel with
  | zero =>
      intro r result n bs _ hlt hle
      omega
  | succ fuel ih =>
      intro r result n bs h hlt hle
      unfold readLoop
      rw [if_neg (by omega)]
      by_cases hbs : bs = []
      · rw [hbs] at h
        simp only [r.refill_none h]
      · rcases reads_refill r bs h hbs with ⟨r', hnext, hreads, hpos⟩
        simp only [hnext]
        have hc : min n r'.bitAvail ≤ r'.bitAvail ∧ 0 < min n r'.bitAvail := by omega
        generalize min n r'.bitAvail = c at hc ⊢
        have hlen := r'.length_rest bs hreads
        refine ih _ _ (n - c) (bs.drop c) (r'.reads_drop bs hreads c hc.1) ?_ (by omega)
        rw [List.length_drop]
        omega

/-- A read of more than is left fails. -/
theorem read_starved (r : BitReader) (n : Nat) (bs : List Bool) (h : Reads r bs)
    (hlt : bs.length < n) : (r.read n).2.error = true := by
  unfold read
  rw [if_neg (by rw [h.good]; decide)]
  exact readLoop_starved n r 0 n bs h hlt (Nat.le_refl n)

/-- A failed reader stays failed. -/
theorem read_error (r : BitReader) (n : Nat) (h : r.error = true) :
    (r.read n).2.error = true := by
  unfold read
  rw [if_pos h]
  exact h

end BitReader

/-! ## The versioned buffer -/

namespace ReadBuffer

/-- The buffer is good and `bs` is what is left to read. -/
structure Reads (rb : ReadBuffer) (bs : List Bool) : Prop where
  version : rb.versionMismatch = false
  reader : rb.reader.Reads bs

theorem Reads.isGood {rb : ReadBuffer} {bs : List Bool} (h : rb.Reads bs) : rb.isGood = true := by
  unfold ReadBuffer.isGood
  rw [h.reader.good, h.version]
  rfl

/-- Reading a field that was written. -/
theorem readBits_bitsOf (rb : ReadBuffer) (n v : Nat) (tail : List Bool)
    (h : rb.Reads (bitsOf n v ++ tail)) :
    (rb.readBits n).1 = v % 2 ^ n ∧ (rb.readBits n).2.Reads tail := by
  rcases BitReader.read_bitsOf rb.reader n v tail h.reader with ⟨hval, hrest⟩
  exact ⟨hval, h.version, hrest⟩

/-- A buffer that was written after its version header opens after it. -/
theorem reads_ofBytes (data : List UInt8) (tail : List Bool)
    (h : byteBits data = bitsOf 32 protocolVersion ++ tail) : (ofBytes data).Reads tail := by
  have hread := BitReader.read_bitsOf (BitReader.ofBytes data) 32 protocolVersion tail
    (h ▸ BitReader.reads_ofBytes data)
  refine ⟨?_, hread.2⟩
  unfold ofBytes
  simp only [hread.1]
  decide

end ReadBuffer

/-- What a writer holds once the version header is written. -/
theorem WriteBuffer.fresh_spec :
    WriteBuffer.fresh.Filled ∧ WriteBuffer.fresh.bits = bitsOf 32 protocolVersion := by
  have h := BitWriter.bits_write BitWriter.fresh protocolVersion 32 BitWriter.fresh_filled
  rwa [BitWriter.bits_fresh, List.nil_append] at h

/-! ## Codecs -/

/-- `f` appends `bs` to what has been written. -/
def Appends (f : BitWriter → BitWriter) (bs : List Bool) : Prop :=
  ∀ w : BitWriter, w.Filled → (f w).Filled ∧ (f w).bits = w.bits ++ bs

/-- `g` takes `bs` off the front and returns `a`. -/
def Parses {α : Type} (g : ReadBuffer → α × ReadBuffer) (bs : List Bool) (a : α) : Prop :=
  ∀ (rb : ReadBuffer) (tail : List Bool), rb.Reads (bs ++ tail) →
    (g rb).1 = a ∧ (g rb).2.Reads tail

/-- What `f` writes, `g` reads back as `a`, wherever in a byte it starts. -/
def Carries {α : Type} (f : BitWriter → BitWriter) (g : ReadBuffer → α × ReadBuffer)
    (a : α) : Prop := ∃ bs, Appends f bs ∧ Parses g bs a

variable {α : Type}

theorem Parses.eq {g : ReadBuffer → α × ReadBuffer} {bs : List Bool} {a : α}
    (hg : Parses g bs a) (rb : ReadBuffer) (tail : List Bool) (h : rb.Reads (bs ++ tail)) :
    ∃ rb', g rb = (a, rb') ∧ rb'.Reads tail := by
  rcases hg rb tail h with ⟨hval, hrest⟩
  exact ⟨(g rb).2, Prod.ext hval rfl, hrest⟩

theorem Appends.comp {f g : BitWriter → BitWriter} {bs cs : List Bool} (hf : Appends f bs)
    (hg : Appends g cs) : Appends (fun w => g (f w)) (bs ++ cs) := by
  intro w hw
  rcases hf w hw with ⟨hw', hbits⟩
  rcases hg (f w) hw' with ⟨hw'', hbits'⟩
  exact ⟨hw'', by rw [hbits', hbits, List.append_assoc]⟩

theorem Appends.eq_bits {f : BitWriter → BitWriter} {bs : List Bool} (h : Appends f bs) :
    (f BitWriter.fresh).bits = bs := by
  have hbits := (h BitWriter.fresh BitWriter.fresh_filled).2
  rwa [BitWriter.bits_fresh, List.nil_append] at hbits

theorem appends_id : Appends (fun w => w) [] := fun _ hw => ⟨hw, (List.append_nil _).symm⟩

theorem appends_write (n v : Nat) : Appends (fun w => w.write v n) (bitsOf n v) :=
  fun w hw => BitWriter.bits_write w v n hw

theorem parses_readBits (n v : Nat) :
    Parses (fun rb => rb.readBits n) (bitsOf n v) (v % 2 ^ n) :=
  fun rb tail h => ReadBuffer.readBits_bitsOf rb n v tail h

/-- A field of fixed width, converted on both sides. -/
theorem carries_field (n v : Nat) (conv : Nat → α) :
    Carries (fun w => w.write v n) (fun rb => (conv (rb.readBits n).1, (rb.readBits n).2))
      (conv (v % 2 ^ n)) := by
  refine ⟨bitsOf n v, appends_write n v, fun rb tail h => ?_⟩
  rcases parses_readBits n v rb tail h with ⟨hval, hrest⟩
  exact ⟨congrArg conv hval, hrest⟩

/-! ## Truncated input -/

/-- The buffer has failed, or has fewer than `k` bits left. -/
def Lacks (rb : ReadBuffer) (k : Nat) : Prop :=
  rb.reader.error = true ∨ ∃ bs, rb.Reads bs ∧ bs.length < k

/-- `g` takes `k` bits off the front, whatever they are, and fails without them. -/
structure Takes {α : Type} (g : ReadBuffer → α × ReadBuffer) (k : Nat) : Prop where
  failed : ∀ rb : ReadBuffer, rb.reader.error = true → (g rb).2.reader.error = true
  short : ∀ (rb : ReadBuffer) (bs : List Bool), rb.Reads bs → bs.length < k →
    (g rb).2.reader.error = true
  enough : ∀ (rb : ReadBuffer) (bs : List Bool), rb.Reads bs → k ≤ bs.length →
    (g rb).2.Reads (bs.drop k)

variable {rb : ReadBuffer}

theorem Lacks.failed (h : Lacks rb 0) : rb.reader.error = true := by
  rcases h with h | ⟨bs, _, hlt⟩
  · exact h
  · omega

theorem Lacks.bad (h : Lacks rb 0) : rb.isGood = false := by
  unfold ReadBuffer.isGood
  rw [h.failed]
  rfl

/-- Taking what is there leaves the same shortage behind. -/
theorem Takes.lacks {g : ReadBuffer → α × ReadBuffer} {k l : Nat} (hg : Takes g k)
    (h : Lacks rb (k + l)) : Lacks (g rb).2 l := by
  rcases h with h | ⟨bs, hrb, hlt⟩
  · exact Or.inl (hg.failed rb h)
  · by_cases hk : k ≤ bs.length
    · refine Or.inr ⟨bs.drop k, hg.enough rb bs hrb hk, ?_⟩
      rw [List.length_drop]
      omega
    · exact Or.inl (hg.short rb bs hrb (by omega))

/-- A field of fixed width, whatever is made of its value. -/
theorem takes_field (n : Nat) (conv : Nat → α) :
    Takes (fun rb => (conv (rb.readBits n).1, (rb.readBits n).2)) n where
  failed rb h := BitReader.read_error rb.reader n h
  short rb bs hrb hlt := BitReader.read_starved rb.reader n bs hrb.reader hlt
  enough rb bs hrb hle := by
    have hsplit : bs = bs.take n ++ bs.drop n := (List.take_append_drop n bs).symm
    have hlen : (bs.take n).length = n := by
      rw [List.length_take]
      omega
    have hreader := hrb.reader
    rw [hsplit] at hreader
    have hread := (BitReader.read_spec rb.reader _ _ hreader).2
    rw [hlen] at hread
    exact ⟨hrb.version, hread⟩

/-- Taking one after the other. -/
theorem Takes.comp {α β γ : Type} {f : ReadBuffer → α × ReadBuffer}
    {g : ReadBuffer → β × ReadBuffer} {k l : Nat} (hf : Takes f k) (hg : Takes g l)
    (join : α → β → γ) :
    Takes (fun rb => (join (f rb).1 (g (f rb).2).1, (g (f rb).2).2)) (k + l) where
  failed rb h := hg.failed _ (hf.failed rb h)
  short rb bs hrb hlt := (hg.lacks (hf.lacks (Or.inr ⟨bs, hrb, hlt⟩) : Lacks _ (l + 0))).failed
  enough rb bs hrb hle := by
    have h1 := hf.enough rb bs hrb (by omega)
    have h2 := hg.enough _ _ h1 (by rw [List.length_drop]; omega)
    rwa [List.drop_drop] at h2

end Serde

end EarthRise
