import EarthRise.Core.Pbkdf2
import EarthRise.Lib.Sha512
import Mathlib.Tactic.IntervalCases

/-!
# The Password Hash and its Standards

The hash on bytes and machine words is the hash on strings of bits: bytes that are shifted into a
word are the bits of the word, zeros that are pushed byte by byte are as few as can be, and the two
tables are the roots they should be. From there on the layers only pass the equality on.

The key is that of the standard as long as the counter of the blocks can pass its bound. With as
many blocks as the counter has values it cannot, and the loop never ends.

## Theorems

* `toBits_padMessage`: Padding of bytes is padding of bits.
* `roundKeys_eq`, `startWords_eq`: The tables.
* `compress_eq`, `sha512Hash_eq`, `hmacSha512_eq`: The layers.
* `pbkdf2Blocks_run`, `pbkdf2Blocks_spins`: The loop that ends and the loop that does not.
* `pbkdf2_standard_iff`: When the key is that of the standard.
-/

namespace EarthRise

namespace Crypto

open Bits Standards

/-! ## Words and bytes -/

/-- A byte that is shifted in is added, up to the size of a word. -/
theorem toNat_shiftIn (w : UInt64) (b : UInt8) :
    ((w <<< 8) ||| b.toUInt64).toNat = (256 * w.toNat + b.toNat) % 2 ^ 64 := by
  have hb : b.toNat < 2 ^ 8 := b.toNat_lt
  have hshift : (w <<< 8).toNat = (w.toNat % 2 ^ 56) <<< 8 := by
    rw [UInt64.toNat_shiftLeft, Nat.shiftLeft_eq, Nat.shiftLeft_eq,
      show (8 : UInt64).toNat % 64 = 8 from rfl]
    omega
  rw [UInt64.toNat_or, hshift, UInt8.toNat_toUInt64, ← Nat.shiftLeft_add_eq_or_of_lt hb,
    Nat.shiftLeft_eq]
  omega

theorem foldl_shiftIn (l : List UInt8) (w : UInt64) (n : Nat) (h : w.toNat = n % 2 ^ 64) :
    (l.foldl (fun (w : UInt64) b => (w <<< 8) ||| b.toUInt64) w).toNat =
      l.foldl (fun n b => 256 * n + b.toNat) n % 2 ^ 64 := by
  induction l generalizing w n with
  | nil => exact h
  | cons b l ih =>
      refine ih _ _ ?_
      change _ = (256 * n + b.toNat) % 2 ^ 64
      rw [toNat_shiftIn, h]
      omega

/-- A word that is loaded is the bits of its bytes. -/
theorem toBitVec_loadWord (p : List UInt8) (i : Nat) :
    (loadWord p i).toBitVec = word (toBits ((p.drop (i * 8)).take 8)) := by
  apply BitVec.eq_of_toNat_eq
  unfold loadWord word
  rw [natOf_toBits, BitVec.toNat_ofNat, UInt64.toNat_toBitVec]
  exact foldl_shiftIn _ 0 0 rfl

theorem toNat_storedByte (x i : UInt64) (hi : i.toNat < 64) :
    (x >>> i).toUInt8.toNat = x.toNat / 2 ^ i.toNat % 2 ^ 8 := by
  rw [UInt64.toNat_toUInt8, UInt64.toNat_shiftRight, Nat.mod_eq_of_lt hi, Nat.shiftRight_eq_div_pow]

theorem storeWord_eq (x : UInt64) : storeWord x = wordBytes x.toBitVec := by
  have hbyte (i : UInt64) (hi : i.toNat < 64) :
      (x >>> i).toUInt8 = UInt8.ofBitVec (x.toBitVec.extractLsb' i.toNat 8) := by
    apply UInt8.toNat.inj
    rw [toNat_storedByte x i hi, UInt8.toNat_ofBitVec, BitVec.extractLsb'_toNat,
      UInt64.toNat_toBitVec, Nat.shiftRight_eq_div_pow]
  unfold storeWord wordBytes
  simp only [List.map_cons, List.map_nil]
  rw [hbyte (7 * 8) (by decide), hbyte (6 * 8) (by decide), hbyte (5 * 8) (by decide),
    hbyte (4 * 8) (by decide), hbyte (3 * 8) (by decide), hbyte (2 * 8) (by decide),
    hbyte (1 * 8) (by decide), hbyte (0 * 8) (by decide)]
  rfl

/-- The bits of the bytes of a word are the bits of its number. -/
theorem toBits_storeWord (x : UInt64) : toBits (storeWord x) = bitsOf 64 x.toNat := by
  have hbyte (i : UInt64) (hi : i.toNat < 64) :
      bitsOf 8 (x >>> i).toUInt8.toNat = bitsOf 8 (x.toNat >>> i.toNat) := by
    rw [toNat_storedByte x i hi, ← Nat.shiftRight_eq_div_pow, bitsOf_mod]
  unfold storeWord
  simp only [List.map_cons, List.map_nil, toBits_cons]
  rw [hbyte (7 * 8) (by decide), hbyte (6 * 8) (by decide), hbyte (5 * 8) (by decide),
    hbyte (4 * 8) (by decide), hbyte (3 * 8) (by decide), hbyte (2 * 8) (by decide),
    hbyte (1 * 8) (by decide), hbyte (0 * 8) (by decide)]
  -- A byte after the other is split off at the front.
  rw [show bitsOf 64 x.toNat = _ from bitsOf_add 8 56 x.toNat,
    show bitsOf 56 x.toNat = _ from bitsOf_add 8 48 x.toNat,
    show bitsOf 48 x.toNat = _ from bitsOf_add 8 40 x.toNat,
    show bitsOf 40 x.toNat = _ from bitsOf_add 8 32 x.toNat,
    show bitsOf 32 x.toNat = _ from bitsOf_add 8 24 x.toNat,
    show bitsOf 24 x.toNat = _ from bitsOf_add 8 16 x.toNat,
    show bitsOf 16 x.toNat = _ from bitsOf_add 8 8 x.toNat,
    show bitsOf 8 x.toNat = _ from bitsOf_add 8 0 x.toNat]
  rfl

/-! ## Padding -/

/-- How many zeros there are room for. -/
theorem padZeros_eq (data : List UInt8) :
    padZeros data = data ++ List.replicate ((128 + 112 - data.length % 128) % 128) 0 := by
  induction data using padZeros.induct with
  | case1 data h ih =>
      unfold blockSize at h
      rw [padZeros, blockSize, if_pos h, ih, List.append_assoc, List.singleton_append,
        ← List.replicate_succ, List.length_append, List.length_singleton]
      congr 2
      omega
  | case2 data h =>
      have h112 : data.length % 128 = 112 := Decidable.not_not.mp h
      rw [padZeros, blockSize, if_neg (by rw [h112]; exact not_not.mpr rfl), h112]
      exact (List.append_nil data).symm

/-- The number of zeros is the smallest one. -/
theorem find_zeros {len n : Nat} (h : len = 8 * n) :
    Nat.find (exists_zeros len) = 8 * ((128 + 112 - (n + 1) % 128) % 128) + 7 := by
  rw [Nat.find_eq_iff]
  exact ⟨by omega, fun k hk => by omega⟩

/-- Padding of bytes is padding of bits. -/
theorem toBits_padMessage (msg : List UInt8) (h : msg.length < 2 ^ 61) :
    toBits (padMessage msg) = pad (toBits msg) := by
  have hlen : (UInt64.ofNat msg.length * 8).toNat = 8 * msg.length := by
    rw [UInt64.toNat_mul, UInt64.toNat_ofNat']
    change msg.length % 2 ^ 64 * 8 % 2 ^ 64 = 8 * msg.length
    omega
  have hlength : bitsOf 128 (8 * msg.length) =
      List.replicate 64 false ++ bitsOf 64 (8 * msg.length) := by
    rw [show bitsOf 128 (8 * msg.length) = _ from bitsOf_add 64 64 _,
      Nat.shiftRight_eq_div_pow, Nat.div_eq_of_lt (by omega), bitsOf_zero]
  have hone : toBits [0x80] = [true] ++ List.replicate 7 false := rfl
  unfold padMessage pad
  rw [padZeros_eq, List.length_append, List.length_singleton, toBits_append, toBits_append,
    toBits_append, toBits_append, toBits_storeWord, hlen, toBits_replicate_zero,
    toBits_replicate_zero, hone, find_zeros (length_toBits msg), length_toBits, hlength]
  simp only [List.append_assoc, List.append_cancel_left_eq]
  rw [← List.append_assoc (List.replicate 7 false), List.replicate_append_replicate,
    Nat.add_comm 7]

theorem length_padMessage (msg : List UInt8) : (padMessage msg).length % 128 = 0 := by
  unfold padMessage
  rw [padZeros_eq]
  simp only [List.length_append, List.length_replicate, storeWord, List.length_map,
    List.length_cons, List.length_nil]
  omega

/-! ## The tables -/

/-- Whether a number below 441 is prime: it has no factor below 21. -/
def primeTest (n : Nat) : Bool :=
  2 ≤ n && (List.range 21).all fun m => m < 2 || n ≤ m || n % m != 0

theorem primeTest_iff {n : Nat} (h : n < 441) : n.Prime ↔ primeTest n = true := by
  unfold primeTest
  rw [Bool.and_eq_true, decide_eq_true_eq, List.all_eq_true]
  constructor
  · intro hp
    refine ⟨hp.two_le, fun m _ => ?_⟩
    simp only [Bool.or_eq_true, decide_eq_true_eq, bne_iff_ne, ne_eq]
    by_contra hno
    have hdvd : m ∣ n := Nat.dvd_of_mod_eq_zero (by omega)
    have hm := (Nat.dvd_prime hp).mp hdvd
    omega
  · rintro ⟨htwo, hall⟩
    refine Nat.prime_def_le_sqrt.mpr ⟨htwo, fun m hm hsqrt hdvd => ?_⟩
    -- A factor up to the square root is among those that were tried.
    have hsmall : Nat.sqrt n < 21 := Nat.sqrt_lt.mpr h
    have hless : Nat.sqrt n < n := Nat.sqrt_lt_self htwo
    have htried := hall m (List.mem_range.mpr (by omega))
    simp only [Bool.or_eq_true, decide_eq_true_eq, bne_iff_ne, ne_eq] at htried
    have hmod := Nat.mod_eq_zero_of_dvd hdvd
    omega

/-- Whether a word is the beginning of the fractional part of a root. -/
def isRoot (degree n : Nat) (x : UInt64) : Bool :=
  (List.range 21).any fun c =>
    (c * 2 ^ 64 + x.toNat) ^ degree ≤ n * 2 ^ (64 * degree) &&
      n * 2 ^ (64 * degree) < (c * 2 ^ 64 + x.toNat + 1) ^ degree

theorem rootBits_of_isRoot {degree n : Nat} {x : UInt64} (h : isRoot degree n x = true) :
    x.toBitVec = rootBits degree n := by
  rcases List.any_eq_true.mp h with ⟨c, _, hc⟩
  rcases (Bool.and_eq_true _ _).mp hc with ⟨hlow, hhigh⟩
  rw [rootBits_eq (of_decide_eq_true hlow) (of_decide_eq_true hhigh)]
  apply BitVec.eq_of_toNat_eq
  rw [BitVec.toNat_ofNat, Nat.mul_add_mod_self_right, UInt64.toNat_toBitVec,
    Nat.mod_eq_of_lt x.toNat_lt]

/-- Whether a word is made from the prime of its place. -/
def rootOfPrime (degree : Nat) (table : List UInt64) (t : Nat) : Bool :=
  match ((List.range 410).filter primeTest)[t]? with
  | some n => isRoot degree n (table.getD t 0)
  | none => false

variable {t : Nat}

theorem rootBits_of_rootOfPrime {degree : Nat} {table : List UInt64}
    (h : rootOfPrime degree table t = true) :
    (table.getD t 0).toBitVec = rootBits degree (Nat.nth Nat.Prime t) := by
  unfold rootOfPrime at h
  cases hn : ((List.range 410).filter primeTest)[t]? with
  | none =>
      rw [hn] at h
      exact absurd h Bool.false_ne_true
  | some n =>
      rw [hn] at h
      have hprimes : (List.range 410).filter primeTest =
          (List.range 410).filter (fun n => decide n.Prime) :=
        List.filter_congr fun n hn => by
          have hlt := List.mem_range.mp hn
          rw [Bool.eq_iff_iff, decide_eq_true_eq]
          exact (primeTest_iff (by omega)).symm
      rw [nth_of_filter (hprimes ▸ hn)]
      exact rootBits_of_isRoot h

theorem roundKeys_eq (h : t < 80) :
    (roundKeys.getD t 0).toBitVec = roundConstant t := by
  have hall : (List.range 80).all (rootOfPrime 3 roundKeys) = true := by decide
  exact rootBits_of_rootOfPrime (List.all_eq_true.mp hall t (List.mem_range.mpr h))

/-- The words in the order of the standard. -/
def Sha512Words.toWords (v : Sha512Words) : Words :=
  ⟨v.a.toBitVec, v.b.toBitVec, v.c.toBitVec, v.d.toBitVec, v.e.toBitVec, v.f.toBitVec,
    v.g.toBitVec, v.hh.toBitVec⟩

theorem startWords_eq : startWords.toWords = initial := by
  have hall : (List.range 8).all (rootOfPrime 2 [startWords.a, startWords.b, startWords.c,
      startWords.d, startWords.e, startWords.f, startWords.g, startWords.hh]) = true := by decide
  have hroot {j : Nat} (hj : j < 8) :=
    rootBits_of_rootOfPrime (List.all_eq_true.mp hall j (List.mem_range.mpr hj))
  exact Words.ext (hroot (j := 0) (by decide)) (hroot (j := 1) (by decide))
    (hroot (j := 2) (by decide)) (hroot (j := 3) (by decide)) (hroot (j := 4) (by decide))
    (hroot (j := 5) (by decide)) (hroot (j := 6) (by decide)) (hroot (j := 7) (by decide))

/-! ## Compression -/

theorem toBitVec_ror (x n : UInt64) (hpos : 0 < n.toNat) (hn : n.toNat < 64) :
    (ror x n).toBitVec = rotr n.toNat x.toBitVec := by
  have hleft : (64 - n).toNat % 64 = 64 - n.toNat := by
    rw [UInt64.toNat_sub]
    change (2 ^ 64 - n.toNat + 64) % 2 ^ 64 % 64 = 64 - n.toNat
    omega
  apply BitVec.eq_of_toNat_eq
  unfold ror rotr
  rw [BitVec.rotateRight_def, BitVec.toNat_or, UInt64.toNat_toBitVec, UInt64.toNat_or,
    UInt64.toNat_shiftRight, UInt64.toNat_shiftLeft, hleft, Nat.mod_eq_of_lt hn,
    BitVec.toNat_ushiftRight, BitVec.toNat_shiftLeft, UInt64.toNat_toBitVec]

theorem toBitVec_smallSigma0 (x : UInt64) :
    (ror x 1 ^^^ ror x 8 ^^^ (x >>> 7)).toBitVec = smallSigma0 x.toBitVec := by
  rw [UInt64.toBitVec_xor, UInt64.toBitVec_xor, toBitVec_ror x 1 (by decide) (by decide),
    toBitVec_ror x 8 (by decide) (by decide)]
  rfl

theorem toBitVec_smallSigma1 (x : UInt64) :
    (ror x 19 ^^^ ror x 61 ^^^ (x >>> 6)).toBitVec = smallSigma1 x.toBitVec := by
  rw [UInt64.toBitVec_xor, UInt64.toBitVec_xor, toBitVec_ror x 19 (by decide) (by decide),
    toBitVec_ror x 61 (by decide) (by decide)]
  rfl

theorem toBitVec_bigSigma0 (x : UInt64) :
    (ror x 28 ^^^ ror x 34 ^^^ ror x 39).toBitVec = bigSigma0 x.toBitVec := by
  rw [UInt64.toBitVec_xor, UInt64.toBitVec_xor, toBitVec_ror x 28 (by decide) (by decide),
    toBitVec_ror x 34 (by decide) (by decide), toBitVec_ror x 39 (by decide) (by decide)]
  rfl

theorem toBitVec_bigSigma1 (x : UInt64) :
    (ror x 14 ^^^ ror x 18 ^^^ ror x 41).toBitVec = bigSigma1 x.toBitVec := by
  rw [UInt64.toBitVec_xor, UInt64.toBitVec_xor, toBitVec_ror x 14 (by decide) (by decide),
    toBitVec_ror x 18 (by decide) (by decide), toBitVec_ror x 41 (by decide) (by decide)]
  rfl

variable {block : Nat → BitVec 64} {p : List UInt8}

/-- The next word is that of the standard if those before it are. -/
theorem toBitVec_nextWord {w : List UInt64} {i : Nat} (hi : 16 ≤ i)
    (hw : ∀ t < i, (w.getD t 0).toBitVec = schedule block t) :
    (nextWord w i).toBitVec = schedule block i := by
  unfold nextWord
  rw [schedule, if_neg (Nat.not_lt.mpr hi), UInt64.toBitVec_add, UInt64.toBitVec_add,
    UInt64.toBitVec_add, toBitVec_smallSigma0, toBitVec_smallSigma1, hw (i - 16) (by omega),
    hw (i - 15) (by omega), hw (i - 7) (by omega), hw (i - 2) (by omega)]
  ac_rfl

theorem expandBlock_run
    (hblock : ∀ j < 16, (loadWord p j).toBitVec = block j) (n : Nat) :
    let w := (List.range' 16 n).foldl (fun w i => w ++ [nextWord w i])
      ((List.range 16).map (loadWord p))
    w.length = 16 + n ∧ ∀ t < 16 + n, (w.getD t 0).toBitVec = schedule block t := by
  induction n with
  | zero =>
      refine ⟨rfl, fun t ht => ?_⟩
      rw [schedule, if_pos ht, ← hblock t ht, List.range'_zero, List.foldl_nil,
        List.getD_eq_getElem?_getD, List.getElem?_map, List.getElem?_range ht]
      rfl
  | succ n ih =>
      rcases ih with ⟨hlength, hall⟩
      simp only [List.range'_concat, List.foldl_append, List.foldl_cons, List.foldl_nil,
        Nat.one_mul]
      refine ⟨by rw [List.length_append, hlength, List.length_singleton, Nat.add_assoc],
        fun t ht => ?_⟩
      by_cases hold : t < 16 + n
      · rw [List.getD_append _ _ _ _ (by rw [hlength]; exact hold)]
        exact hall t hold
      · -- The word that was pushed.
        have hnew : t = 16 + n := by omega
        rw [List.getD_append_right _ _ _ _ (by rw [hlength]; omega), hlength, hnew, Nat.sub_self]
        exact toBitVec_nextWord (Nat.le_add_right 16 n) hall

/-- The words of a block and those that are made from them. -/
theorem toBitVec_expandBlock
    (hblock : ∀ j < 16, (loadWord p j).toBitVec = block j) (ht : t < 80) :
    ((expandBlock p).getD t 0).toBitVec = schedule block t :=
  (expandBlock_run hblock 64).2 t ht

theorem toWords_compressRound {w : List UInt64} {W : Nat → BitVec 64} (ht : t < 80)
    (hw : (w.getD t 0).toBitVec = W t) (v : Sha512Words) :
    (compressRound w v t).toWords = Standards.round W v.toWords t := by
  unfold compressRound Standards.round
  simp only [Sha512Words.toWords, UInt64.toBitVec_add, toBitVec_bigSigma0, toBitVec_bigSigma1, hw,
    roundKeys_eq ht]
  rfl

/-- A block is mixed in as the standard says. -/
theorem compress_eq (h : Sha512Words)
    (hblock : ∀ j < 16, (loadWord p j).toBitVec = block j) :
    (compress h p).toWords = Standards.compress h.toWords block := by
  have hrounds (n : Nat) (hn : n ≤ 80) :
      ((List.range n).foldl (compressRound (expandBlock p)) h).toWords =
        (List.range n).foldl (Standards.round (schedule block)) h.toWords := by
    induction n with
    | zero => rfl
    | succ n ih =>
        rw [List.range_succ, List.foldl_append, List.foldl_append, List.foldl_cons,
          List.foldl_nil, List.foldl_cons, List.foldl_nil,
          toWords_compressRound hn (toBitVec_expandBlock hblock hn), ih (Nat.le_of_succ_le hn)]
  unfold compress Standards.compress
  rw [← hrounds 80 le_rfl]
  simp only [Sha512Words.toWords, UInt64.toBitVec_add, BitVec.add_comm]

theorem toBytes_eq (h : Sha512Words) : h.toBytes = h.toWords.digest := by
  unfold Sha512Words.toBytes Words.digest
  simp only [List.flatMap_cons, List.flatMap_nil, storeWord_eq]
  rfl

/-- The words of a block are read where the bits of the block are. -/
theorem toBitVec_loadBlock (data : List UInt8) (i : Nat) {j : Nat} (hj : j < 16) :
    (loadWord ((data.drop (0 + 128 * i)).take 128) j).toBitVec = blockWord (toBits data) i j := by
  have hwhere : (((data.drop (0 + 128 * i)).take 128).drop (j * 8)).take 8 =
      (data.drop (128 * i + 8 * j)).take 8 := by
    rw [List.drop_take, List.take_take, List.drop_drop]
    congr 1
    · omega
    · congr 1
      omega
  rw [toBitVec_loadWord, hwhere, toBits_take, toBits_drop, blockWord]
  congr 3
  omega

/-- The hash of a message is that of the standard. -/
theorem sha512Hash_eq (msg : List UInt8) (h : msg.length < 2 ^ 61) :
    sha512Hash msg = sha512 msg := by
  have hwhole := length_padMessage msg
  have hblocks (data : List UInt8) (n : Nat) :
      ((List.range' 0 n 128).foldl (fun h off => compress h ((data.drop off).take 128))
        startWords).toWords =
        (List.range n).foldl (fun H i => Standards.compress H (blockWord (toBits data) i))
          initial := by
    induction n with
    | zero => exact startWords_eq
    | succ n ih =>
        rw [List.range'_concat, List.range_succ, List.foldl_append, List.foldl_append,
          List.foldl_cons, List.foldl_nil, List.foldl_cons, List.foldl_nil,
          compress_eq _ fun j hj => toBitVec_loadBlock data n hj, ih]
  have hcount : ((padMessage msg).length + 128 - 1) / 128 =
      (toBits (padMessage msg)).length / 1024 := by
    rw [length_toBits]
    omega
  unfold sha512Hash sha512 blockSize
  simp only
  rw [← toBits_padMessage msg h, toBytes_eq, hblocks, hcount]

/-! ## HMAC -/

@[simp] theorem length_sha512 (msg : List UInt8) : (sha512 msg).length = 64 :=
  Words.length_digest _

/-- The hash with a key, for what can be hashed behind a block. -/
theorem hmacSha512_eq {key msg : List UInt8} (hkey : key.length < 2 ^ 61)
    (hmsg : 128 + msg.length < 2 ^ 61) : hmacSha512 key msg = hmac sha512 128 key msg := by
  have hk0 : copyInto (List.replicate 128 0)
      (if key.length > 128 then sha512Hash key else key) = hmacKey sha512 128 key := by
    unfold copyInto hmacKey List.rightpad
    rw [List.drop_replicate, sha512Hash_eq key hkey]
  have hlength : (hmacKey sha512 128 key).length = 128 := by
    unfold hmacKey
    rw [List.length_rightpad]
    split
    · rw [length_sha512]
      rfl
    · omega
  unfold hmacSha512 hmac blockSize
  simp only
  have hinner : ((hmacKey sha512 128 key).map (· ^^^ 0x36) ++ msg).length < 2 ^ 61 := by
    rw [List.length_append, List.length_map, hlength]
    exact hmsg
  rw [hk0, sha512Hash_eq _ hinner, sha512Hash_eq]
  rw [List.length_append, List.length_map, hlength, length_sha512]
  decide

@[simp] theorem length_hmac (key msg : List UInt8) : (hmac sha512 128 key msg).length = 64 :=
  length_sha512 _

/-! ## PBKDF2 -/

section

variable {password salt : List UInt8} (hpassword : password.length < 2 ^ 61)

include hpassword

/-- Every result can be hashed again. -/
theorem hmacSha512_iterate (i j : Nat) :
    hmacSha512 password (iterate (hmac sha512 128) password salt i j) =
      iterate (hmac sha512 128) password salt i (j + 1) := by
  have hlength : (iterate (hmac sha512 128) password salt i j).length = 64 := by
    cases j with
    | zero => exact length_hmac _ _
    | succ j => exact length_hmac _ _
  exact hmacSha512_eq hpassword (by rw [hlength]; decide)

theorem pbkdf2Rounds_eq (i n j : Nat) (t : List UInt8) :
    pbkdf2Rounds password n (iterate (hmac sha512 128) password salt i j) t =
      ((List.range n).map fun k =>
        iterate (hmac sha512 128) password salt i (j + k + 1)).foldl xorBytes t := by
  induction n generalizing j t with
  | zero => rfl
  | succ n ih =>
      rw [pbkdf2Rounds, hmacSha512_iterate hpassword, ih, List.range_succ_eq_map,
        List.map_cons, List.foldl_cons, List.map_map]
      have hshift (k : Nat) : j + 1 + k + 1 = j + (k + 1) + 1 := by omega
      simp only [hshift]
      rfl

variable (hsalt : 128 + (salt.length + 4) < 2 ^ 61)

include hsalt

theorem pbkdf2Block_eq (iterations i : UInt32) :
    pbkdf2Block password salt iterations i =
      mix (hmac sha512 128) password salt iterations.toNat i.toNat := by
  have hint : [(i >>> 24).toUInt8, (i >>> 16).toUInt8, (i >>> 8).toUInt8, i.toUInt8] =
      Standards.int i.toNat := by
    have hbyte (k : UInt32) (hk : k.toNat < 32) :
        (i >>> k).toUInt8 = UInt8.ofNat (i.toNat >>> k.toNat) := by
      apply UInt8.toNat.inj
      rw [UInt32.toNat_toUInt8, UInt32.toNat_shiftRight, Nat.mod_eq_of_lt hk, UInt8.toNat_ofNat']
    unfold Standards.int
    rw [hbyte 24 (by decide), hbyte 16 (by decide), hbyte 8 (by decide)]
    rfl
  have hfirst : hmacSha512 password (salt ++ Standards.int i.toNat) =
      iterate (hmac sha512 128) password salt i.toNat 0 :=
    hmacSha512_eq hpassword (by rw [List.length_append]; exact hsalt)
  unfold pbkdf2Block mix
  simp only
  rw [hint, hfirst, pbkdf2Rounds_eq hpassword]
  simp only [Nat.zero_add]

/-- A loop whose counter passes its bound appends all blocks. -/
theorem pbkdf2Blocks_run (iterations : UInt32) {blocks : UInt32} (hblocks : blocks.toNat < 2 ^ 32 - 1)
    (n k : Nat) (hn : k + n = blocks.toNat) (dk : List UInt8) :
    pbkdf2Blocks password salt iterations blocks (n + 1) (UInt32.ofNat (k + 1)) dk =
      some (dk ++ (List.range n).flatMap fun j =>
        mix (hmac sha512 128) password salt iterations.toNat (k + j + 1)) := by
  have hcounter : (UInt32.ofNat (k + 1)).toNat = k + 1 :=
    UInt32.toNat_ofNat_of_lt' (by change k + 1 < 2 ^ 32; omega)
  induction n generalizing k dk with
  | zero =>
      have hend : ¬ UInt32.ofNat (k + 1) ≤ blocks := by
        rw [UInt32.le_iff_toNat_le, hcounter]
        omega
      rw [pbkdf2Blocks, if_neg hend, List.range_zero, List.flatMap_nil, List.append_nil]
  | succ n ih =>
      have hgo : UInt32.ofNat (k + 1) ≤ blocks := by
        rw [UInt32.le_iff_toNat_le, hcounter]
        omega
      have hnext : UInt32.ofNat (k + 1) + 1 = UInt32.ofNat (k + 1 + 1) :=
        (UInt32.ofNat_add (k + 1) 1).symm
      rw [pbkdf2Blocks, if_pos hgo, hnext, ih (k + 1) (by omega) _
        (UInt32.toNat_ofNat_of_lt' (by change k + 1 + 1 < 2 ^ 32; omega)),
        pbkdf2Block_eq hpassword hsalt, hcounter, List.range_succ_eq_map, List.flatMap_cons,
        List.append_assoc, List.flatMap_map]
      have hshift (j : Nat) : k + 1 + j + 1 = k + (j + 1) + 1 := by omega
      simp only [hshift]

end

/-- A loop whose bound is the last value of its counter never ends. -/
theorem pbkdf2Blocks_spins (password salt : List UInt8) (iterations : UInt32) {blocks : UInt32}
    (h : blocks.toNat = 2 ^ 32 - 1) (fuel : Nat) (i : UInt32) (dk : List UInt8) :
    pbkdf2Blocks password salt iterations blocks fuel i dk = none := by
  induction fuel generalizing i dk with
  | zero => rfl
  | succ fuel ih =>
      have hgo : i ≤ blocks := by
        rw [UInt32.le_iff_toNat_le, h]
        exact Nat.le_pred_of_lt i.toNat_lt
      rw [pbkdf2Blocks, if_pos hgo]
      exact ih _ _

/-- With enough fuel the key is derived. -/
def Derives (password salt : List UInt8) (iterations : UInt32) (dkLen : UInt64)
    (dk : List UInt8) : Prop :=
  ∃ fuel, pbkdf2HmacSha512 fuel password salt iterations dkLen = some dk

theorem toNat_blocks {dkLen : UInt64} (h : blockCount 64 dkLen.toNat < 2 ^ 32) :
    ((dkLen + UInt64.ofNat digestSize - 1) / UInt64.ofNat digestSize).toUInt32.toNat =
      blockCount 64 dkLen.toNat := by
  unfold blockCount at *
  have hsize : (UInt64.ofNat digestSize).toNat = 64 := rfl
  rw [UInt64.toNat_toUInt32, UInt64.toNat_div, UInt64.toNat_sub, UInt64.toNat_add, hsize,
    show (1 : UInt64).toNat = 1 from rfl]
  omega

/-- The key of the standard, if the number of blocks is not the last value of the counter. -/
theorem derives_of_blocks {password salt : List UInt8} (hpassword : password.length < 2 ^ 61)
    (hsalt : 128 + (salt.length + 4) < 2 ^ 61) (iterations : UInt32) {dkLen : UInt64}
    (h : blockCount 64 dkLen.toNat < 2 ^ 32 - 1) :
    Derives password salt iterations dkLen
      (pbkdf2 (hmac sha512 128) 64 password salt iterations.toNat dkLen.toNat) := by
  have hblocks := toNat_blocks (h.trans (by decide))
  have hfit : dkLen.toNat ≤ blockCount 64 dkLen.toNat * 64 := by
    unfold blockCount
    omega
  refine ⟨blockCount 64 dkLen.toNat + 1, ?_⟩
  unfold pbkdf2HmacSha512
  simp only
  rw [show (1 : UInt32) = UInt32.ofNat (0 + 1) from rfl,
    pbkdf2Blocks_run hpassword hsalt iterations (hblocks ▸ h) _ 0 (by rw [hblocks, Nat.zero_add]),
    pbkdf2_eq_take password salt length_hmac (by decide) iterations.toNat hfit]
  -- Nothing is missing behind the blocks, so nothing is filled up.
  have hfull := length_mixes password salt length_hmac iterations.toNat (blockCount 64 dkLen.toNat)
  rw [Option.map_some, List.nil_append]
  unfold resize
  simp only [Nat.zero_add]
  rw [List.rightpad, List.length_take, hfull, Nat.min_eq_left hfit, Nat.sub_self,
    List.replicate_zero, List.append_nil]

/-- The key is that of the standard, and the beginning of every longer one, exactly if the counter
of the blocks can pass their number. -/
theorem pbkdf2_standard_iff {password salt : List UInt8} (hpassword : password.length < 2 ^ 61)
    (hsalt : 128 + (salt.length + 4) < 2 ^ 61) (iterations : UInt32) {dkLen : UInt64}
    (hblocks : blockCount 64 dkLen.toNat < 2 ^ 32) :
    (Derives password salt iterations dkLen
        (pbkdf2 (hmac sha512 128) 64 password salt iterations.toNat dkLen.toNat) ∧
      ∀ short ≤ dkLen, Derives password salt iterations short
        ((pbkdf2 (hmac sha512 128) 64 password salt iterations.toNat dkLen.toNat).take
          short.toNat)) ↔
      dkLen.toNat ≤ (2 ^ 32 - 2) * 64 := by
  constructor
  · rintro ⟨⟨fuel, hfuel⟩, _⟩
    by_contra hlarge
    have hlast : blockCount 64 dkLen.toNat = 2 ^ 32 - 1 := by
      unfold blockCount at *
      omega
    unfold pbkdf2HmacSha512 at hfuel
    simp only at hfuel
    rw [pbkdf2Blocks_spins password salt iterations ((toNat_blocks hblocks).trans hlast)] at hfuel
    exact (Option.some_ne_none _).symm hfuel
  · intro hsmall
    have hcount (n : Nat) (hn : n ≤ (2 ^ 32 - 2) * 64) : blockCount 64 n < 2 ^ 32 - 1 := by
      unfold blockCount
      omega
    refine ⟨derives_of_blocks hpassword hsalt iterations (hcount _ hsmall), fun short hshort => ?_⟩
    have hle : short.toNat ≤ dkLen.toNat := UInt64.le_iff_toNat_le.mp hshort
    rw [← pbkdf2_prefix password salt length_hmac (by decide) iterations.toNat hle]
    exact derives_of_blocks hpassword hsalt iterations (hcount _ (hle.trans hsmall))

theorem pbkdf2_standard_two_blocks :
    Derives [112, 119] [1, 2] 3 80 (pbkdf2 (hmac sha512 128) 64 [112, 119] [1, 2] 3 80) :=
  ((pbkdf2_standard_iff (by decide) (by decide) 3 (by decide)).mpr (by decide)).1

/-- A key of as many blocks as the counter can count is within the standard, but never derived. -/
theorem last_block_spins :
    blockCount 64 274877906880 < 2 ^ 32 ∧
      ¬ Derives [] [] 1 274877906880 (pbkdf2 (hmac sha512 128) 64 [] [] 1 274877906880) := by
  refine ⟨by decide, fun h => ?_⟩
  rcases h with ⟨fuel, hfuel⟩
  unfold pbkdf2HmacSha512 at hfuel
  simp only at hfuel
  rw [pbkdf2Blocks_spins [] [] 1 (by decide)] at hfuel
  exact (Option.some_ne_none _).symm hfuel

end Crypto

end EarthRise
