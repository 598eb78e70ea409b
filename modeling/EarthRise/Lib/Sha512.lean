import EarthRise.Lib.Bits
import Mathlib.Analysis.SpecialFunctions.Pow.NthRootLemmas
import Mathlib.Data.List.Basic
import Mathlib.Data.Nat.Bitwise
import Mathlib.Data.Nat.Nth
import Mathlib.Data.Nat.Prime.Defs
import Mathlib.Tactic.Ring

/-!
# Password Hashing by the Standards

SHA-512 as FIPS 180-4 defines it, on strings of bits: a message is padded to blocks of 1024 bits
with its length at the end, and each block is mixed into eight words. The constants are not a table
but what the standard says they are, bits of roots of primes. HMAC of RFC 2104 is over any hash
function, and PBKDF2 of RFC 8018 over any pseudorandom function.

## Main definitions

* `toBits`, `word`: Bytes as strings of bits, and strings of bits as words.
* `pad`, `schedule`, `compress`, `sha512`: The hash function.
* `hmac`: Keyed hashing.
* `pbkdf2`: Keys from passwords.

## Theorems

* `natOf_toBits`, `toBits_drop`, `toBits_take`: Bytes as strings of bits.
* `rootBits_eq`: A constant is what it should be, by two powers.
* `nth_of_filter`: The things with a property in their order.
* `pbkdf2_eq_take`, `pbkdf2_prefix`: A shorter key is the beginning of a longer one.
-/

namespace EarthRise

namespace Standards

open Bits

/-! ## Strings of bits -/

def toBits (bytes : List UInt8) : List Bool := bytes.flatMap fun b => bitsOf 8 b.toNat

/-- A string of 64 bits as a word. -/
def word (bits : List Bool) : BitVec 64 := BitVec.ofNat 64 (natOf bits)

theorem bitsOf_zero (w : Nat) : bitsOf w 0 = List.replicate w false := by
  induction w with
  | zero => rfl
  | succ w ih => rw [bitsOf, ih, Nat.zero_testBit, List.replicate_succ]

theorem toBits_append (l l' : List UInt8) : toBits (l ++ l') = toBits l ++ toBits l' :=
  List.flatMap_append

theorem toBits_cons (b : UInt8) (l : List UInt8) :
    toBits (b :: l) = bitsOf 8 b.toNat ++ toBits l := List.flatMap_cons

@[simp] theorem length_toBits (l : List UInt8) : (toBits l).length = 8 * l.length := by
  induction l with
  | nil => rfl
  | cons b l ih =>
      rw [toBits_cons, List.length_append, length_bitsOf, ih, List.length_cons]
      omega

theorem toBits_replicate_zero (n : Nat) :
    toBits (List.replicate n 0) = List.replicate (8 * n) false := by
  induction n with
  | zero => rfl
  | succ n ih =>
      rw [List.replicate_succ, toBits_cons, ih, show (0 : UInt8).toNat = 0 from rfl, bitsOf_zero,
        List.replicate_append_replicate]
      congr 1
      omega

theorem toBits_drop (l : List UInt8) (n : Nat) : toBits (l.drop n) = (toBits l).drop (8 * n) := by
  induction l generalizing n with
  | nil => rw [List.drop_nil, toBits, List.flatMap_nil, List.drop_nil]
  | cons b l ih =>
      cases n with
      | zero => rw [Nat.mul_zero, List.drop_zero, List.drop_zero]
      | succ n =>
          have hnone : (bitsOf 8 b.toNat).drop (8 * (n + 1)) = [] :=
            List.drop_of_length_le (by rw [length_bitsOf]; omega)
          rw [List.drop_succ_cons, ih, toBits_cons, List.drop_append, hnone, length_bitsOf,
            List.nil_append, Nat.mul_succ, Nat.add_sub_cancel]

theorem toBits_take (l : List UInt8) (n : Nat) : toBits (l.take n) = (toBits l).take (8 * n) := by
  induction l generalizing n with
  | nil => rw [List.take_nil, toBits, List.flatMap_nil, List.take_nil]
  | cons b l ih =>
      cases n with
      | zero => rw [Nat.mul_zero, List.take_zero, List.take_zero, toBits, List.flatMap_nil]
      | succ n =>
          have hall : (bitsOf 8 b.toNat).take (8 * (n + 1)) = bitsOf 8 b.toNat :=
            List.take_of_length_le (by rw [length_bitsOf]; omega)
          rw [List.take_succ_cons, toBits_cons, ih, toBits_cons, List.take_append, hall,
            length_bitsOf, Nat.mul_succ, Nat.add_sub_cancel]

/-- The bytes of a word, the highest first. -/
theorem natOf_toBits (l : List UInt8) :
    natOf (toBits l) = l.foldl (fun n b => 256 * n + b.toNat) 0 := by
  unfold natOf
  generalize (0 : Nat) = start
  induction l generalizing start with
  | nil => rfl
  | cons b l ih =>
      -- The bits of a byte are put behind what was read before.
      rw [toBits_cons, List.foldl_append, ih, natOf_foldl, natOf_bitsOf, length_bitsOf,
        List.foldl_cons, Nat.mod_eq_of_lt b.toNat_lt, Nat.mul_comm]
      rfl

/-! ## SHA-512 -/

theorem exists_zeros (len : Nat) : ∃ k, (len + 1 + k) % 1024 = 896 :=
  ⟨(1024 + 896 - (len + 1) % 1024) % 1024, by omega⟩

/-- A one, as few zeros as possible, and the length. -/
def pad (m : List Bool) : List Bool :=
  m ++ [true] ++ List.replicate (Nat.find (exists_zeros m.length)) false ++ bitsOf 128 m.length

def rotr (n : Nat) (x : BitVec 64) : BitVec 64 := x.rotateRight n

def ch (x y z : BitVec 64) : BitVec 64 := (x &&& y) ^^^ (~~~x &&& z)

def maj (x y z : BitVec 64) : BitVec 64 := (x &&& y) ^^^ (x &&& z) ^^^ (y &&& z)

def bigSigma0 (x : BitVec 64) : BitVec 64 := rotr 28 x ^^^ rotr 34 x ^^^ rotr 39 x

def bigSigma1 (x : BitVec 64) : BitVec 64 := rotr 14 x ^^^ rotr 18 x ^^^ rotr 41 x

def smallSigma0 (x : BitVec 64) : BitVec 64 := rotr 1 x ^^^ rotr 8 x ^^^ (x >>> 7)

def smallSigma1 (x : BitVec 64) : BitVec 64 := rotr 19 x ^^^ rotr 61 x ^^^ (x >>> 6)

/-- The first 64 bits of the fractional part of a root. -/
def rootBits (degree n : Nat) : BitVec 64 :=
  BitVec.ofNat 64 (Nat.nthRoot degree (n * 2 ^ (64 * degree)))

/-- The constant of a round: from the cube root of a prime. -/
noncomputable def roundConstant (t : Nat) : BitVec 64 := rootBits 3 (Nat.nth Nat.Prime t)

@[ext] structure Words where
  a : BitVec 64
  b : BitVec 64
  c : BitVec 64
  d : BitVec 64
  e : BitVec 64
  f : BitVec 64
  g : BitVec 64
  h : BitVec 64

/-- The words at the start: from the square roots of the first primes. -/
noncomputable def initial : Words :=
  let root (j : Nat) := rootBits 2 (Nat.nth Nat.Prime j)
  ⟨root 0, root 1, root 2, root 3, root 4, root 5, root 6, root 7⟩

/-- The words of a block and what follows from them. -/
def schedule (block : Nat → BitVec 64) (t : Nat) : BitVec 64 :=
  if t < 16 then block t
  else smallSigma1 (schedule block (t - 2)) + schedule block (t - 7) +
    smallSigma0 (schedule block (t - 15)) + schedule block (t - 16)

noncomputable def round (w : Nat → BitVec 64) (v : Words) (t : Nat) : Words :=
  let t1 := v.h + bigSigma1 v.e + ch v.e v.f v.g + roundConstant t + w t
  let t2 := bigSigma0 v.a + maj v.a v.b v.c
  ⟨t1 + t2, v.a, v.b, v.c, v.d + t1, v.e, v.f, v.g⟩

noncomputable def compress (H : Words) (block : Nat → BitVec 64) : Words :=
  let v := (List.range 80).foldl (round (schedule block)) H
  ⟨v.a + H.a, v.b + H.b, v.c + H.c, v.d + H.d, v.e + H.e, v.f + H.f, v.g + H.g, v.h + H.h⟩

/-- A word of a block of a message. -/
def blockWord (m : List Bool) (i j : Nat) : BitVec 64 :=
  word ((m.drop (1024 * i + 64 * j)).take 64)

/-- The bytes of a word, the highest first. -/
def wordBytes (x : BitVec 64) : List UInt8 :=
  [56, 48, 40, 32, 24, 16, 8, 0].map fun k => UInt8.ofBitVec (x.extractLsb' k 8)

def Words.digest (H : Words) : List UInt8 :=
  [H.a, H.b, H.c, H.d, H.e, H.f, H.g, H.h].flatMap wordBytes

/-- The blocks of the padded message, one after the other. -/
noncomputable def sha512 (message : List UInt8) : List UInt8 :=
  let m := pad (toBits message)
  ((List.range (m.length / 1024)).foldl (fun H i => compress H (blockWord m i)) initial).digest

@[simp] theorem Words.length_digest (H : Words) : H.digest.length = 64 := rfl

/-! ## The constants -/

/-- What a constant is can be said with two powers. -/
theorem rootBits_eq {degree n root : Nat} (hlow : root ^ degree ≤ n * 2 ^ (64 * degree))
    (hhigh : n * 2 ^ (64 * degree) < (root + 1) ^ degree) :
    rootBits degree n = BitVec.ofNat 64 root :=
  congrArg _ (Nat.nthRoot_eq_of_le_of_lt hlow hhigh)

/-- What is left of the first numbers are the first numbers with the property. -/
theorem nth_of_filter {p : Nat → Prop} [DecidablePred p] {bound t n : Nat}
    (h : ((List.range bound).filter p)[t]? = some n) : Nat.nth p t = n := by
  induction bound with
  | zero => exact absurd h (by simp only [List.range_zero, List.filter_nil, List.getElem?_nil,
      reduceCtorEq, not_false_eq_true])
  | succ bound ih =>
      rw [List.range_succ, List.filter_append] at h
      by_cases ht : t < ((List.range bound).filter p).length
      · rw [List.getElem?_append_left ht] at h
        exact ih h
      rw [List.getElem?_append_right (Nat.le_of_not_lt ht)] at h
      by_cases hp : p bound
      · -- The last number has the property, and it is the one that is looked up.
        rw [List.filter_singleton, decide_eq_true hp] at h
        rcases List.getElem?_eq_some_iff.mp h with ⟨hlt, hn⟩
        have hlast : t = Nat.count p bound := by
          rw [Nat.count, List.countP_eq_length_filter]
          simp only [cond_true, List.length_singleton] at hlt
          omega
        simp only [cond_true, List.getElem_singleton] at hn
        rw [hlast, ← hn]
        exact Nat.nth_count hp
      · rw [List.filter_singleton, decide_eq_false hp] at h
        exact absurd h (by simp only [cond_false, List.getElem?_nil, reduceCtorEq,
          not_false_eq_true])

/-! ## HMAC -/

/-- The key, hashed if it is longer than a block, with zeros behind it. -/
def hmacKey (hash : List UInt8 → List UInt8) (block : Nat) (key : List UInt8) : List UInt8 :=
  (if key.length > block then hash key else key).rightpad block 0

def hmac (hash : List UInt8 → List UInt8) (block : Nat) (key text : List UInt8) : List UInt8 :=
  let k := hmacKey hash block key
  hash (k.map (· ^^^ 0x5c) ++ hash (k.map (· ^^^ 0x36) ++ text))

/-! ## PBKDF2 -/

section

variable (prf : List UInt8 → List UInt8 → List UInt8) (hLen : Nat) (password salt : List UInt8)

/-- A block index as four bytes, the highest first. -/
def int (i : Nat) : List UInt8 := [24, 16, 8, 0].map fun k => UInt8.ofNat (i >>> k)

/-- The results of the function on its own results. -/
def iterate (i : Nat) : Nat → List UInt8
  | 0 => prf password (salt ++ int i)
  | j + 1 => prf password (iterate i j)

def xorBytes (l l' : List UInt8) : List UInt8 := List.zipWith (· ^^^ ·) l l'

/-- The exclusive or of the first results. -/
def mix (c i : Nat) : List UInt8 :=
  ((List.range (c - 1)).map fun j => iterate prf password salt i (j + 1)).foldl xorBytes
    (iterate prf password salt i 0)

def blockCount (dkLen : Nat) : Nat := (dkLen + hLen - 1) / hLen

/-- All blocks but the last in full, and so much of the last one as is missing. -/
def pbkdf2 (c dkLen : Nat) : List UInt8 :=
  (List.range (blockCount hLen dkLen - 1)).flatMap (fun i => mix prf password salt c (i + 1)) ++
    (mix prf password salt c (blockCount hLen dkLen)).take
      (dkLen - (blockCount hLen dkLen - 1) * hLen)

variable {prf hLen}

theorem length_mix (hprf : ∀ key text, (prf key text).length = hLen) (c i : Nat) :
    (mix prf password salt c i).length = hLen := by
  unfold mix
  have hstart : (iterate prf password salt i 0).length = hLen := hprf _ _
  generalize iterate prf password salt i 0 = start at hstart
  generalize c - 1 = n
  induction n with
  | zero => exact hstart
  | succ n ih =>
      rw [List.range_succ, List.map_append, List.foldl_append, List.map_singleton,
        List.foldl_cons, List.foldl_nil, xorBytes, List.length_zipWith, ih]
      exact (congrArg _ (hprf _ _)).trans (Nat.min_self _)

theorem length_mixes (hprf : ∀ key text, (prf key text).length = hLen) (c n : Nat) :
    ((List.range n).flatMap fun i => mix prf password salt c (i + 1)).length = n * hLen := by
  induction n with
  | zero => rw [List.range_zero, List.flatMap_nil, List.length_nil, Nat.zero_mul]
  | succ n ih =>
      rw [List.range_succ, List.flatMap_append, List.length_append, ih, List.flatMap_singleton,
        length_mix password salt hprf, Nat.succ_mul]

/-- The key is the beginning of the blocks in full. -/
theorem pbkdf2_eq_take (hprf : ∀ key text, (prf key text).length = hLen) (hpos : 0 < hLen)
    (c : Nat) {dkLen n : Nat} (hn : dkLen ≤ n * hLen) :
    pbkdf2 prf hLen password salt c dkLen =
      ((List.range n).flatMap fun i => mix prf password salt c (i + 1)).take dkLen := by
  have hfull := length_mixes password salt hprf c
  unfold pbkdf2 blockCount
  rcases Nat.eq_zero_or_pos dkLen with rfl | hdk
  · rw [Nat.zero_add, Nat.div_eq_of_lt (Nat.sub_one_lt_of_lt hpos), Nat.zero_sub, Nat.zero_sub,
      List.range_zero, List.flatMap_nil, List.take_zero, List.take_zero, List.append_nil]
  -- The last block is the one the end of the key is in.
  obtain ⟨k, hk⟩ : ∃ k, (dkLen + hLen - 1) / hLen = k + 1 := by
    have hone : 1 ≤ (dkLen + hLen - 1) / hLen := (Nat.one_le_div_iff hpos).mpr (by omega)
    exact ⟨_, (Nat.sub_add_cancel hone).symm⟩
  have hlow : k * hLen < dkLen := by
    have h := Nat.div_mul_le_self (dkLen + hLen - 1) hLen
    rw [hk, Nat.succ_mul] at h
    omega
  have hhigh : dkLen ≤ (k + 1) * hLen := by
    have h := Nat.lt_mul_div_succ (dkLen + hLen - 1) hpos
    rw [hk, Nat.mul_comm, Nat.succ_mul] at h
    omega
  have hkn : k + 1 ≤ n := Nat.lt_of_mul_lt_mul_right (hlow.trans_le hn)
  obtain ⟨r, rfl⟩ := Nat.exists_eq_add_of_le hkn
  have hlast : dkLen - k * hLen ≤ hLen := by
    rw [Nat.succ_mul] at hhigh
    omega
  have hfirst := List.take_of_length_le ((hfull k).le.trans hlow.le)
  rw [hk, Nat.add_sub_cancel, List.range_add, List.range_succ, List.flatMap_append,
    List.flatMap_append, List.flatMap_singleton, List.append_assoc, List.take_append,
    hfirst, hfull, List.take_append, length_mix password salt hprf, Nat.sub_eq_zero_of_le hlast,
    List.take_zero, List.append_nil]

/-- A shorter key is the beginning of a longer one. -/
theorem pbkdf2_prefix (hprf : ∀ key text, (prf key text).length = hLen) (hpos : 0 < hLen)
    (c : Nat) {short dkLen : Nat} (h : short ≤ dkLen) :
    pbkdf2 prf hLen password salt c short =
      (pbkdf2 prf hLen password salt c dkLen).take short := by
  have hn : dkLen ≤ dkLen * hLen := Nat.le_mul_of_pos_right dkLen hpos
  rw [pbkdf2_eq_take password salt hprf hpos c hn,
    pbkdf2_eq_take password salt hprf hpos c (h.trans hn), List.take_take, Nat.min_eq_left h]

end

end Standards

end EarthRise
