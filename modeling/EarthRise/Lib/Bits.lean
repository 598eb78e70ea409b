import Mathlib.Data.Nat.Bitwise
import Mathlib.Tactic.Ring
import Mathlib.Data.BitVec
import Mathlib.Logic.Function.Basic

/-!
# Numbers as Bit Strings, and Mixers of Words

The low bits of a number as a list, most significant first, and back. This is
the view in which a bit stream is a concatenation: writing fields one after the
other appends their bit strings, and reading a field takes as many bits off the
front.

The steps that 64-bit finalisers are made of, over words of any width. Folding
a word's high bits onto its low ones loses nothing, since the high bits are
still there to undo it with; multiplying by a constant that has an inverse loses
nothing either. A hash made of such steps collides only where its input does.

## Main definitions

* `bitsOf`: The low `n` bits of a number.
* `natOf`: The number a bit string spells.
* `foldHigh`: A word with its high bits folded onto the low ones.

## Theorems

* `bitsOf_add`: Splitting a bit string.
* `natOf_append`: What a concatenation spells.
* `natOf_bitsOf`: Reading back what was written.
* `foldHigh_injective`: Folding loses nothing.
* `mul_injective_of_inverse`: Neither does multiplying by a unit.
* `xor_eq_xor_iff`: When two sums of three parts agree.
-/

namespace EarthRise

namespace Bits

/-- The low `n` bits of a number, most significant first. -/
def bitsOf : Nat → Nat → List Bool
  | 0, _ => []
  | n + 1, v => v.testBit n :: bitsOf n v

/-- The number that a bit string spells, most significant bit first. -/
def natOf (bs : List Bool) : Nat := bs.foldl (fun acc b => 2 * acc + b.toNat) 0

@[simp] theorem length_bitsOf (n v : Nat) : (bitsOf n v).length = n := by
  induction n with
  | zero => rfl
  | succ n ih => rw [bitsOf, List.length_cons, ih]

theorem bitsOf_congr (n v w : Nat) (h : ∀ i, i < n → v.testBit i = w.testBit i) :
    bitsOf n v = bitsOf n w := by
  induction n with
  | zero => rfl
  | succ n ih =>
      rw [bitsOf, bitsOf, h n (Nat.lt_succ_self n), ih fun i hi => h i (Nat.lt_succ_of_lt hi)]

theorem bitsOf_add (m n v : Nat) : bitsOf (m + n) v = bitsOf m (v >>> n) ++ bitsOf n v := by
  induction m with
  | zero => rw [Nat.zero_add]; rfl
  | succ m ih =>
      have hassoc : m + 1 + n = m + n + 1 := by omega
      rw [hassoc, bitsOf, bitsOf, ih, Nat.testBit_shiftRight, Nat.add_comm n m, List.cons_append]

/-- The top bits of a bit string are the bits of the number shifted down. -/
theorem take_bitsOf (n k v : Nat) (hk : k ≤ n) :
    (bitsOf n v).take k = bitsOf k (v >>> (n - k)) := by
  have hn : n = k + (n - k) := by omega
  conv_lhs => rw [hn, bitsOf_add]
  exact List.take_left' (length_bitsOf k _)

theorem bitsOf_mod (n v : Nat) : bitsOf n (v % 2 ^ n) = bitsOf n v :=
  bitsOf_congr n _ _ fun i hi => by rw [Nat.testBit_mod_two_pow, decide_eq_true hi, Bool.true_and]

theorem natOf_foldl (bs : List Bool) (acc : Nat) :
    bs.foldl (fun acc b => 2 * acc + b.toNat) acc = acc * 2 ^ bs.length + natOf bs := by
  unfold natOf
  induction bs generalizing acc with
  | nil => simp
  | cons b bs ih =>
      rw [List.foldl_cons, List.foldl_cons, ih, ih (2 * 0 + b.toNat), List.length_cons, pow_succ]
      ring

theorem natOf_append (bs bs' : List Bool) :
    natOf (bs ++ bs') = natOf bs * 2 ^ bs'.length + natOf bs' := by
  have h := natOf_foldl bs' (natOf bs)
  unfold natOf at h ⊢
  rw [List.foldl_append, h]

theorem natOf_cons (b : Bool) (bs : List Bool) :
    natOf (b :: bs) = b.toNat * 2 ^ bs.length + natOf bs := by
  have h := natOf_append [b] bs
  rwa [List.singleton_append, show natOf [b] = b.toNat by simp [natOf]] at h

/-- A bit string spells the number it was taken from, as far as it goes. -/
theorem natOf_bitsOf (n v : Nat) : natOf (bitsOf n v) = v % 2 ^ n := by
  induction n with
  | zero => simp [bitsOf, natOf, Nat.mod_one]
  | succ n ih =>
      rw [bitsOf, natOf_cons, length_bitsOf, ih, Nat.testBit_eq_decide_div_mod_eq]
      have hdiv := Nat.mod_mul (x := v) (a := 2 ^ n) (b := 2)
      rw [pow_succ, hdiv]
      rcases Nat.mod_two_eq_zero_or_one (v / 2 ^ n) with h | h
      · simp [h]
      · simp [h, Nat.add_comm]

end Bits

namespace Mix

variable {w : Nat}

/-- The word xor itself shifted right by `s`. -/
def foldHigh (s : Nat) (x : BitVec w) : BitVec w := x ^^^ (x >>> s)

/-- A word that is its own right shift is zero: its top bits are, and every other
    bit is equal to one further up. -/
theorem eq_zero_of_eq_shiftRight (s : Nat) (hs : 0 < s) (x : BitVec w) (h : x = x >>> s) :
    x = 0#w := by
  -- Shifting any number of times changes nothing, and enough shifts leave nothing.
  have hall : ∀ k, x = x >>> (s * k) := by
    intro k
    induction k with
    | zero => rw [Nat.mul_zero, BitVec.ushiftRight_zero]
    | succ k ih =>
        rw [Nat.mul_succ, BitVec.shiftRight_add, ← ih]
        exact h
  have hw : w ≤ s * w := Nat.le_mul_of_pos_left w hs
  rw [hall w]
  exact BitVec.ushiftRight_eq_zero hw

theorem foldHigh_xor (s : Nat) (x y : BitVec w) :
    foldHigh s (x ^^^ y) = foldHigh s x ^^^ foldHigh s y := by
  unfold foldHigh
  rw [BitVec.ushiftRight_xor_distrib]
  ac_rfl

/-- Folding loses nothing: it is linear, and only zero folds to zero. -/
theorem foldHigh_injective (s : Nat) (hs : 0 < s) :
    Function.Injective (foldHigh s : BitVec w → BitVec w) := by
  intro x y h
  have hzero : foldHigh s (x ^^^ y) = 0#w := by
    rw [foldHigh_xor, h, BitVec.xor_self]
  have hshift : x ^^^ y = (x ^^^ y) >>> s := by
    unfold foldHigh at hzero
    exact BitVec.xor_eq_zero_iff.mp hzero
  exact BitVec.xor_eq_zero_iff.mp (eq_zero_of_eq_shiftRight s hs _ hshift)

theorem mul_injective_of_inverse (c c' : BitVec w) (h : c * c' = 1#w) :
    Function.Injective fun x : BitVec w => x * c := by
  intro x y hxy
  have hmul : x * c * c' = y * c * c' := congrArg (· * c') hxy
  rwa [BitVec.mul_assoc, BitVec.mul_assoc, h, BitVec.mul_one, BitVec.mul_one] at hmul

/-- Two sums of three parts with a common part agree when the others' differences
    do. -/
theorem xor_eq_xor_iff (a b c b' c' : BitVec w) :
    a ^^^ b ^^^ c = a ^^^ b' ^^^ c' ↔ b ^^^ b' = c ^^^ c' := by
  rw [← BitVec.xor_eq_zero_iff, ← @BitVec.xor_eq_zero_iff w (b ^^^ b')]
  have hsum : a ^^^ b ^^^ c ^^^ (a ^^^ b' ^^^ c') = a ^^^ a ^^^ (b ^^^ b' ^^^ (c ^^^ c')) := by
    ac_rfl
  rw [hsum, BitVec.xor_self, BitVec.zero_xor]

end Mix

end EarthRise
