import EarthRise.Core.FrameArena

/-!
# Which Allocations Are Sound

The arena places blocks one after the other, as long as they fit. Two things are not as asked for.
A release build has no assertions, so the first block that does not fit is returned all the same,
past the end of the buffer. And it is the offset into the buffer that is aligned, so the address is
a multiple of the alignment exactly where the address of the buffer is one.

## Main definitions

* `Request.shape`, `paddedTotal`: What the allocations take, in exact numbers.
* `Sound`: Blocks that keep clear of each other, inside the buffer and aligned; and what does not
  fit is refused.

## Theorems

* `doAllocate_fits`: An allocation that fits.
* `allocateAll_fits`: The blocks are placed one after the other.
* `sound_iff`: When the allocations are sound.
* `overrun_not_sound`: A block past the end, and an address that is not aligned.
-/

namespace EarthRise

namespace Alloc

open Placement

namespace Request

theorem alignment_pos (r : Request) : 0 < r.alignment.toNat := by
  rcases r.pow with ⟨k, hk⟩
  rw [hk]
  exact Nat.two_pow_pos k

def shape (r : Request) : Shape := ⟨r.alignment.toNat, r.bytes.toNat, r.alignment_pos⟩

end Request

/-- Where the last block ends, from the start of a tick. -/
def paddedTotal (reqs : List Request) : Nat := extent 0 (reqs.map Request.shape)

/-- What a block of a buffer at `base` is asked to be. -/
structure Serves (base : Nat) (capacity : UInt64) (r : Request) (b : Block) : Prop where
  size : b.size = r.bytes.toNat
  above : base ≤ b.start
  below : b.stop ≤ base + capacity.toNat
  aligned : r.alignment.toNat ∣ b.start

/-- The allocations of a tick are as they should be. -/
structure Sound (a : FrameArena) (reqs : List Request) (results : List (Option Block)) : Prop where
  served : paddedTotal reqs ≤ a.capacity.toNat →
    ∃ blocks, results = blocks.map some ∧ List.Forall₂ (Serves a.base a.capacity) reqs blocks ∧
      blocks.Pairwise fun b c => b.stop ≤ c.start ∨ c.stop ≤ b.start
  /-- What does not fit behind what was placed is refused. -/
  refused : ∀ i, i < reqs.length → paddedTotal (reqs.take i) ≤ a.capacity.toNat →
    a.capacity.toNat < paddedTotal (reqs.take (i + 1)) → results[i]? = some none

namespace FrameArena

/-- The cursor is aligned by masking its negation. -/
theorem toNat_pad (cursor alignment : UInt64) (hpow : ∃ k, alignment.toNat = 2 ^ k) :
    (-cursor &&& (alignment - 1)).toNat =
      (alignment.toNat - cursor.toNat % alignment.toNat) % alignment.toNat := by
  rcases hpow with ⟨k, hk⟩
  have hlt : 2 ^ k < 2 ^ 64 := hk ▸ alignment.toNat_lt
  have hone : (alignment - 1).toNat = 2 ^ k - 1 := by
    have hle : (1 : UInt64) ≤ alignment := by
      rw [UInt64.le_iff_toNat_le, hk]
      exact Nat.two_pow_pos k
    rw [UInt64.toNat_sub_of_le _ _ hle, hk]
    rfl
  have hneg : (-cursor).toNat = (2 ^ 64 - cursor.toNat) % 2 ^ 64 := UInt64.toNat_neg cursor
  have hk64 : k < 64 := (Nat.pow_lt_pow_iff_right (by decide)).mp hlt
  -- The width of a word is a multiple of the alignment.
  have hword : ∃ m, 2 ^ 64 = 2 ^ k * m := ⟨2 ^ (64 - k), by rw [← Nat.pow_add]; congr 1; omega⟩
  rcases hword with ⟨m, hm⟩
  have hcursor := cursor.toNat_lt
  rw [UInt64.toNat_and, hone, Nat.and_two_pow_sub_one_eq_mod, hneg, hk,
    Nat.mod_mod_of_dvd _ ⟨m, hm⟩]
  have hdiv := Nat.div_add_mod cursor.toNat (2 ^ k)
  have hmod := Nat.mod_lt cursor.toNat (Nat.two_pow_pos k)
  have hquot : cursor.toNat / 2 ^ k < m := by
    rw [Nat.div_lt_iff_lt_mul (Nat.two_pow_pos k), Nat.mul_comm, ← hm]
    exact hcursor
  have hsplit : 2 ^ 64 - cursor.toNat =
      (2 ^ k - cursor.toNat % 2 ^ k) + 2 ^ k * (m - 1 - cursor.toNat / 2 ^ k) := by
    have hmul : 2 ^ k * (m - 1 - cursor.toNat / 2 ^ k) =
        2 ^ k * m - 2 ^ k - 2 ^ k * (cursor.toNat / 2 ^ k) := by
      rw [Nat.mul_sub, Nat.mul_sub, Nat.mul_one]
    have hle : 2 ^ k * (cursor.toNat / 2 ^ k) + 2 ^ k ≤ 2 ^ k * m := by
      rw [← Nat.mul_succ]
      exact Nat.mul_le_mul_left _ hquot
    rw [hmul]
    omega
  rw [hsplit, Nat.add_mul_mod_self_left]

/-- An allocation that fits is placed at the next multiple, in either build. -/
theorem doAllocate_fits (build : Build) (a : FrameArena) (r : Request)
    (h : r.shape.finish a.cursor.toNat ≤ a.capacity.toNat) :
    ∃ a', a.doAllocate build r.bytes r.alignment =
        some (⟨a.base + alignUp r.alignment.toNat a.cursor.toNat, r.bytes.toNat⟩, a') ∧
      a'.base = a.base ∧ a'.capacity = a.capacity ∧
      a'.cursor.toNat = r.shape.finish a.cursor.toNat := by
  have hpad := toNat_pad a.cursor r.alignment r.pow
  have hcap := a.capacity.toNat_lt
  -- Nothing wraps around below the capacity.
  have hnext : (a.cursor + (-a.cursor &&& (r.alignment - 1)) + r.bytes).toNat =
      r.shape.finish a.cursor.toNat := by
    have hsum : a.cursor.toNat + (r.alignment.toNat - a.cursor.toNat % r.alignment.toNat) %
        r.alignment.toNat + r.bytes.toNat ≤ a.capacity.toNat := h
    rw [UInt64.toNat_add, UInt64.toNat_add, hpad, Nat.mod_eq_of_lt (by omega),
      Nat.mod_eq_of_lt (by omega)]
    rfl
  have hle : a.cursor + (-a.cursor &&& (r.alignment - 1)) + r.bytes ≤ a.capacity := by
    rw [UInt64.le_iff_toNat_le, hnext]
    exact h
  refine ⟨{ a with cursor := a.cursor + (-a.cursor &&& (r.alignment - 1)) + r.bytes }, ?_, rfl, rfl,
    hnext⟩
  unfold doAllocate
  simp only []
  rw [if_neg (fun hnot => hnot.2 hle), hpad, Nat.add_assoc]
  rfl

/-- A block of the buffer, by its offset. -/
def blockAt (a : FrameArena) (b : Block) : Block := ⟨a.base + b.start, b.size⟩

theorem allocateAll_fits (build : Build) (a : FrameArena) (reqs : List Request)
    (h : extent a.cursor.toNat (reqs.map Request.shape) ≤ a.capacity.toNat) :
    a.allocateAll build reqs =
      ((place a.cursor.toNat (reqs.map Request.shape)).map a.blockAt).map some := by
  induction reqs generalizing a with
  | nil => rfl
  | cons r reqs ih =>
      have hfirst : r.shape.finish a.cursor.toNat ≤ a.capacity.toNat :=
        Nat.le_trans (le_extent _ _) h
      rcases doAllocate_fits build a r hfirst with ⟨a', hrun, hbase, hcap, hcursor⟩
      have hrest := ih a' (by
        rw [hcursor, hcap]
        exact h)
      have hsame : a'.blockAt = a.blockAt := by
        unfold blockAt
        rw [hbase]
      rw [hcursor, hsame] at hrest
      rw [allocateAll, hrun]
      simp only [hrest]
      rfl

/-- A release build refuses nothing. -/
theorem release_accepts (a : FrameArena) (reqs : List Request) :
    none ∉ a.allocateAll .release reqs := by
  induction reqs generalizing a with
  | nil => exact List.not_mem_nil
  | cons r reqs ih =>
      unfold allocateAll doAllocate
      simp only [reduceCtorEq, false_and, if_false]
      rw [List.mem_cons]
      exact fun h => h.elim (fun hnone => absurd hnone (Option.some_ne_none _).symm) (ih _)

end FrameArena

/-- Blocks of the buffer keep clear of each other where their offsets do. -/
theorem placed_apart (a : FrameArena) (reqs : List Request) :
    ((place 0 (reqs.map Request.shape)).map a.blockAt).Pairwise fun b c =>
      b.stop ≤ c.start ∨ c.stop ≤ b.start := by
  refine List.Pairwise.map a.blockAt (fun b c hbc => Or.inl ?_) (place_apart 0 _)
  have hle : b.start + b.size ≤ c.start := hbc
  show a.base + b.start + b.size ≤ a.base + c.start
  omega

/-- The block of a buffer is aligned exactly where the buffer is. -/
theorem serves_iff (a : FrameArena) (reqs : List Request)
    (hfit : paddedTotal reqs ≤ a.capacity.toNat) :
    List.Forall₂ (Serves a.base a.capacity) reqs
        ((place 0 (reqs.map Request.shape)).map a.blockAt) ↔
      ∀ r ∈ reqs, r.alignment.toNat ∣ a.base := by
  have haligned := place_aligned 0 (reqs.map Request.shape)
  have hwithin := place_within 0 (reqs.map Request.shape)
  rw [List.forall₂_map_left_iff] at haligned
  rw [List.forall₂_map_right_iff]
  unfold paddedTotal at hfit
  generalize place 0 (reqs.map Request.shape) = blocks at haligned hwithin
  generalize extent 0 (reqs.map Request.shape) = total at hfit hwithin
  induction haligned with
  | nil => simp only [List.Forall₂.nil, List.not_mem_nil, false_implies, implies_true]
  | @cons r b reqs blocks hrb _ ih =>
      rcases hrb with ⟨hdvd, hsize⟩
      have hb := hwithin b List.mem_cons_self
      have hrest := ih fun c hc => hwithin c (List.mem_cons_of_mem b hc)
      have hone : Serves a.base a.capacity r (a.blockAt b) ↔ r.alignment.toNat ∣ a.base := by
        refine ⟨fun h => (Nat.dvd_add_left hdvd).mp h.aligned, fun h => ⟨hsize, ?_, ?_, ?_⟩⟩
        · exact Nat.le_add_right _ _
        · have hstop : b.start + b.size ≤ total := hb.2
          show a.base + b.start + b.size ≤ a.base + a.capacity.toNat
          omega
        · exact (Nat.dvd_add_left hdvd).mpr h
      rw [List.forall₂_cons, hone, List.forall_mem_cons]
      exact and_congr_right fun _ => hrest

/-- The allocations of a tick are sound in every build exactly where they all fit and every
    alignment divides the address of the buffer. -/
theorem sound_iff (a : FrameArena) (reqs : List Request) :
    (∀ build, Sound a reqs (a.reset.allocateAll build reqs)) ↔
      paddedTotal reqs ≤ a.capacity.toNat ∧ ∀ r ∈ reqs, r.alignment.toNat ∣ a.base := by
  have hrun : paddedTotal reqs ≤ a.capacity.toNat → ∀ build, a.reset.allocateAll build reqs =
      ((place 0 (reqs.map Request.shape)).map a.blockAt).map some := fun hfit build =>
    FrameArena.allocateAll_fits build a.reset reqs hfit
  constructor
  · intro hsound
    have hfit : paddedTotal reqs ≤ a.capacity.toNat := by
      by_contra hover
      -- The first one that does not fit is not refused.
      rcases exists_first_over 0 a.capacity.toNat (reqs.map Request.shape) (Nat.zero_le _)
        (Nat.lt_of_not_le hover) with ⟨i, s, hs, hle, hlt⟩
      rw [← List.map_take] at hle hlt
      have hi : i < reqs.length := by
        have hlen := (List.getElem?_eq_some_iff.mp hs).1
        rwa [List.length_map] at hlen
      have hnone := (hsound .release).refused i hi hle hlt
      exact FrameArena.release_accepts a.reset reqs (List.mem_of_getElem? hnone)
    refine ⟨hfit, ?_⟩
    rcases (hsound .release).served hfit with ⟨blocks, hblocks, hserves, _⟩
    rw [hrun hfit] at hblocks
    rw [← (List.map_injective_iff.mpr (Option.some_injective Block)) hblocks] at hserves
    exact (serves_iff a reqs hfit).mp hserves
  · rintro ⟨hfit, hdvd⟩ build
    refine ⟨fun _ => ⟨_, hrun hfit build, (serves_iff a reqs hfit).mpr hdvd, placed_apart a reqs⟩,
      fun i hi _ hlt => ?_⟩
    -- No part of what fits is past the end.
    have hwhole := le_extent (paddedTotal (reqs.take (i + 1)))
      ((reqs.drop (i + 1)).map Request.shape)
    unfold paddedTotal at hwhole hlt hfit
    rw [← extent_append, ← List.map_append, List.take_append_drop] at hwhole
    omega

def plain (bytes : UInt64) : Request := ⟨bytes, 1, 0, rfl⟩

def onLine (bytes : UInt64) : Request := ⟨bytes, 64, 6, rfl⟩

/-- In a release build a block of one byte too many is returned; and in a buffer that is aligned
    as a `max_align_t` a block on a cache line is not. -/
theorem overrun_not_sound :
    ¬ Sound ⟨4096, 524288, 0⟩ [plain 524289]
        (FrameArena.reset ⟨4096, 524288, 0⟩ |>.allocateAll .release [plain 524289]) ∧
      ¬ Sound ⟨4112, 524288, 0⟩ [onLine 8]
        (FrameArena.reset ⟨4112, 524288, 0⟩ |>.allocateAll .release [onLine 8]) := by
  constructor
  · intro h
    have hnone := h.refused 0 (by decide) (by decide) (by decide)
    exact absurd hnone (by decide)
  · intro h
    rcases h.served (by decide) with ⟨blocks, hblocks, hserves, _⟩
    cases hserves with
    | @cons _ b _ _ hb _ =>
        rw [List.map_cons] at hblocks
        have hsame : some (⟨4112, 8⟩ : Block) = some b := (List.cons.inj hblocks).1
        have hdvd : 64 ∣ b.start := hb.aligned
        rw [← Option.some.inj hsame] at hdvd
        exact absurd hdvd (by decide)

end Alloc

end EarthRise
