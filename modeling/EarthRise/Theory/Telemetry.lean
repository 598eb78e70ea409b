import EarthRise.Core.Telemetry
import Mathlib.Data.List.Rotate

/-!
# What a Percentile Window Returns

The ring is a rotation of the last samples that were added, as many as fit, and nothing of what
was cleared. So the sorted copy is that of these samples, and the sample of a rank is the least
one that so many of them do not exceed.

The rank is the product of the level and the count, rounded up, and the product is that of two
doubles. Rounding keeps the order and does not pass a whole number, so the rank is the one of the
exact product or the one below: a tenth of ten is one, although the double next to a tenth is
greater than that.

A capacity of zero is taken for one.

## Main definitions

* `sinceClear`, `recent`: The samples that a window is to hold.
* `NearestRank`: The least sample that so many do not exceed.
* `Holds`: The ring is a rotation of the samples.

## Theorems

* `Holds.add`: One more sample, while the ring grows and after that.
* `nearestRank_sorted`: The sample of a rank in a sorted list.
* `percentile_window`: What every window holds and returns.
* `tenth_rounded`: What is not as in exact numbers.
-/

namespace EarthRise

namespace Telemetry

open NearestDouble

variable {α : Type}

/-- The samples added since the last clear, the oldest first. -/
def sinceClear : List α → List (Sampling α) → List α
  | hist, [] => hist
  | hist, .add v :: ops => sinceClear (hist ++ [v]) ops
  | _, .clear :: ops => sinceClear [] ops

/-- The last `n` samples since the last clear. -/
def recent (n : Nat) (ops : List (Sampling α)) : List α :=
  (sinceClear [] ops).drop ((sinceClear [] ops).length - n)

/-- The least of the samples that at least `t` of them do not exceed. -/
structure NearestRank [LinearOrder α] (held : List α) (t : ℚ) (x : α) : Prop where
  mem : x ∈ held
  enough : t ≤ held.countP (· ≤ x)
  least : ∀ y ∈ held, y < x → (held.countP (· ≤ y) : ℚ) < t

/-! ## The ring -/

namespace PercentileWindow

/-- The ring, from the head on, is the last of the samples. -/
structure Holds (w : PercentileWindow α) (hist : List α) : Prop where
  head_lt : w.head < w.cap
  growing : w.ring.length < w.cap → w.head = 0
  rotated : w.ring.rotate w.head = hist.drop (hist.length - w.cap)

theorem holds_start (cap : Nat) : (start cap : PercentileWindow α).Holds [] := by
  refine ⟨?_, fun _ => rfl, (List.rotate_nil 0).trans List.drop_nil.symm⟩
  show 0 < if cap = 0 then 1 else cap
  split
  · exact Nat.one_pos
  · omega

variable {w : PercentileWindow α} {hist : List α}

theorem Holds.length (h : w.Holds hist) :
    w.ring.length = min hist.length w.cap := by
  have hlen := congrArg List.length h.rotated
  rw [List.length_rotate, List.length_drop] at hlen
  omega

theorem Holds.add (h : w.Holds hist) (v : α) :
    (w.add v).Holds (hist ++ [v]) := by
  have hlength := h.length
  have hhead := h.head_lt
  unfold PercentileWindow.add
  by_cases hroom : w.ring.length < w.cap
  · -- Still growing: the ring is all that was added.
    rw [if_pos hroom]
    have hring := h.rotated
    rw [h.growing hroom, List.rotate_zero, Nat.sub_eq_zero_of_le (by omega), List.drop_zero] at hring
    refine ⟨hhead, fun _ => h.growing hroom, ?_⟩
    show (w.ring ++ [v]).rotate w.head = (hist ++ [v]).drop ((hist ++ [v]).length - w.cap)
    rw [h.growing hroom, List.rotate_zero, hring, List.length_append, List.length_singleton,
      Nat.sub_eq_zero_of_le (by omega), List.drop_zero]
  · rw [if_neg hroom]
    have hfull : w.ring.length = w.cap := by omega
    refine ⟨Nat.mod_lt _ (by omega), fun hlt => ?_, ?_⟩
    · have hlt' : (w.ring.set w.head v).length < w.cap := hlt
      rw [List.length_set] at hlt'
      exact absurd hlt' hroom
    · -- The oldest sample, at the head, gives way to the newest.
      have hmod : (w.head + 1) % w.cap = (w.head + 1) % (w.ring.set w.head v).length := by
        rw [List.length_set, hfull]
      have hold := h.rotated
      rw [List.rotate_eq_drop_append_take (by omega), List.drop_eq_getElem_cons (by omega)] at hold
      show (w.ring.set w.head v).rotate ((w.head + 1) % w.cap) = _
      have htake : (w.ring.set w.head v).take (w.head + 1) = w.ring.take w.head ++ [v] := by
        rw [List.take_add_one, List.getElem?_set_self (by omega), List.take_set_of_le (Nat.le_refl _)]
        rfl
      have hdrop : (hist ++ [v]).drop (hist.length + 1 - w.cap) =
          hist.drop (hist.length - w.cap + 1) ++ [v] := by
        rw [show hist.length + 1 - w.cap = hist.length - w.cap + 1 by omega,
          List.drop_append_of_le_length (by omega)]
      rw [hmod, List.rotate_mod, List.rotate_eq_drop_append_take (by rw [List.length_set]; omega),
        htake, List.drop_set_of_lt (Nat.lt_succ_self _), List.length_append, List.length_singleton,
        hdrop, ← List.drop_drop, ← hold, ← List.append_assoc]
      rfl

theorem run_holds (ops : List (Sampling α))
    (h : w.Holds hist) : (w.run ops).Holds (sinceClear hist ops) ∧ (w.run ops).cap = w.cap := by
  induction ops generalizing w hist with
  | nil => exact ⟨h, rfl⟩
  | cons op ops ih =>
      cases op with
      | add v =>
          have hcap : (w.add v).cap = w.cap := by
            unfold PercentileWindow.add
            split
            · rfl
            · rfl
          rcases ih (h.add v) with ⟨hrest, hsame⟩
          exact ⟨hrest, hsame.trans hcap⟩
      | clear =>
          have hclear : w.clear.Holds [] := ⟨by
            show 0 < w.cap
            exact Nat.lt_of_le_of_lt (Nat.zero_le _) h.head_lt, fun _ => rfl,
            (List.rotate_nil 0).trans List.drop_nil.symm⟩
          exact ih hclear

/-- Every window holds the last samples, and no others. -/
theorem run_perm (cap : Nat) (ops : List (Sampling α)) :
    ((start cap).run ops).ring.Perm (recent (max 1 cap) ops) := by
  rcases run_holds ops (holds_start (α := α) cap) with ⟨hholds, hcap⟩
  have hmax : ((start cap).run ops).cap = max 1 cap := by
    rw [hcap]
    show (if cap = 0 then 1 else cap) = max 1 cap
    split
    · omega
    · omega
  have hrotated := hholds.rotated
  rw [hmax] at hrotated
  exact (List.rotate_perm _ _).symm.trans (List.Perm.of_eq hrotated)

end PercentileWindow

/-! ## Ranks -/

section

variable [LinearOrder α]

/-- How many do not exceed a sample is a whole number, so only the ceiling of `t` matters. -/
theorem nearestRank_congr {held : List α} {t t' : ℚ} {x : α} (h : ⌈t⌉₊ = ⌈t'⌉₊)
    (hx : NearestRank held t x) : NearestRank held t' x where
  mem := hx.mem
  enough := by
    have hle := Nat.ceil_le.mpr hx.enough
    rw [h] at hle
    exact Nat.ceil_le.mp hle
  least := by
    intro y hy hlt
    have hless := Nat.lt_ceil.mpr (hx.least y hy hlt)
    rw [h] at hless
    exact Nat.lt_ceil.mp hless

/-- The sample of a rank in a sorted list, counted from zero. -/
theorem nearestRank_sorted {s : List α} (hs : s.Pairwise (· ≤ ·)) {k : Nat} (hk : k < s.length)
    {t : ℚ} (ht : t ≤ k + 1) (hlow : k = 0 ∨ (k : ℚ) < t) : NearestRank s t (s[k]) where
  mem := List.getElem_mem hk
  enough := by
    -- Those up to it do not exceed it.
    have hcount : k + 1 ≤ s.countP (· ≤ s[k]) := by
      have hall : ∀ y ∈ s.take (k + 1), decide (y ≤ s[k]) = true := by
        intro y hy
        rcases List.getElem_of_mem hy with ⟨i, hi, rfl⟩
        rw [List.length_take] at hi
        rw [List.getElem_take, decide_eq_true_eq]
        rcases Nat.lt_or_eq_of_le (Nat.le_of_lt_succ (Nat.lt_of_lt_of_le hi (Nat.min_le_left _ _)))
          with hlt | rfl
        · exact List.pairwise_iff_getElem.mp hs i k (by omega) hk hlt
        · exact le_refl _
      have htake := List.countP_eq_length.mpr hall
      rw [List.length_take, Nat.min_eq_left hk] at htake
      have hsub := (List.take_sublist (k + 1) s).countP_le (p := fun y => decide (y ≤ s[k]))
      omega
    have hcast : ((k + 1 : Nat) : ℚ) ≤ s.countP (· ≤ s[k]) := Nat.cast_le.mpr hcount
    push_cast at hcast
    exact ht.trans hcast
  least := by
    intro y hy hlt
    -- Only those before it can be less.
    have hcount : s.countP (· ≤ y) ≤ k := by
      have hnone : (s.drop k).countP (· ≤ y) = 0 := by
        rw [List.countP_eq_zero]
        intro z hz
        rcases List.getElem_of_mem hz with ⟨i, hi, rfl⟩
        rw [List.getElem_drop, decide_eq_true_eq, not_le]
        refine lt_of_lt_of_le hlt ?_
        rw [List.length_drop] at hi
        rcases Nat.eq_zero_or_pos i with rfl | hpos
        · exact le_refl _
        · exact List.pairwise_iff_getElem.mp hs k (k + i) hk (by omega) (by omega)
      have hsplit : (s.take k ++ s.drop k).countP (· ≤ y) =
          (s.take k).countP (· ≤ y) + (s.drop k).countP (· ≤ y) := List.countP_append
      rw [List.take_append_drop, hnone] at hsplit
      have hle := List.countP_le_length (p := fun z => decide (z ≤ y)) (l := s.take k)
      rw [List.length_take] at hle
      omega
    have hself : 0 < s.countP (· ≤ y) :=
      List.countP_pos_iff.mpr ⟨y, hy, decide_eq_true (le_refl y)⟩
    rcases hlow with h0 | hpos
    · omega
    · exact lt_of_le_of_lt (Nat.cast_le.mpr hcount) hpos

theorem nearestRank_perm {l₁ l₂ : List α} (h : l₁.Perm l₂) {t : ℚ} {x : α}
    (hx : NearestRank l₁ t x) : NearestRank l₂ t x where
  mem := h.mem_iff.mp hx.mem
  enough := by
    rw [← h.countP_eq]
    exact hx.enough
  least := by
    intro y hy hlt
    rw [← h.countP_eq]
    exact hx.least y (h.mem_iff.mpr hy) hlt

namespace PercentileWindow

variable {q : ℚ}

theorem clamped_of_mem (h0 : 0 ≤ q) (h1 : q ≤ 1) : clamped q = q := by
  unfold clamped
  rw [if_neg (not_lt.mpr h0), if_neg (not_lt.mpr h1)]

theorem rank_eq (q : ℚ) (n : Nat) : rank q n = min n (max 1 ⌈product q n⌉₊) := by
  unfold rank
  simp only []
  split
  · split
    · omega
    · omega
  · split
    · omega
    · omega

theorem percentile_sorted [Zero α] (w : PercentileWindow α) (q : ℚ) (hne : w.ring ≠ []) :
    ∃ hk : rank q w.ring.length - 1 < (w.ring.insertionSort (· ≤ ·)).length,
      w.percentile q = (w.ring.insertionSort (· ≤ ·))[rank q w.ring.length - 1] := by
  have hpos := List.length_pos_iff.mpr hne
  have hk : rank q w.ring.length - 1 < (w.ring.insertionSort (· ≤ ·)).length := by
    rw [List.length_insertionSort, rank_eq]
    omega
  refine ⟨hk, ?_⟩
  unfold percentile
  rw [if_neg hne]
  simp only [List.length_insertionSort]
  rw [List.getD_eq_getElem?_getD, List.getElem?_eq_getElem hk, Option.getD_some]

/-- What a window returns that is not empty. -/
theorem percentile_nearestRank [Zero α] (w : PercentileWindow α) (q : ℚ) (hne : w.ring ≠ []) :
    NearestRank w.ring (min (product q w.ring.length) w.ring.length) (w.percentile q) := by
  rcases percentile_sorted w q hne with ⟨hk, heq⟩
  have hpos := List.length_pos_iff.mpr hne
  have hrank := rank_eq q w.ring.length
  have hceil := Nat.le_ceil (product q w.ring.length)
  rw [heq]
  refine nearestRank_perm (List.perm_insertionSort (· ≤ ·) w.ring)
    (nearestRank_sorted (List.pairwise_insertionSort (· ≤ ·) w.ring) hk ?_ ?_)
  · have hsucc : rank q w.ring.length - 1 + 1 = min w.ring.length
        (max 1 ⌈product q w.ring.length⌉₊) := by omega
    have hcast : ((rank q w.ring.length - 1 : Nat) : ℚ) + 1 =
        ((min w.ring.length (max 1 ⌈product q w.ring.length⌉₊) : Nat) : ℚ) := by
      rw [← hsucc]
      push_cast
      rfl
    rw [hcast, Nat.cast_min, Nat.cast_max]
    exact le_min (min_le_right _ _) ((min_le_left _ _).trans (hceil.trans (le_max_right _ _)))
  · rcases Nat.eq_zero_or_pos (rank q w.ring.length - 1) with h0 | hpos'
    · exact Or.inl h0
    · refine Or.inr (lt_min (Nat.lt_ceil.mp ?_) (Nat.cast_lt.mpr ?_))
      · omega
      · omega

theorem product_mono {q q' : ℚ} (n : Nat) (h0 : 0 ≤ q) (h : q ≤ q') (h1 : q' ≤ 1) :
    product q n ≤ product q' n := by
  unfold product
  rw [clamped_of_mem h0 (h.trans h1), clamped_of_mem (h0.trans h) h1]
  have hn := nearest_nonneg (Nat.cast_nonneg (α := ℚ) n)
  exact nearest_mono (mul_nonneg h0 hn) (mul_le_mul_of_nonneg_right h hn)

theorem percentile_mono [Zero α] (w : PercentileWindow α) {q q' : ℚ} (h0 : 0 ≤ q) (h : q ≤ q')
    (h1 : q' ≤ 1) : w.percentile q ≤ w.percentile q' := by
  by_cases hne : w.ring = []
  · unfold percentile
    rw [if_pos hne, if_pos hne]
  · rcases percentile_sorted w q hne with ⟨hk, heq⟩
    rcases percentile_sorted w q' hne with ⟨hk', heq'⟩
    have hrank : rank q w.ring.length ≤ rank q' w.ring.length := by
      have hceil := Nat.ceil_mono (product_mono w.ring.length h0 h h1)
      rw [rank_eq, rank_eq]
      omega
    rw [heq, heq']
    rcases Nat.lt_or_eq_of_le (Nat.sub_le_sub_right hrank 1) with hlt | hsame
    · exact List.pairwise_iff_getElem.mp (List.pairwise_insertionSort (· ≤ ·) w.ring) _ _ hk hk' hlt
    · simp only [hsame, le_refl]

/-- Up to `2 ^ 53` samples the count is a double. -/
theorem product_eq {n : Nat} (h0 : 0 ≤ q) (h1 : q ≤ 1) (hn : n ≤ 2 ^ 53) :
    product q n = nearest (q * n) := by
  unfold product
  rw [clamped_of_mem h0 h1, nearest_natCast hn]

theorem percentile_one [Zero α] (w : PercentileWindow α) (hne : w.ring ≠ [])
    (hn : w.ring.length ≤ 2 ^ 53) : ∀ y ∈ w.ring, y ≤ w.percentile 1 := by
  intro y hy
  have hall := (percentile_nearestRank w 1 hne).enough
  rw [product_eq zero_le_one (le_refl 1) hn, one_mul, nearest_natCast hn, min_self,
    Nat.cast_le] at hall
  -- All of them do not exceed it.
  have heq := Nat.le_antisymm List.countP_le_length hall
  exact of_decide_eq_true (List.countP_eq_length.mp heq y hy)

/-- The rank is the one of the exact product, or the one below. -/
theorem percentile_exact [Zero α] (w : PercentileWindow α) (hne : w.ring ≠ [])
    (hn : w.ring.length ≤ 2 ^ 53) (h0 : 0 ≤ q) (h1 : q ≤ 1) :
    NearestRank w.ring (q * w.ring.length) (w.percentile q) ∨
      NearestRank w.ring (q * w.ring.length - 1) (w.percentile q) := by
  have hx0 : 0 ≤ q * w.ring.length := mul_nonneg h0 (Nat.cast_nonneg _)
  have hxn : q * w.ring.length ≤ w.ring.length :=
    mul_le_of_le_one_left (Nat.cast_nonneg _) h1
  have hrank := percentile_nearestRank w q hne
  have hle : nearest (q * w.ring.length) ≤ w.ring.length := by
    have h := nearest_mono hx0 hxn
    rwa [nearest_natCast hn] at h
  rw [product_eq h0 h1 hn, min_eq_left hle] at hrank
  rcases ceil_nearest hx0 hxn hn with ⟨hlow, hhigh⟩
  rcases Nat.lt_or_eq_of_le hlow with hlt | hsame
  · refine Or.inr (nearestRank_congr ?_ hrank)
    have hsub : ⌈q * w.ring.length - 1⌉₊ = ⌈q * w.ring.length⌉₊ - 1 := Nat.ceil_sub_one _
    omega
  · exact Or.inl (nearestRank_congr hsame hrank)

end PercentileWindow

/-- Every window holds the last samples since the last clear, as many as its capacity and at least
    one. Its percentiles are the nearest-rank percentiles of these by the product of doubles: they
    are monotone in the level, and with up to `2 ^ 53` samples the one at level one is the maximum
    and every rank is that of the exact product or the one below. -/
theorem percentile_window [Zero α] (cap : Nat) (ops : List (Sampling α)) :
    let w := (PercentileWindow.start cap).run ops
    let held := recent (max 1 cap) ops
    w.ring.Perm held ∧ w.count = min (sinceClear [] ops).length (max 1 cap) ∧
    (∀ q q' : ℚ, 0 ≤ q → q ≤ q' → q' ≤ 1 → w.percentile q ≤ w.percentile q') ∧
    (held ≠ [] →
      (∀ q : ℚ, 0 ≤ q → q ≤ 1 →
        NearestRank held (min (nearest (q * nearest held.length)) held.length) (w.percentile q)) ∧
      (held.length ≤ 2 ^ 53 →
        (w.percentile 1 ∈ held ∧ ∀ y ∈ held, y ≤ w.percentile 1) ∧
        ∀ q : ℚ, 0 ≤ q → q ≤ 1 →
          NearestRank held (q * held.length) (w.percentile q) ∨
            NearestRank held (q * held.length - 1) (w.percentile q))) := by
  intro w held
  have hperm : w.ring.Perm held := PercentileWindow.run_perm cap ops
  have hlength := hperm.length_eq
  refine ⟨hperm, ?_, fun q q' h0 h h1 => PercentileWindow.percentile_mono w h0 h h1, fun hne => ?_⟩
  · have hheld : held.length = (sinceClear [] ops).length -
        ((sinceClear [] ops).length - max 1 cap) := List.length_drop
    show w.ring.length = _
    omega
  · have hring : w.ring ≠ [] := fun hnil => hne (List.perm_nil.mp (hnil ▸ hperm).symm)
    refine ⟨fun q h0 h1 => ?_, fun hn => ⟨⟨?_, fun y hy => ?_⟩, fun q h0 h1 => ?_⟩⟩
    · have h := nearestRank_perm hperm (PercentileWindow.percentile_nearestRank w q hring)
      unfold PercentileWindow.product at h
      rwa [PercentileWindow.clamped_of_mem h0 h1, hlength] at h
    · exact (nearestRank_perm hperm (PercentileWindow.percentile_nearestRank w 1 hring)).mem
    · exact PercentileWindow.percentile_one w hring (hlength ▸ hn) y (hperm.mem_iff.mpr hy)
    · have h := PercentileWindow.percentile_exact w hring (hlength ▸ hn) h0 h1
      rw [hlength] at h
      exact h.imp (nearestRank_perm hperm) (nearestRank_perm hperm)

end

/-- Four samples in a window of three. -/
theorem percentile_window_three :
    recent (max 1 3) [.add 5, .add 1, .add 4, .add 2] = [1, 4, 2] ∧
      ((PercentileWindow.start 3).run [.add 5, .add 1, .add 4, .add 2]).percentile 1 = 4 ∧
      ∀ y ∈ recent (max 1 3) [.add 5, .add 1, .add 4, .add 2],
        y ≤ ((PercentileWindow.start 3).run [.add 5, .add 1, .add 4, .add 2]).percentile 1 :=
  ⟨by decide, by decide +kernel,
    (((percentile_window 3 [.add 5, .add 1, .add 4, .add 2]).2.2.2 (by decide)).2 (by decide)).1.2⟩

/-- The double next to a tenth. -/
def tenth : ℚ := 3602879701896397 / 2 ^ 55

def upToTen : List (Sampling Nat) := (List.range 10).map fun i => .add (i + 1)

/-- A window of capacity zero holds a sample. And with ten samples a tenth of them is two by the
    exact product, but the window returns the first. -/
theorem tenth_rounded :
    ((PercentileWindow.start 0).run [.add 5]).count ≠ min [5].length 0 ∧
      ¬ NearestRank (recent 10 upToTen) (tenth * (recent 10 upToTen).length)
        (((PercentileWindow.start 10).run upToTen).percentile tenth) := by
  refine ⟨by decide, fun h => ?_⟩
  have hfirst : ((PercentileWindow.start 10).run upToTen).percentile tenth = 1 := by
    decide +kernel
  have hcount : (recent 10 upToTen).length = 10 ∧ (recent 10 upToTen).countP (· ≤ 1) = 1 := by
    decide
  have henough := h.enough
  rw [hfirst, hcount.1, hcount.2] at henough
  exact absurd henough (by decide +kernel)

end Telemetry

end EarthRise
