import Mathlib.Data.List.Destutter
import Mathlib.Data.List.Sort
import Mathlib.Order.Defs.LinearOrder

/-!
# Sorted Lists and Rankings

A set kept as a list in strictly increasing order. A value is added or dropped
at its lower bound, the first position whose value is not below it, so the order
stays; a list that is not sorted is sorted and thinned once.

Two strictly sorted lists with the same values are equal, so a lemma about
membership says all there is to say about such a list.

Lists put in order by a key, the greatest first, equal keys by ascending id.

The order is total and transitive for any two linear orders, so a sort exists. It
is antisymmetric only as far as ids tell the elements apart: on a list of distinct
ids there is one sorted arrangement, and it is the same for every arrangement the
sort was given.

## Main definitions

* `SortedList.insert`, `SortedList.erase`: Add and drop a value.
* `SortedList.ofList`: Sort a list and drop the repeats.
* `Before`: Greater key, or the same key and no greater id.
* `Ahead`: Greater key, or the same key and smaller id.
* `rank`: The list in that order.

## Theorems

* `mem_insert`, `mem_erase`, `mem_ofList`: What the lists hold.
* `sorted_insert`, `sorted_erase`, `sorted_ofList`: They are strictly sorted.
* `eq_of_mem_iff`: A strictly sorted list is determined by what it holds.
* `rank_perm`: The rank of a list of distinct ids does not depend on its order.
* `ahead_rank`: In the rank of a list of distinct ids, each is ahead of all later.
-/

namespace EarthRise

namespace SortedList

variable {α : Type*} [LinearOrder α] {l : List α} {x y : α}

/-- A list in strictly increasing order. -/
def Sorted (l : List α) : Prop := l.Pairwise (· < ·)

/-- The values below the lower bound of `x`. -/
def below (l : List α) (x : α) : List α := l.takeWhile fun y => y < x

/-- The values from the lower bound of `x` on. -/
def fromBound (l : List α) (x : α) : List α := l.dropWhile fun y => y < x

/-- Insert a value at its lower bound, unless it is there. -/
def insert (l : List α) (x : α) : List α :=
  if (fromBound l x).head? = some x then l else below l x ++ x :: fromBound l x

/-- Drop the value at the lower bound if it is the one sought. -/
def erase (l : List α) (x : α) : List α :=
  if (fromBound l x).head? = some x then below l x ++ (fromBound l x).tail else l

/-- Sort a list and keep one of each value. -/
def ofList (l : List α) : List α :=
  (l.mergeSort fun a b => decide (a ≤ b)).destutter (· ≠ ·)

theorem below_append_fromBound (l : List α) (x : α) : below l x ++ fromBound l x = l :=
  List.takeWhile_append_dropWhile

theorem lt_of_mem_below (h : y ∈ below l x) : y < x := by
  have htest := List.all_takeWhile (p := fun y => decide (y < x)) (l := l)
  exact of_decide_eq_true (List.all_eq_true.mp htest y h)

/-- From its lower bound on, no value of a sorted list is below `x`. -/
theorem le_of_mem_fromBound (hl : Sorted l) (h : y ∈ fromBound l x) :
    x ≤ y := by
  induction l with
  | nil => exact absurd h List.not_mem_nil
  | cons a l ih =>
      have htail : Sorted l := List.Pairwise.of_cons hl
      unfold fromBound at h ih
      rw [List.dropWhile_cons] at h
      by_cases hax : a < x
      · rw [if_pos (decide_eq_true hax)] at h
        exact ih htail h
      · rw [if_neg (by simpa using hax)] at h
        have hle : x ≤ a := not_lt.mp hax
        rcases List.mem_cons.mp h with heq | hin
        · rw [heq]
          exact hle
        · exact le_trans hle (le_of_lt (List.rel_of_pairwise_cons hl hin))

/-- A value is in a sorted list exactly when it stands at its lower bound. -/
theorem head_fromBound {x : α} (hl : Sorted l) :
    (fromBound l x).head? = some x ↔ x ∈ l := by
  constructor
  · intro h
    rw [← below_append_fromBound l x]
    exact List.mem_append_right _ (List.mem_of_mem_head? h)
  · intro h
    rw [← below_append_fromBound l x, List.mem_append] at h
    rcases h with hlow | hin
    · exact absurd (lt_of_mem_below hlow) (lt_irrefl x)
    · -- the head of what is left is at least `x`, and `x` is at least the head
      have hsub : Sorted (fromBound l x) := hl.sublist (List.dropWhile_sublist _)
      cases hf : fromBound l x with
      | nil => exact absurd (hf ▸ hin) List.not_mem_nil
      | cons a m =>
          have hle : x ≤ a := le_of_mem_fromBound hl (hf ▸ List.mem_cons_self)
          rw [hf] at hin hsub
          rcases List.mem_cons.mp hin with heq | htail
          · rw [heq]
            rfl
          · exact absurd (List.rel_of_pairwise_cons hsub htail) (not_lt.mpr hle)

theorem mem_insert (hl : Sorted l) :
    y ∈ insert l x ↔ y = x ∨ y ∈ l := by
  unfold insert
  split
  · rename_i h
    have hx : x ∈ l := (head_fromBound hl).mp h
    constructor
    · exact Or.inr
    · rintro (rfl | hy)
      · exact hx
      · exact hy
  · have hmem : y ∈ l ↔ y ∈ below l x ∨ y ∈ fromBound l x := by
      rw [← List.mem_append, below_append_fromBound]
    rw [List.mem_append, List.mem_cons, hmem]
    tauto

theorem sorted_insert (x : α) (hl : Sorted l) : Sorted (insert l x) := by
  unfold insert
  split
  · exact hl
  · rename_i h
    have hx : x ∉ l := fun hc => h ((head_fromBound hl).mpr hc)
    refine List.pairwise_append.mpr ⟨hl.sublist (List.takeWhile_sublist _),
      List.pairwise_cons.mpr ⟨?_, hl.sublist (List.dropWhile_sublist _)⟩, ?_⟩
    · intro y hy
      refine lt_of_le_of_ne (le_of_mem_fromBound hl hy) fun heq => hx ?_
      rw [heq]
      exact (List.dropWhile_sublist _).subset hy
    · intro y hy z hz
      have hlt : y < x := lt_of_mem_below hy
      rcases List.mem_cons.mp hz with heq | hz'
      · rw [heq]
        exact hlt
      · exact lt_of_lt_of_le hlt (le_of_mem_fromBound hl hz')

theorem sorted_erase (x : α) (hl : Sorted l) : Sorted (erase l x) := by
  unfold erase
  split
  · refine hl.sublist ?_
    rw [← below_append_fromBound l x]
    exact List.Sublist.append_left (List.tail_sublist _) _ |>.trans
      (by rw [below_append_fromBound])
  · exact hl

theorem mem_erase (hl : Sorted l) :
    y ∈ erase l x ↔ y ∈ l ∧ y ≠ x := by
  unfold erase
  split
  · rename_i h
    -- the list is what lies below `x`, then `x`, then what lies above it
    obtain ⟨m, hm⟩ : ∃ m, fromBound l x = x :: m := by
      cases hf : fromBound l x with
      | nil =>
          rw [hf] at h
          exact absurd h nofun
      | cons a m =>
          rw [hf, List.head?_cons, Option.some.injEq] at h
          exact ⟨m, by rw [h]⟩
    have hmem : y ∈ l ↔ y ∈ below l x ∨ y = x ∨ y ∈ m := by
      rw [← List.mem_cons, ← hm, ← List.mem_append, below_append_fromBound]
    have habove : y ∈ m → y ≠ x := by
      intro hy
      have hsub : Sorted (x :: m) := hm ▸ hl.sublist (List.dropWhile_sublist _)
      exact ne_of_gt (List.rel_of_pairwise_cons hsub hy)
    have hbelow : y ∈ below l x → y ≠ x := fun hy => ne_of_lt (lt_of_mem_below hy)
    rw [List.mem_append, hm, List.tail_cons, hmem]
    tauto
  · rename_i h
    have hx : x ∉ l := fun hc => h ((head_fromBound hl).mpr hc)
    constructor
    · exact fun hy => ⟨hy, fun heq => hx (heq ▸ hy)⟩
    · exact And.left

theorem insert_ne_nil (x : α) (hl : Sorted l) : insert l x ≠ [] :=
  List.ne_nil_of_mem ((mem_insert hl).mpr (Or.inl rfl))

/-! ## Sorting a list -/

/-- Thinning a list keeps one of each run, so every value stays. -/
theorem mem_destutter' (l : List α) (a y : α) :
    y ∈ l.destutter' (· ≠ ·) a ↔ y = a ∨ y ∈ l := by
  induction l generalizing a with
  | nil => rw [List.destutter'_nil, List.mem_singleton]; simp only [List.not_mem_nil, or_false]
  | cons b l ih =>
      by_cases h : a ≠ b
      · rw [List.destutter'_cons_pos (R := (· ≠ ·)) l h, List.mem_cons, ih, List.mem_cons]
      · rw [List.destutter'_cons_neg (R := (· ≠ ·)) l h, ih, List.mem_cons, not_not.mp h]
        tauto

theorem mem_destutter (l : List α) (y : α) : y ∈ l.destutter (· ≠ ·) ↔ y ∈ l := by
  cases l with
  | nil => exact Iff.rfl
  | cons a l => rw [List.destutter_cons', mem_destutter', List.mem_cons]

theorem mem_ofList (l : List α) (y : α) : y ∈ ofList l ↔ y ∈ l := by
  unfold ofList
  rw [mem_destutter, List.mem_mergeSort]

theorem sorted_ofList (l : List α) : Sorted (ofList l) := by
  unfold Sorted ofList
  have hle : (l.mergeSort fun a b => decide (a ≤ b)).Pairwise (· ≤ ·) := by
    refine (List.pairwise_mergeSort ?_ ?_ l).imp fun h => of_decide_eq_true h
    · exact fun a b c hab hbc => decide_eq_true
        (le_trans (of_decide_eq_true hab) (of_decide_eq_true hbc))
    · intro a b
      rw [Bool.or_eq_true, decide_eq_true_eq, decide_eq_true_eq]
      exact le_total a b
  -- neighbours are in order and distinct
  have hthin := hle.sublist (List.destutter_sublist (· ≠ ·) _)
  have hchain := List.isChain_destutter (· ≠ ·) (l.mergeSort fun a b => decide (a ≤ b))
  rw [← List.isChain_iff_pairwise] at hthin ⊢
  rw [List.isChain_iff_getElem] at hthin hchain ⊢
  exact fun i hi => lt_of_le_of_ne (hthin i hi) (hchain i hi)

theorem eq_of_mem_iff {l m : List α} (hl : Sorted l) (hm : Sorted m)
    (h : ∀ x, x ∈ l ↔ x ∈ m) : l = m := by
  have hperm : l.Perm m :=
    (List.perm_ext_iff_of_nodup (hl.imp ne_of_lt) (hm.imp ne_of_lt)).mpr h
  exact hperm.eq_of_pairwise (fun a b _ _ hab hba => absurd hab (not_lt_of_gt hba)) hl hm

end SortedList

namespace Ranking

variable {α K I : Type*} [LinearOrder K] [LinearOrder I] (key : α → K) (name : α → I)

/-- Greater key first, equal keys by ascending id. -/
def Before (a b : α) : Prop := key b < key a ∨ (key a = key b ∧ name a ≤ name b)

/-- The same, for different ids. -/
def Ahead (a b : α) : Prop := key b < key a ∨ (key a = key b ∧ name a < name b)

instance : DecidableRel (Before key name) := fun _ _ => inferInstanceAs (Decidable (_ ∨ _ ∧ _))

instance : DecidableRel (Ahead key name) := fun _ _ => inferInstanceAs (Decidable (_ ∨ _ ∧ _))

instance : Std.Total (Before key name) where
  total a b := by
    unfold Before
    rcases lt_trichotomy (key a) (key b) with h | h | h
    · exact Or.inr (Or.inl h)
    · rcases le_total (name a) (name b) with hn | hn
      · exact Or.inl (Or.inr ⟨h, hn⟩)
      · exact Or.inr (Or.inr ⟨h.symm, hn⟩)
    · exact Or.inl (Or.inl h)

instance : IsTrans α (Before key name) where
  trans a b c := by
    rintro (hab | ⟨hab, nab⟩) (hbc | ⟨hbc, nbc⟩)
    · exact Or.inl (lt_trans hbc hab)
    · exact Or.inl (by rw [← hbc]; exact hab)
    · exact Or.inl (by rw [hab]; exact hbc)
    · exact Or.inr ⟨hab.trans hbc, le_trans nab nbc⟩

/-- A list in the order of its keys. -/
def rank (l : List α) : List α := l.insertionSort (Before key name)

theorem perm_rank (l : List α) : (rank key name l).Perm l := List.perm_insertionSort _ l

theorem length_rank (l : List α) : (rank key name l).length = l.length :=
  (perm_rank key name l).length_eq

variable {key name}

theorem Before.antisymm {a b : α} (hab : Before key name a b) (hba : Before key name b a) :
    name a = name b := by
  rcases hab with hab | ⟨_, nab⟩
  · rcases hba with hba | ⟨hba, _⟩
    · exact absurd hab (lt_asymm hba)
    · exact absurd hab (by rw [hba]; exact lt_irrefl _)
  · rcases hba with hba | ⟨_, nba⟩
    · rename_i h
      exact absurd hba (by rw [h]; exact lt_irrefl _)
    · exact le_antisymm nab nba

theorem Before.ahead {a b : α} (h : Before key name a b) (hne : name a ≠ name b) :
    Ahead key name a b := by
  rcases h with h | ⟨h, hn⟩
  · exact Or.inl h
  · exact Or.inr ⟨h, lt_of_le_of_ne hn hne⟩

/-- Distinct ids leave one arrangement. -/
theorem rank_perm {l l' : List α} (h : l.Perm l') (hl : (l.map name).Nodup) :
    rank key name l = rank key name l' := by
  refine List.Perm.eq_of_pairwise ?_ (List.pairwise_insertionSort (Before key name) l)
    (List.pairwise_insertionSort (Before key name) l') ?_
  · intro a b ha hb hab hba
    have hb' : b ∈ l := h.mem_iff.mpr ((List.mem_insertionSort _).mp hb)
    exact List.inj_on_of_nodup_map hl ((List.mem_insertionSort _).mp ha) hb' (hab.antisymm hba)
  · exact ((perm_rank key name l).trans h).trans (perm_rank key name l').symm

theorem ahead_rank {l : List α} (hl : (l.map name).Nodup) :
    (rank key name l).Pairwise (Ahead key name) := by
  have hsorted := List.pairwise_insertionSort (Before key name) l
  have hdistinct : (rank key name l).Pairwise fun a b => name a ≠ name b := by
    have hperm := ((perm_rank key name l).map name).nodup_iff.mpr hl
    exact List.pairwise_map.mp hperm
  exact List.Pairwise.imp₂ (fun _ _ h hne => h.ahead hne) hsorted hdistinct

end Ranking

end EarthRise
