import Mathlib.Data.List.Basic

/-!
# Association Lists

A table as a list of keyed values, looked up from the front. A key that occurs
again further back is never seen, so the lookups below ask for no distinctness.

## Main definitions

* `lookup`: The first value under a key.
* `adjust`: Change the values under a key.
* `erase`: Drop the values under a key.

## Theorems

* `lookup_adjust`, `lookup_erase`, `lookup_append`, `lookup_mapValues`: The lookups
  after a change.
* `mem_of_lookup`, `lookup_of_mem`: What is found is there, and what is there is found.
-/

namespace EarthRise

namespace Assoc

variable {κ ν : Type*} [DecidableEq κ]

/-- The first value under a key. -/
def lookup (l : List (κ × ν)) (k : κ) : Option ν := (l.find? fun e => e.1 = k).map Prod.snd

/-- Change the values under a key. -/
def adjust (l : List (κ × ν)) (k : κ) (f : ν → ν) : List (κ × ν) :=
  l.map fun e => if e.1 = k then (e.1, f e.2) else e

/-- Drop the values under a key. -/
def erase (l : List (κ × ν)) (k : κ) : List (κ × ν) := l.filter fun e => e.1 ≠ k

theorem lookup_nil (k : κ) : lookup ([] : List (κ × ν)) k = none := rfl

theorem lookup_cons (e : κ × ν) (l : List (κ × ν)) (k : κ) :
    lookup (e :: l) k = if e.1 = k then some e.2 else lookup l k := by
  unfold lookup
  rw [List.find?_cons]
  by_cases he : e.1 = k
  · simp only [he, decide_true, Option.map_some, if_true]
  · simp only [he, decide_false, if_false]

theorem lookup_append (l m : List (κ × ν)) (k : κ) :
    lookup (l ++ m) k = (lookup l k).or (lookup m k) := by
  induction l with
  | nil => rfl
  | cons e l ih =>
      rw [List.cons_append, lookup_cons, lookup_cons, ih]
      by_cases he : e.1 = k
      · rw [if_pos he, if_pos he, Option.some_or]
      · rw [if_neg he, if_neg he]

theorem lookup_adjust (l : List (κ × ν)) (k : κ) (f : ν → ν) (k' : κ) :
    lookup (adjust l k f) k' = if k' = k then (lookup l k').map f else lookup l k' := by
  induction l with
  | nil => simp only [adjust, List.map_nil, lookup_nil, Option.map_none, ite_self]
  | cons e l ih =>
      have hcons : adjust (e :: l) k f =
          (if e.1 = k then (e.1, f e.2) else e) :: adjust l k f := rfl
      rw [hcons, lookup_cons, lookup_cons, ih]
      by_cases hk : k' = k
      · rw [if_pos hk, if_pos hk, hk]
        by_cases he : e.1 = k
        · rw [if_pos he, if_pos he, if_pos he, Option.map_some]
        · rw [if_neg he, if_neg he, if_neg he]
      · rw [if_neg hk, if_neg hk]
        by_cases he : e.1 = k
        · rw [if_pos he, if_neg (by rw [he]; exact fun h => hk h.symm), if_neg (by
            rw [he]
            exact fun h => hk h.symm)]
        · rw [if_neg he]

theorem lookup_erase (l : List (κ × ν)) (k k' : κ) :
    lookup (erase l k) k' = if k' = k then none else lookup l k' := by
  induction l with
  | nil => simp only [erase, List.filter_nil, lookup_nil, ite_self]
  | cons e l ih =>
      unfold erase at ih ⊢
      by_cases he : e.1 = k
      · rw [List.filter_cons_of_neg (by simp only [he, ne_eq, not_true_eq_false, decide_false,
          Bool.false_eq_true, not_false_eq_true]), ih, lookup_cons]
        by_cases hk : k' = k
        · rw [if_pos hk, if_pos hk]
        · rw [if_neg hk, if_neg hk, if_neg (by rw [he]; exact fun h => hk h.symm)]
      · rw [List.filter_cons_of_pos (by simp only [he, ne_eq, not_false_eq_true, decide_true]),
          lookup_cons, lookup_cons, ih]
        by_cases hk : k' = k
        · rw [if_pos hk, if_pos hk, if_neg (by rw [hk]; exact he)]
        · rw [if_neg hk, if_neg hk]

/-- Changing every value changes what is found. -/
theorem lookup_mapValues {μ : Type*} (l : List (κ × ν)) (f : ν → μ) (k : κ) :
    lookup (l.map fun e => (e.1, f e.2)) k = (lookup l k).map f := by
  induction l with
  | nil => rfl
  | cons e l ih =>
      rw [List.map_cons, lookup_cons, lookup_cons, ih]
      by_cases he : e.1 = k
      · rw [if_pos he, if_pos he, Option.map_some]
      · rw [if_neg he, if_neg he]

theorem mem_of_lookup {l : List (κ × ν)} {k : κ} {v : ν} (h : lookup l k = some v) :
    (k, v) ∈ l := by
  induction l with
  | nil => exact absurd h nofun
  | cons e l ih =>
      rw [lookup_cons] at h
      by_cases he : e.1 = k
      · rw [if_pos he, Option.some.injEq] at h
        rw [← he, ← h]
        exact List.mem_cons_self
      · rw [if_neg he] at h
        exact List.mem_cons_of_mem e (ih h)

/-- With distinct keys every value is found. -/
theorem lookup_of_mem {l : List (κ × ν)} {k : κ} {v : ν} (hdistinct : (l.map Prod.fst).Nodup)
    (h : (k, v) ∈ l) : lookup l k = some v := by
  induction l with
  | nil => exact absurd h List.not_mem_nil
  | cons e l ih =>
      rw [List.map_cons, List.nodup_cons] at hdistinct
      rw [lookup_cons]
      rcases List.mem_cons.mp h with heq | hin
      · rw [← heq, if_pos rfl]
      · rw [if_neg fun hk => hdistinct.1 (by
          rw [hk]
          exact List.mem_map.mpr ⟨(k, v), hin, rfl⟩)]
        exact ih hdistinct.2 hin

end Assoc

end EarthRise
