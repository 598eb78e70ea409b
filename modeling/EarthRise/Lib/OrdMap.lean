import Mathlib.Data.List.Nodup
import Mathlib.Order.Basic
import Mathlib.Order.Lattice
import Mathlib.Order.Defs.LinearOrder

/-!
# Ordered Finite Maps

Finite maps as association lists in strictly increasing key order. The order is
a field of the map, so two maps with the same lookups are equal and a walk over
the entries visits the keys in order.

Every operation is described by one lookup equation. `mem_entries` connects the
two views, the lookup and the list of entries, and the other lemmas are proved
through it.

## Main definitions

* `OrdMap`: An association list with its keys in order.
* `OrdMap.find?`, `insert`, `erase`, `filter`, `dropOldest`: The operations.
* `OrdMap.insertAll`: Inserting a list of bindings one after the other.
* `OrdMap.upsertAll`: Updating the keys of a list one after the other.
* `OrdMap.map`: Applying a function to every value.

## Theorems

* `mem_entries`: The entries are the lookups.
* `find?_insert`, `find?_erase`, `find?_filter`: What each operation looks up.
* `find?_insertAll`: A lookup after inserting a list of bindings.
* `find?_upsertAll`: A lookup after updating the keys of a list.
* `find?_collect`: A lookup after collecting a list of keyed lists.
-/

namespace EarthRise

/-- An association list whose keys are in strictly increasing order. -/
structure OrdMap (κ ν : Type*) [LinearOrder κ] where
  entries : List (κ × ν)
  sorted : entries.Pairwise fun a b => a.1 < b.1

namespace OrdMap

variable {κ ν : Type*} [LinearOrder κ] {α : Type*} {μ : Type*}

instance [DecidableEq ν] : DecidableEq (OrdMap κ ν) := fun m m' =>
  decidable_of_iff (m.entries = m'.entries)
    ⟨fun h => by cases m; cases m'; simp only at h; subst h; rfl, fun h => h ▸ rfl⟩

def empty : OrdMap κ ν := ⟨[], List.Pairwise.nil⟩

def find? (m : OrdMap κ ν) (k : κ) : Option ν :=
  (m.entries.find? fun e => e.1 = k).map Prod.snd

def keys (m : OrdMap κ ν) : List κ := m.entries.map Prod.fst

/-- Keep the bindings that pass a test. -/
def filter (m : OrdMap κ ν) (p : κ → ν → Bool) : OrdMap κ ν :=
  ⟨m.entries.filter fun e => p e.1 e.2, m.sorted.filter _⟩

def erase (m : OrdMap κ ν) (k : κ) : OrdMap κ ν := m.filter fun k' _ => k' ≠ k

/-- Bind a key, replacing what it was bound to. -/
def insert (m : OrdMap κ ν) (k : κ) (v : ν) : OrdMap κ ν where
  entries := (m.entries.filter fun e => e.1 < k) ++ (k, v) :: m.entries.filter fun e => k < e.1
  sorted := by
    rw [List.pairwise_append, List.pairwise_cons]
    refine ⟨m.sorted.filter _, ⟨?_, m.sorted.filter _⟩, ?_⟩
    · intro e he
      exact of_decide_eq_true (List.mem_filter.mp he).2
    · intro e he e' he'
      have hlt : e.1 < k := of_decide_eq_true (List.mem_filter.mp he).2
      rcases List.mem_cons.mp he' with rfl | he'
      · exact hlt
      · exact lt_trans hlt (of_decide_eq_true (List.mem_filter.mp he').2)

/-- Insert a list of bindings, later ones over earlier ones. -/
def insertAll (m : OrdMap κ ν) (l : List (κ × ν)) : OrdMap κ ν :=
  l.foldl (fun m e => m.insert e.1 e.2) m

/-- Rebind the keys of a list, each from what it was bound to. -/
def upsertAll {α : Type*} (m : OrdMap κ ν) (f : Option ν → α → ν) (l : List (κ × α)) :
    OrdMap κ ν :=
  l.foldl (fun m e => m.insert e.1 (f (m.find? e.1) e.2)) m

/-- Drop the bindings with the smallest keys until at most `n` are left. -/
def dropOldest (m : OrdMap κ ν) (n : Nat) : OrdMap κ ν :=
  ⟨m.entries.drop (m.entries.length - n), m.sorted.drop⟩

/-- Apply a function to every value. -/
def map {μ : Type*} (f : ν → μ) (m : OrdMap κ ν) : OrdMap κ μ where
  entries := m.entries.map fun e => (e.1, f e.2)
  sorted := by
    rw [List.pairwise_map]
    exact m.sorted

/-! ## Lookups and entries -/

theorem keys_sorted (m : OrdMap κ ν) : m.keys.Pairwise (· < ·) := by
  unfold keys
  rw [List.pairwise_map]
  exact m.sorted

theorem keys_nodup (m : OrdMap κ ν) : m.keys.Nodup := m.keys_sorted.imp ne_of_lt

theorem eq_of_key_eq (m : OrdMap κ ν) (e e' : κ × ν) (he : e ∈ m.entries) (he' : e' ∈ m.entries)
    (h : e.1 = e'.1) : e = e' :=
  List.inj_on_of_nodup_map m.keys_nodup he he' h

/-- A binding is an entry exactly when it is what the lookup returns. -/
theorem mem_entries (m : OrdMap κ ν) (k : κ) (v : ν) :
    (k, v) ∈ m.entries ↔ m.find? k = some v := by
  unfold find?
  constructor
  · intro h
    cases hf : m.entries.find? fun e => e.1 = k with
    | none =>
        rw [List.find?_eq_none] at hf
        exact absurd (decide_eq_true rfl) (hf _ h)
    | some e =>
        have hk : e.1 = k := by simpa using List.find?_some hf
        have := m.eq_of_key_eq e (k, v) (List.mem_of_find?_eq_some hf) h hk
        rw [this]
        rfl
  · intro h
    rw [Option.map_eq_some_iff] at h
    rcases h with ⟨e, hf, hv⟩
    have hk : e.1 = k := by simpa using List.find?_some hf
    have hmem := List.mem_of_find?_eq_some hf
    rw [← hk, ← hv]
    exact hmem

theorem find?_eq_none (m : OrdMap κ ν) (k : κ) : m.find? k = none ↔ ∀ v, (k, v) ∉ m.entries := by
  constructor
  · intro h v hv
    rw [mem_entries, h] at hv
    exact absurd hv nofun
  · intro h
    cases hf : m.find? k with
    | none => rfl
    | some v => exact absurd ((m.mem_entries k v).mpr hf) (h v)

theorem mem_keys (m : OrdMap κ ν) (k : κ) : k ∈ m.keys ↔ (m.find? k).isSome = true := by
  rw [Option.isSome_iff_exists, keys, List.mem_map]
  constructor
  · rintro ⟨e, he, rfl⟩
    exact ⟨e.2, (m.mem_entries _ _).mp he⟩
  · rintro ⟨v, hv⟩
    exact ⟨(k, v), (m.mem_entries _ _).mpr hv, rfl⟩

@[simp] theorem find?_empty (k : κ) : (empty : OrdMap κ ν).find? k = none := rfl

/-- Two lookups agree once they return the same values. -/
theorem find?_eq_of_iff {m : OrdMap κ ν} {k : κ} {o : Option ν}
    (h : ∀ v, (k, v) ∈ m.entries ↔ o = some v) : m.find? k = o := by
  refine Option.ext fun v => ?_
  rw [← mem_entries]
  exact h v

theorem find?_filter (m : OrdMap κ ν) (p : κ → ν → Bool) (k : κ) :
    (m.filter p).find? k = (m.find? k).filter (p k) := by
  refine find?_eq_of_iff fun v => ?_
  rw [filter, List.mem_filter, mem_entries, Option.filter_eq_some_iff]

theorem find?_erase (m : OrdMap κ ν) (k k' : κ) :
    (m.erase k).find? k' = if k' = k then none else m.find? k' := by
  unfold erase
  rw [find?_filter]
  by_cases h : k' = k
  · rw [if_pos h]
    cases m.find? k' with
    | none => rfl
    | some v => simp [Option.filter, h]
  · rw [if_neg h]
    cases m.find? k' with
    | none => rfl
    | some v => simp [Option.filter, h]

theorem find?_insert (m : OrdMap κ ν) (k : κ) (v : ν) (k' : κ) :
    (m.insert k v).find? k' = if k' = k then some v else m.find? k' := by
  refine find?_eq_of_iff fun w => ?_
  simp only [insert, List.mem_append, List.mem_cons, List.mem_filter, decide_eq_true_eq,
    Prod.mk.injEq, mem_entries]
  rcases lt_trichotomy k' k with h | h | h
  · simp [h, ne_of_lt h, not_lt_of_gt h]
  · simp [h, eq_comm]
  · simp [h, ne_of_gt h, not_lt_of_gt h]

@[simp] theorem find?_insert_self (m : OrdMap κ ν) (k : κ) (v : ν) :
    (m.insert k v).find? k = some v := by rw [find?_insert, if_pos rfl]

theorem find?_insert_ne (m : OrdMap κ ν) (k : κ) (v : ν) (k' : κ) (h : k' ≠ k) :
    (m.insert k v).find? k' = m.find? k' := by rw [find?_insert, if_neg h]

/-- A map is what its lookups say. -/
theorem ext_find? {m m' : OrdMap κ ν} (h : ∀ k, m.find? k = m'.find? k) : m = m' := by
  have hmem : ∀ e, e ∈ m.entries ↔ e ∈ m'.entries := by
    rintro ⟨k, v⟩
    rw [m.mem_entries, m'.mem_entries, h]
  have hnodup : ∀ m : OrdMap κ ν, m.entries.Nodup :=
    fun m => m.sorted.imp fun hlt heq => absurd hlt (by rw [heq]; exact lt_irrefl _)
  have hentries : m.entries = m'.entries := by
    refine List.Perm.eq_of_pairwise (fun a b _ _ hab hba => absurd hab (lt_asymm hba))
      m.sorted m'.sorted ?_
    exact (List.perm_ext_iff_of_nodup (hnodup m) (hnodup m')).mpr hmem
  cases m
  cases m'
  simp only at hentries
  subst hentries
  rfl

/-- Bindings of different keys exchange. -/
theorem insert_comm (m : OrdMap κ ν) (k k' : κ) (v v' : ν) (h : k ≠ k') :
    (m.insert k' v').insert k v = (m.insert k v).insert k' v' := by
  refine ext_find? fun j => ?_
  rw [find?_insert, find?_insert, find?_insert, find?_insert]
  by_cases hk : j = k
  · rw [if_pos hk, if_neg (fun hk' => h (hk.symm.trans hk')), if_pos hk]
  · by_cases hk' : j = k'
    · rw [if_neg hk, if_pos hk', if_pos hk']
    · rw [if_neg hk, if_neg hk', if_neg hk', if_neg hk]

/-- A lookup after a list of insertions is the last binding of the key in the
    list, or else what it was. -/
theorem find?_insertAll (m : OrdMap κ ν) (l : List (κ × ν)) (k : κ) :
    (m.insertAll l).find? k = ((l.reverse.find? fun e => e.1 = k).map Prod.snd).or (m.find? k) := by
  induction l generalizing m with
  | nil => rfl
  | cons e l ih =>
      have hstep : m.insertAll (e :: l) = (m.insert e.1 e.2).insertAll l := rfl
      rw [hstep, ih, find?_insert, List.reverse_cons, List.find?_append]
      cases hl : l.reverse.find? fun e => e.1 = k with
      | some e' => simp
      | none =>
          by_cases h : k = e.1
          · simp [h]
          · have h' : ¬ e.1 = k := fun hc => h hc.symm
            simp [h, h']

/-- A binding is found if the list has no other one of its key. -/
theorem find?_insertAll_of_forall (m : OrdMap κ ν) (l : List (κ × ν)) (k : κ) (v : ν)
    (hall : ∀ v', (k, v') ∈ l → v' = v) (hv : (k, v) ∈ l) : (m.insertAll l).find? k = some v := by
  rw [find?_insertAll]
  cases hf : l.reverse.find? fun e => e.1 = k with
  | none =>
      rw [List.find?_eq_none] at hf
      exact absurd (decide_eq_true rfl) (hf _ (List.mem_reverse.mpr hv))
  | some e =>
      have hk : e.1 = k := by simpa using List.find?_some hf
      have hmem : (k, e.2) ∈ l := hk ▸ List.mem_reverse.mp (List.mem_of_find?_eq_some hf)
      rw [Option.map_some, Option.some_or, hall e.2 hmem]

/-- With one binding a key, an insertion of the list finds exactly its bindings. -/
theorem find?_insertAll_of_mem (m : OrdMap κ ν) (l : List (κ × ν)) (k : κ) (v : ν)
    (hl : (l.map Prod.fst).Nodup) (hv : (k, v) ∈ l) : (m.insertAll l).find? k = some v := by
  refine find?_insertAll_of_forall m l k v (fun v' hv' => ?_) hv
  exact congrArg Prod.snd (List.inj_on_of_nodup_map hl hv' hv rfl)

theorem find?_insertAll_of_not_mem (m : OrdMap κ ν) (l : List (κ × ν)) (k : κ)
    (hk : ∀ e ∈ l, e.1 ≠ k) : (m.insertAll l).find? k = m.find? k := by
  have hfind : (l.reverse.find? fun e => e.1 = k) = none := by
    rw [List.find?_eq_none]
    intro e he heq
    exact hk e (List.mem_reverse.mp he) (of_decide_eq_true heq)
  rw [find?_insertAll, hfind]
  rfl

/-- A lookup after a list of updates folds those of its key. -/
theorem find?_upsertAll (m : OrdMap κ ν) (f : Option ν → α → ν) (l : List (κ × α))
    (k : κ) : (m.upsertAll f l).find? k =
      (l.filter fun e => e.1 = k).foldl (fun o e => some (f o e.2)) (m.find? k) := by
  induction l generalizing m with
  | nil => rfl
  | cons e l ih =>
      have hstep : m.upsertAll f (e :: l) = (m.insert e.1 (f (m.find? e.1) e.2)).upsertAll f l := rfl
      rw [hstep, ih, find?_insert]
      by_cases h : k = e.1
      · rw [if_pos h, List.filter_cons_of_pos (by simp [h]), List.foldl_cons, h]
      · rw [if_neg h, List.filter_cons_of_neg (by simpa using fun hc => h hc.symm)]

/-- With one binding a key, a key selects its binding. -/
theorem filter_key_of_mem (l : List (κ × α)) (k : κ) (a : α)
    (hl : (l.map Prod.fst).Nodup) (h : (k, a) ∈ l) : l.filter (fun e => e.1 = k) = [(k, a)] := by
  have hall : ∀ e ∈ l.filter (fun e => e.1 = k), e = (k, a) := by
    intro e he
    rw [List.mem_filter] at he
    exact List.inj_on_of_nodup_map hl he.1 h (of_decide_eq_true he.2)
  have hrep := List.eq_replicate_of_mem hall
  have hin : (k, a) ∈ l.filter fun e => e.1 = k :=
    List.mem_filter.mpr ⟨h, decide_eq_true rfl⟩
  have hnd : (l.filter fun e => e.1 = k).Nodup := (List.Nodup.of_map _ hl).filter _
  have hpos : 0 < (l.filter fun e => e.1 = k).length := List.length_pos_of_mem hin
  rw [hrep, List.nodup_replicate] at hnd
  have hone : (l.filter fun e => e.1 = k).length = 1 := by omega
  rw [hrep, hone]
  rfl

theorem filter_key_of_not_mem (l : List (κ × α)) (k : κ) (h : ∀ a, (k, a) ∉ l) :
    l.filter (fun e => e.1 = k) = [] := by
  rw [List.filter_eq_nil_iff]
  intro e he hk
  have hk' : e.1 = k := of_decide_eq_true hk
  exact h e.2 (hk' ▸ he)

/-- Updating from the entries of another map touches exactly its keys. -/
theorem find?_upsertAll_entries (m : OrdMap κ ν) (f : Option ν → α → ν)
    (o : OrdMap κ α) (k : κ) :
    (m.upsertAll f o.entries).find? k =
      (o.find? k).elim (m.find? k) fun a => some (f (m.find? k) a) := by
  rw [find?_upsertAll]
  cases hf : o.find? k with
  | none =>
      rw [filter_key_of_not_mem o.entries k ((o.find?_eq_none k).mp hf)]
      rfl
  | some a =>
      rw [filter_key_of_mem o.entries k a o.keys_nodup ((o.mem_entries k a).mpr hf)]
      rfl

/-- What is left after dropping was there before. -/
theorem find?_dropOldest (m : OrdMap κ ν) (n : Nat) (k : κ) (v : ν)
    (h : (m.dropOldest n).find? k = some v) : m.find? k = some v := by
  rw [← mem_entries] at h ⊢
  exact List.mem_of_mem_drop h

/-! ## Mapping values -/

theorem find?_map (f : ν → μ) (m : OrdMap κ ν) (k : κ) :
    (m.map f).find? k = (m.find? k).map f := by
  refine find?_eq_of_iff fun v => ?_
  unfold map
  rw [List.mem_map, Option.map_eq_some_iff]
  constructor
  · rintro ⟨e, he, heq⟩
    rw [Prod.mk.injEq] at heq
    exact ⟨e.2, (m.mem_entries k e.2).mp (heq.1 ▸ he), heq.2⟩
  · rintro ⟨a, ha, rfl⟩
    exact ⟨(k, a), (m.mem_entries k a).mpr ha, rfl⟩

theorem map_insert (f : ν → μ) (m : OrdMap κ ν) (k : κ) (v : ν) :
    (m.insert k v).map f = (m.map f).insert k (f v) := by
  unfold map insert
  simp only [List.map_append, List.map_cons, List.filter_map]
  rfl

theorem map_dropOldest (f : ν → μ) (m : OrdMap κ ν) (n : Nat) :
    (m.dropOldest n).map f = (m.map f).dropOldest n := by
  unfold map dropOldest
  simp only [List.map_drop, List.length_map]

theorem map_filter (f : ν → μ) (m : OrdMap κ ν) (p : κ → Bool) :
    (m.filter fun k _ => p k).map f = (m.map f).filter fun k _ => p k := by
  unfold map filter
  simp only [List.filter_map]
  rfl

/-- What a key collects from a list of keyed lists. -/
theorem find?_collect (l : List (κ × List α)) (k : κ) :
    ((empty : OrdMap κ (List α)).upsertAll (fun old cells => old.getD [] ++ cells) l).find? k =
      if ∃ e ∈ l, e.1 = k then some ((l.filter fun e => e.1 = k).flatMap Prod.snd) else none := by
  have hfold : ∀ (l : List (κ × List α)) (o : List α),
      l.foldl (fun (o : Option (List α)) e => some (o.getD [] ++ e.2)) (some o) =
        some (o ++ l.flatMap Prod.snd) := by
    intro l
    induction l with
    | nil => intro o; rw [List.foldl_nil, List.flatMap_nil, List.append_nil]
    | cons e l ih =>
        intro o
        rw [List.foldl_cons, Option.getD_some, ih, List.flatMap_cons, List.append_assoc]
  rw [find?_upsertAll, find?_empty]
  cases hl : l.filter fun e => e.1 = k with
  | nil =>
      have hnone : ¬ ∃ e ∈ l, e.1 = k := by
        rintro ⟨e, he, hk⟩
        have hin : e ∈ l.filter fun e => e.1 = k := List.mem_filter.mpr ⟨he, decide_eq_true hk⟩
        rw [hl] at hin
        exact absurd hin List.not_mem_nil
      rw [if_neg hnone]
      rfl
  | cons e rest =>
      have hsome : ∃ e ∈ l, e.1 = k := by
        have hin : e ∈ l.filter fun e => e.1 = k := by rw [hl]; exact List.mem_cons_self
        rcases List.mem_filter.mp hin with ⟨he, hk⟩
        exact ⟨e, he, of_decide_eq_true hk⟩
      rw [if_pos hsome, List.foldl_cons, hfold, List.flatMap_cons]
      rfl

end OrdMap

end EarthRise
