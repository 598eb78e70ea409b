import Mathlib.Data.List.Basic

/-!
# Sparse Sets

A map from small numbers to elements that keeps the elements packed.

The elements stand in one list without gaps. A second list says for every key at which
place its element stands, and a third one says whose element stands at a place. Removing
puts the last element into the gap, so removing one key moves the element of another.

The two indices are inverse to each other. That is the whole invariant, and with it the
structure is the map: inserting and removing change what one key leads to and no other.

## Main definitions

* `SparseSet`: The elements and the two indices.
* `insert`, `remove`, `get`, `set`: The operations; the first two fail where the key is
  already there, or is not.
* `Sound`: The indices are inverse to each other.

## Theorems

* `Sound.insert`, `Sound.remove`, `Sound.set`: The invariant is kept.
* `Sound.get_insert`, `Sound.get_remove`, `get_set`: The operations of a map.
-/

namespace EarthRise

/-- Packed elements, the place of each key and the key of each place. -/
structure SparseSet (α : Type) where
  sparse : List (Option Nat)
  dense : List α
  denseToKey : List Nat
  deriving DecidableEq

namespace SparseSet

variable {α : Type} {k : Nat} {s : SparseSet α} {s s' : SparseSet α} {r : Option Nat × SparseSet α}
  {a : α}

def empty : SparseSet α := ⟨[], [], []⟩

/-- Make room for a key. -/
def ensureSparse (s : SparseSet α) (k : Nat) : SparseSet α :=
  { s with sparse := s.sparse ++ List.replicate (k + 1 - s.sparse.length) none }

/-- The place of a key. -/
def place (s : SparseSet α) (k : Nat) : Option Nat := s.sparse[k]?.join

/-- Put an element at the end, for a key that has none. -/
def insert (s : SparseSet α) (k : Nat) (a : α) : Option (SparseSet α) :=
  let s := s.ensureSparse k
  if s.place k = none then
    some
      { sparse := s.sparse.set k (some s.dense.length)
        dense := s.dense ++ [a]
        denseToKey := s.denseToKey ++ [k] }
  else none

/-- Drop the last place, and a key. -/
def drop (s : SparseSet α) (k : Nat) : SparseSet α where
  sparse := s.sparse.set k none
  dense := s.dense.dropLast
  denseToKey := s.denseToKey.dropLast

/-- Remove the element of a key that has one, and put the last element in its place. The
    key of the element that was moved is returned. -/
def remove (s : SparseSet α) (k : Nat) : Option (Option Nat × SparseSet α) :=
  match s.place k with
  | none => none
  | some di =>
      let lastDi := s.dense.length - 1
      if di = lastDi then some (none, s.drop k)
      else
        match s.dense[lastDi]?, s.denseToKey[lastDi]? with
        | some last, some moved =>
            let swapped : SparseSet α :=
              { sparse := s.sparse.set moved (some di)
                dense := s.dense.set di last
                denseToKey := s.denseToKey.set di moved }
            some (some moved, swapped.drop k)
        | _, _ => none

/-- The element of a key. -/
def get (s : SparseSet α) (k : Nat) : Option α := (s.place k).bind fun di => s.dense[di]?

/-- Change the element of a key, if it has one. -/
def set (s : SparseSet α) (k : Nat) (a : α) : SparseSet α :=
  match s.place k with
  | none => s
  | some di => { s with dense := s.dense.set di a }

/-- The two indices are inverse to each other. -/
structure Sound (s : SparseSet α) : Prop where
  size : s.denseToKey.length = s.dense.length
  key : ∀ k di, s.place k = some di ↔ s.denseToKey[di]? = some k

theorem Sound.empty : (empty : SparseSet α).Sound where
  size := rfl
  key := by
    intro k di
    simp only [place, SparseSet.empty, List.getElem?_nil, Option.join_none, reduceCtorEq]

/-! ## Places -/

theorem place_ensureSparse (s : SparseSet α) (k j : Nat) :
    (s.ensureSparse k).place j = s.place j := by
  unfold place ensureSparse
  simp only [List.getElem?_append, List.getElem?_replicate]
  by_cases hj : j < s.sparse.length
  · rw [if_pos hj]
  · rw [if_neg hj, List.getElem?_eq_none (Nat.le_of_not_lt hj)]
    split <;> rfl

/-- The place of a key that was given another one. -/
theorem place_set (s : SparseSet α) (hk : k < s.sparse.length) (p : Option Nat)
    (dense : List α) (denseToKey : List Nat) (j : Nat) :
    (SparseSet.mk (s.sparse.set k p) dense denseToKey).place j =
      if j = k then p else s.place j := by
  unfold place
  simp only []
  rw [List.getElem?_set]
  by_cases hj : j = k
  · rw [if_pos hj, if_pos hj.symm, if_pos hk, Option.join_some]
  · rw [if_neg hj, if_neg fun h => hj h.symm]

theorem lt_of_place {k di : Nat} (h : s.place k = some di) :
    k < s.sparse.length := by
  unfold place at h
  by_contra hlt
  rw [List.getElem?_eq_none (Nat.le_of_not_lt hlt)] at h
  exact absurd h nofun

theorem Sound.place_lt (hs : s.Sound) {k di : Nat} (h : s.place k = some di) :
    di < s.dense.length := by
  rw [← hs.size]
  exact (List.getElem?_eq_some_iff.mp ((hs.key k di).mp h)).1

/-- Two keys do not have one place. -/
theorem Sound.place_inj (hs : s.Sound) {j k di : Nat}
    (hj : s.place j = some di) (hk : s.place k = some di) : j = k := by
  have h := ((hs.key j di).mp hj).symm.trans ((hs.key k di).mp hk)
  exact Option.some.inj h

theorem Sound.isSome_get (hs : s.Sound) (k : Nat) :
    (s.get k).isSome = (s.place k).isSome := by
  unfold get
  cases h : s.place k with
  | none => rfl
  | some di =>
      rw [Option.bind_some, List.getElem?_eq_getElem (hs.place_lt h), Option.isSome_some,
        Option.isSome_some]

/-! ## Inserting -/

theorem insert_eq_some (h : s.insert k a = some s') :
    s.place k = none ∧ s' =
      { sparse := (s.ensureSparse k).sparse.set k (some s.dense.length)
        dense := s.dense ++ [a]
        denseToKey := s.denseToKey ++ [k] } := by
  unfold insert at h
  simp only [place_ensureSparse] at h
  split at h
  · rename_i hk
    exact ⟨hk, (Option.some.inj h).symm⟩
  · exact absurd h nofun

theorem place_insert (h : s.insert k a = some s')
    (j : Nat) : s'.place j = if j = k then some s.dense.length else s.place j := by
  rw [(insert_eq_some h).2, place_set (s.ensureSparse k), place_ensureSparse]
  unfold ensureSparse
  rw [List.length_append, List.length_replicate]
  omega

theorem Sound.insert (hs : s.Sound)
    (h : s.insert k a = some s') : s'.Sound where
  size := by
    rw [(insert_eq_some h).2, List.length_append, List.length_append, hs.size,
      List.length_singleton, List.length_singleton]
  key := by
    intro j di
    rcases insert_eq_some h with ⟨hfree, hs'⟩
    have hkeys : s'.denseToKey = s.denseToKey ++ [k] := by rw [hs']
    rw [place_insert h, hkeys, List.getElem?_append]
    by_cases hj : j = k
    · rw [if_pos hj]
      by_cases hdi : di < s.denseToKey.length
      · -- An old place is no place of a new key.
        rw [if_pos hdi, hj, ← hs.key, hfree, Option.some.injEq, ← hs.size]
        simp only [reduceCtorEq, iff_false]
        omega
      · rw [if_neg hdi, Option.some.injEq, hj, ← hs.size]
        constructor
        · rintro rfl
          rw [Nat.sub_self]
          rfl
        · intro hd
          have hlt := (List.getElem?_eq_some_iff.mp hd).1
          rw [List.length_singleton] at hlt
          omega
    · rw [if_neg hj]
      by_cases hdi : di < s.denseToKey.length
      · rw [if_pos hdi]
        exact hs.key j di
      · rw [if_neg hdi]
        constructor
        · intro hp
          have hlt := hs.place_lt hp
          rw [← hs.size] at hlt
          exact absurd hlt hdi
        · intro hd
          have hmem := List.mem_singleton.mp (List.mem_of_getElem? hd)
          exact absurd hmem hj

/-- The new key leads to the new element, and the others to what they led to. -/
theorem Sound.get_insert (hs : s.Sound)
    (h : s.insert k a = some s') (j : Nat) : s'.get j = if j = k then some a else s.get j := by
  have hdense : s'.dense = s.dense ++ [a] := by rw [(insert_eq_some h).2]
  unfold get
  rw [place_insert h, hdense]
  by_cases hj : j = k
  · rw [if_pos hj, if_pos hj, Option.bind_some, List.getElem?_append_right (Nat.le_refl _),
      Nat.sub_self]
    rfl
  · rw [if_neg hj, if_neg hj]
    cases hp : s.place j with
    | none => rfl
    | some di =>
        rw [Option.bind_some, Option.bind_some, List.getElem?_append_left (hs.place_lt hp)]

/-! ## Removing -/

theorem Sound.pos_of_place (hs : s.Sound) {k di : Nat}
    (h : s.place k = some di) : 0 < s.dense.length :=
  Nat.lt_of_le_of_lt (Nat.zero_le di) (hs.place_lt h)

theorem Sound.isSome_remove (hs : s.Sound) {k di : Nat}
    (h : s.place k = some di) : (s.remove k).isSome = true := by
  have hlt := hs.pos_of_place h
  unfold SparseSet.remove
  rw [h]
  simp only []
  split
  · rfl
  · rw [List.getElem?_eq_getElem (by omega), List.getElem?_eq_getElem (by rw [hs.size]; omega)]
    rfl

/-- What a removal leaves: the gap is filled by the last element, whose key is `moved`. -/
theorem Sound.remove_eq_some (hs : s.Sound)
    (h : s.remove k = some r) :
    ∃ di moved last, s.place k = some di ∧ s.denseToKey[s.dense.length - 1]? = some moved ∧
      s.dense[s.dense.length - 1]? = some last ∧
      r.2 = drop ⟨s.sparse.set moved (some di), s.dense.set di last, s.denseToKey.set di moved⟩ k := by
  unfold SparseSet.remove at h
  cases hp : s.place k with
  | none =>
      rw [hp] at h
      exact absurd h nofun
  | some di =>
      rw [hp] at h
      simp only [] at h
      have hlt := hs.place_lt hp
      obtain ⟨last, hlast⟩ : ∃ last, s.dense[s.dense.length - 1]? = some last :=
        ⟨_, List.getElem?_eq_getElem (by omega)⟩
      by_cases hdi : di = s.dense.length - 1
      · -- The element is the last one, and filling the gap with it changes nothing.
        rw [if_pos hdi, Option.some.injEq] at h
        have hkey := (hs.key k di).mp hp
        refine ⟨di, k, last, rfl, by rw [← hdi]; exact hkey, hlast, ?_⟩
        rw [← h]
        unfold drop
        simp only [mk.injEq]
        refine ⟨?_, ?_, ?_⟩
        · rw [List.set_set]
        · have hself : s.dense.set di last = s.dense := by
            refine List.ext_getElem? fun i => ?_
            rw [List.getElem?_set]
            split
            · rename_i hi
              rw [← hi, hdi, hlast]
            · rfl
          rw [hself]
        · have hself : s.denseToKey.set di k = s.denseToKey := by
            refine List.ext_getElem? fun i => ?_
            rw [List.getElem?_set]
            split
            · rename_i hi
              rw [if_pos (by rw [hs.size]; exact hlt), ← hi, hkey]
            · rfl
          rw [hself]
      · rw [if_neg hdi] at h
        cases hm : s.denseToKey[s.dense.length - 1]? with
        | none =>
            rw [hm, hlast] at h
            exact absurd h nofun
        | some moved =>
            rw [hm, hlast] at h
            simp only [Option.some.injEq] at h
            exact ⟨di, moved, last, rfl, rfl, hlast, by rw [← h]⟩

/-- The removed key has no place, the moved one has the place of the removed one, and the
    others have the places that they had. -/
theorem Sound.place_remove (hs : s.Sound) {k di moved : Nat} {last : α}
    (hp : s.place k = some di) (hm : s.denseToKey[s.dense.length - 1]? = some moved) (j : Nat) :
    (drop ⟨s.sparse.set moved (some di), s.dense.set di last, s.denseToKey.set di moved⟩ k).place j =
      if j = k then none else if j = moved then some di else s.place j := by
  have hmoved := lt_of_place ((hs.key moved _).mpr hm)
  unfold drop
  simp only []
  rw [place_set ⟨s.sparse.set moved (some di), s.dense.set di last, s.denseToKey.set di moved⟩
    (by rw [List.length_set]; exact lt_of_place hp), place_set s hmoved]

theorem Sound.remove (hs : s.Sound)
    (h : s.remove k = some r) : r.2.Sound := by
  rcases hs.remove_eq_some h with ⟨di, moved, last, hp, hm, _, hr⟩
  have hlt := hs.place_lt hp
  have hlast := (hs.key moved _).mpr hm
  rw [hr]
  refine ⟨?_, fun j dj => ?_⟩
  · unfold drop
    rw [List.length_dropLast, List.length_dropLast, List.length_set, List.length_set, hs.size]
  · rw [hs.place_remove hp hm]
    unfold drop
    simp only []
    rw [List.getElem?_dropLast, List.length_set, List.getElem?_set, hs.size]
    by_cases hdj : dj < s.dense.length - 1
    · rw [if_pos hdj]
      by_cases hd : di = dj
      · -- The place of the removed key, which is the moved key's now.
        rw [if_pos hd, if_pos hlt, Option.some.injEq]
        have hne : moved ≠ k := by
          rintro rfl
          rw [hp, Option.some.injEq] at hlast
          omega
        constructor
        · intro hj
          by_cases hjk : j = k
          · rw [if_pos hjk] at hj
            exact absurd hj nofun
          · rw [if_neg hjk] at hj
            by_cases hjm : j = moved
            · exact hjm.symm
            · rw [if_neg hjm] at hj
              exact absurd (hs.place_inj hj (hd ▸ hp)) hjk
        · rintro rfl
          rw [if_neg hne, if_pos rfl, hd]
      · rw [if_neg hd, ← hs.key]
        constructor
        · intro hj
          by_cases hjk : j = k
          · rw [if_pos hjk] at hj
            exact absurd hj nofun
          · rw [if_neg hjk] at hj
            by_cases hjm : j = moved
            · rw [if_pos hjm, Option.some.injEq] at hj
              exact absurd hj hd
            · rwa [if_neg hjm] at hj
        · intro hj
          rw [if_neg, if_neg, hj]
          · rintro rfl
            rw [hlast, Option.some.injEq] at hj
            omega
          · rintro rfl
            rw [hp, Option.some.injEq] at hj
            exact hd hj
    · rw [if_neg hdj]
      simp only [reduceCtorEq, iff_false]
      intro hj
      -- The last place is dropped, and its key has another one or none.
      by_cases hjk : j = k
      · rw [if_pos hjk] at hj
        exact absurd hj nofun
      · rw [if_neg hjk] at hj
        by_cases hjm : j = moved
        · rw [if_pos hjm, Option.some.injEq] at hj
          have hdi : di = s.dense.length - 1 := by omega
          rw [← hdi] at hlast
          exact hjk (hjm.trans (hs.place_inj hlast hp))
        · rw [if_neg hjm] at hj
          have hdj' := hs.place_lt hj
          have heq : dj = s.dense.length - 1 := by omega
          rw [heq] at hj
          exact hjm (hs.place_inj hj hlast)

/-- The removed key leads to nothing, and the others to what they led to. -/
theorem Sound.get_remove (hs : s.Sound)
    (h : s.remove k = some r) (j : Nat) :
    r.2.get j = if j = k then none else s.get j := by
  rcases hs.remove_eq_some h with ⟨di, moved, last, hp, hm, hlast, hr⟩
  have hlt := hs.place_lt hp
  have hmoved := (hs.key moved _).mpr hm
  unfold get
  rw [hr, hs.place_remove hp hm]
  by_cases hjk : j = k
  · rw [if_pos hjk, if_pos hjk, Option.bind_none]
  · rw [if_neg hjk, if_neg hjk]
    unfold drop
    simp only []
    by_cases hjm : j = moved
    · -- The moved element is the one that stood last.
      have hne : di ≠ s.dense.length - 1 := by
        rintro rfl
        exact hjk (hjm.trans (hs.place_inj hmoved hp))
      rw [if_pos hjm, hjm, hmoved, Option.bind_some, Option.bind_some, List.getElem?_dropLast,
        List.length_set, if_pos (by omega), List.getElem?_set, if_pos rfl, if_pos hlt, hlast]
    · rw [if_neg hjm]
      cases hpj : s.place j with
      | none => rfl
      | some dj =>
          have hdj := hs.place_lt hpj
          have hne : dj ≠ s.dense.length - 1 := by
            rintro rfl
            exact hjm (hs.place_inj hpj hmoved)
          have hne' : di ≠ dj := by
            rintro rfl
            exact hjk (hs.place_inj hpj hp)
          rw [Option.bind_some, Option.bind_some, List.getElem?_dropLast, List.length_set,
            if_pos (by omega), List.getElem?_set, if_neg hne']

/-! ## Changing -/

theorem place_setElement (s : SparseSet α) (k : Nat) (a : α) (j : Nat) :
    (s.set k a).place j = s.place j := by
  unfold SparseSet.set
  split <;> rfl

theorem Sound.set (hs : s.Sound) (k : Nat) (a : α) : (s.set k a).Sound where
  size := by
    unfold SparseSet.set
    split
    · exact hs.size
    · rw [List.length_set, hs.size]
  key := by
    intro j di
    rw [place_setElement, hs.key]
    unfold SparseSet.set
    split <;> rfl

/-- Changing changes what the key leads to, if it leads to something. -/
theorem Sound.get_set (hs : s.Sound) (k : Nat) (a : α) (j : Nat) :
    (s.set k a).get j = if j = k then (s.get j).map fun _ => a else s.get j := by
  unfold get
  rw [place_setElement]
  unfold SparseSet.set
  cases hp : s.place k with
  | none =>
      by_cases hj : j = k
      · rw [if_pos hj, hj, hp, Option.bind_none, Option.map_none]
      · rw [if_neg hj]
  | some di =>
      simp only []
      by_cases hj : j = k
      · rw [if_pos hj, hj, hp, Option.bind_some, Option.bind_some, List.getElem?_set, if_pos rfl,
          if_pos (hs.place_lt hp), List.getElem?_eq_getElem (hs.place_lt hp), Option.map_some]
      · rw [if_neg hj]
        cases hpj : s.place j with
        | none => rfl
        | some dj =>
            have hne : di ≠ dj := by
              rintro rfl
              exact hj (hs.place_inj hpj hp)
            rw [Option.bind_some, Option.bind_some, List.getElem?_set, if_neg hne]

end SparseSet

end EarthRise
