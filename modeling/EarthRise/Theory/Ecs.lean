import EarthRise.Core.Ecs
import Mathlib.Algebra.BigOperators.Intervals
import Mathlib.Algebra.Order.BigOperators.Group.Finset

/-!
# The Entity Store, Operation by Operation

What every operation of the store does to what a slot holds and to what a handle leads
to.

The generation of a slot is what makes a handle a name. A handle that is not stale is
determined by its slot, so an operation on one entity is an operation on one handle:
creating gives one handle components, destroying takes one handle's components away,
and every other handle leads to what it led to before, the stale ones to nothing.

`Evolves` relates two stores with the same entities, each one changed as a relation
allows. It is what holds between the ends of a visit when it holds for every single
visit.

A value of every living entity, summed over the store.

An operation on one slot changes a total by what that slot held before and holds after, so
a law about a total is a law about single entities.

## Main definitions

* `World.Sound`: The free slots are free, and listed once.
* `World.generationAt`, `World.newSlot`: The generation of a slot, and the slot of the
  next entity.
* `World.Evolves`: The same entities, changed.
* `World.total`: The sum of a value over the living.

## Theorems

* `World.get_createEntity`, `World.get_destroyEntity`, `World.get_modify`: What a handle leads
  to after an operation.
* `World.Sound.createEntity`, `World.Sound.destroyEntity`: The store stays sound.
* `World.Evolves.trans`, `World.Evolves.get`, `World.Evolves.sound`.
* `visit_induct`: What every visit preserves.
* `World.total_slot`: One slot changes.
* `World.total_createEntity`, `World.total_destroyEntity`, `World.total_modifyAt`,
  `World.total_modify`, `World.total_forEach`: The operations.
* `World.Evolves.total_eq`, `World.Evolves.total_le`: The same entities, changed.
-/

namespace EarthRise

namespace Ecs

namespace World

variable {C : Type} {w : World C} {e : EntityHandle} {i : Nat} {c : C}

/-! ## Slots and handles -/

theorem slot_eq_some :
    w.slot i = some c ↔ ∃ r, w.records[i]? = some r ∧ r.components = some c := by
  simp only [slot, Option.bind_eq_some_iff]

/-- The generation of a slot. -/
def generationAt (w : World C) (i : Nat) : Nat := (w.records[i]?).elim 0 EntityRecord.generation

/-- A handle leads to what is in its slot, if it has the slot's generation. -/
theorem get_eq (w : World C) (e : EntityHandle) :
    w.get e = if e.index ≠ 0 ∧ w.generationAt e.index = e.generation then w.slot e.index
      else none := by
  unfold get slot generationAt
  by_cases h0 : e.index = 0
  · rw [if_pos h0, if_neg fun h => h.1 h0]
  · rw [if_neg h0]
    cases hr : w.records[e.index]? with
    | none => rw [Option.bind_none, ite_self]
    | some r =>
        by_cases hg : r.generation = e.generation
        · have hboth : e.index ≠ 0 ∧ (some r).elim 0 EntityRecord.generation = e.generation :=
            ⟨h0, hg⟩
          rw [if_pos hboth]
          exact if_pos hg
        · have hnot : ¬ (e.index ≠ 0 ∧ (some r).elim 0 EntityRecord.generation = e.generation) :=
            fun h => hg h.2
          rw [if_neg hnot]
          exact if_neg hg

theorem slot_of_get (h : w.get e = some c) :
    w.slot e.index = some c := by
  rw [get_eq] at h
  by_cases hg : e.index ≠ 0 ∧ w.generationAt e.index = e.generation
  · rwa [if_pos hg] at h
  · rw [if_neg hg] at h
    exact absurd h nofun

theorem generation_of_get (h : w.get e = some c) :
    e.index ≠ 0 ∧ w.generationAt e.index = e.generation := by
  rw [get_eq] at h
  by_contra hg
  rw [if_neg hg] at h
  exact absurd h nofun

theorem handle_ext {e e' : EntityHandle} (hi : e.index = e'.index)
    (hg : e.generation = e'.generation) : e = e' := by
  cases e
  cases e'
  rw [EntityHandle.mk.injEq]
  exact ⟨hi, hg⟩

/-- Two handles of one slot that are not stale are the same. -/
theorem handle_unique {e e' : EntityHandle} {c c' : C} (h : w.get e = some c)
    (h' : w.get e' = some c') (hi : e'.index = e.index) : e' = e := by
  have hg := (generation_of_get h).2
  have hg' := (generation_of_get h').2
  rw [hi, hg] at hg'
  exact handle_ext hi hg'.symm

theorem isAlive_iff :
    w.isAlive e = true ↔ ∃ c, w.get e = some c := by
  simp only [isAlive, Option.isSome_iff_exists]

theorem mem_alive : c ∈ w.alive ↔ ∃ i, w.slot i = some c := by
  unfold alive
  rw [List.mem_filterMap]
  constructor
  · rintro ⟨r, hr, hc⟩
    rcases List.mem_iff_getElem?.mp hr with ⟨i, hi⟩
    exact ⟨i, slot_eq_some.mpr ⟨r, hi, hc⟩⟩
  · rintro ⟨i, hi⟩
    rcases slot_eq_some.mp hi with ⟨r, hr, hc⟩
    exact ⟨r, List.mem_of_getElem? hr, hc⟩

/-- The free slots are free and listed once, and slot zero is not given out. -/
structure Sound (w : World C) : Prop where
  null : w.slot 0 = none
  size : 0 < w.records.length
  nodup : w.freeList.Nodup
  free : ∀ i ∈ w.freeList, i ≠ 0 ∧ i < w.records.length ∧ w.slot i = none

theorem Sound.fresh : (World.fresh : World C).Sound where
  null := rfl
  size := Nat.one_pos
  nodup := List.nodup_nil
  free := fun _ h => absurd h List.not_mem_nil

theorem slot_lt (h : w.slot i = some c) :
    i < w.records.length := by
  rcases slot_eq_some.mp h with ⟨r, hr, _⟩
  exact (List.getElem?_eq_some_iff.mp hr).1

/-- The handle of a slot that is in use. -/
theorem Sound.get_slot (hw : w.Sound) (h : w.slot i = some c) :
    w.get ⟨i, w.generationAt i⟩ = some c := by
  have h0 : i ≠ 0 := by
    rintro rfl
    exact absurd (h.symm.trans hw.null) nofun
  rw [get_eq, if_pos ⟨h0, rfl⟩, h]

/-! ## Creating -/

/-- The slot that the next entity is given. -/
def newSlot (w : World C) : Nat := w.freeList.headD w.records.length

theorem newSlot_nil (hf : w.freeList = []) : w.newSlot = w.records.length := by
  unfold newSlot
  rw [hf, List.headD_nil]

theorem newSlot_cons {rest : List Nat} (hf : w.freeList = i :: rest) :
    w.newSlot = i := by
  unfold newSlot
  rw [hf, List.headD_cons]

theorem createEntity_nil (hf : w.freeList = []) (c : C) :
    w.createEntity c = (⟨w.records.length, 0⟩, { w with records := w.records ++ [⟨0, some c⟩] }) := by
  unfold createEntity
  rw [hf]

theorem createEntity_cons {rest : List Nat} (hf : w.freeList = i :: rest)
    (c : C) : w.createEntity c = (⟨i, w.generationAt i⟩,
      { records := w.records.set i ⟨w.generationAt i, some c⟩, freeList := rest }) := by
  unfold createEntity
  rw [hf]
  rfl

theorem createEntity_index (w : World C) (c : C) : (w.createEntity c).1.index = w.newSlot := by
  cases hf : w.freeList with
  | nil => rw [createEntity_nil hf, newSlot_nil hf]
  | cons i rest => rw [createEntity_cons hf, newSlot_cons hf]

theorem Sound.newSlot_empty (hw : w.Sound) : w.slot w.newSlot = none := by
  cases hf : w.freeList with
  | nil =>
      rw [newSlot_nil hf]
      unfold slot
      rw [List.getElem?_eq_none (Nat.le_refl _), Option.bind_none]
  | cons i rest =>
      rw [newSlot_cons hf]
      exact (hw.free i (by rw [hf]; exact List.mem_cons_self)).2.2

theorem Sound.newSlot_ne_zero (hw : w.Sound) : w.newSlot ≠ 0 := by
  cases hf : w.freeList with
  | nil =>
      rw [newSlot_nil hf]
      exact Nat.pos_iff_ne_zero.mp hw.size
  | cons i rest =>
      rw [newSlot_cons hf]
      exact (hw.free i (by rw [hf]; exact List.mem_cons_self)).1

theorem Sound.slot_createEntity (hw : w.Sound) (c : C) (i : Nat) :
    (w.createEntity c).2.slot i = if i = w.newSlot then some c else w.slot i := by
  cases hf : w.freeList with
  | nil =>
      rw [createEntity_nil hf, newSlot_nil hf]
      unfold slot
      rw [List.getElem?_append]
      by_cases hlt : i < w.records.length
      · rw [if_pos hlt, if_neg (Nat.ne_of_lt hlt)]
      · rw [if_neg hlt]
        by_cases hi : i = w.records.length
        · rw [if_pos hi, hi, Nat.sub_self]
          rfl
        · rw [if_neg hi, List.getElem?_eq_none (by simp only [List.length_singleton]; omega),
            List.getElem?_eq_none (Nat.le_of_not_lt hlt)]
  | cons j rest =>
      have hj : j < w.records.length := (hw.free j (by rw [hf]; exact List.mem_cons_self)).2.1
      rw [createEntity_cons hf, newSlot_cons hf]
      unfold slot
      rw [List.getElem?_set]
      by_cases hi : i = j
      · rw [if_pos hi, if_pos hi.symm, if_pos hj]
        rfl
      · rw [if_neg hi, if_neg fun h => hi h.symm]

theorem generationAt_createEntity (w : World C) (c : C) (i : Nat) :
    (w.createEntity c).2.generationAt i = w.generationAt i := by
  cases hf : w.freeList with
  | nil =>
      rw [createEntity_nil hf]
      unfold generationAt
      rw [List.getElem?_append]
      by_cases hlt : i < w.records.length
      · rw [if_pos hlt]
      · rw [if_neg hlt, List.getElem?_eq_none (Nat.le_of_not_lt hlt), Option.elim_none]
        by_cases hi : i = w.records.length
        · rw [hi, Nat.sub_self]
          rfl
        · rw [List.getElem?_eq_none (by simp only [List.length_singleton]; omega), Option.elim_none]
  | cons j rest =>
      rw [createEntity_cons hf]
      unfold generationAt
      rw [List.getElem?_set]
      by_cases hi : j = i
      · rw [if_pos hi, hi]
        by_cases hlt : i < w.records.length
        · rw [if_pos hlt, Option.elim_some]
        · rw [if_neg hlt, List.getElem?_eq_none (Nat.le_of_not_lt hlt)]
      · rw [if_neg hi]

theorem createEntity_generation (w : World C) (c : C) :
    (w.createEntity c).1.generation = w.generationAt w.newSlot := by
  cases hf : w.freeList with
  | nil =>
      rw [createEntity_nil hf, newSlot_nil hf]
      unfold generationAt
      rw [List.getElem?_eq_none (Nat.le_refl _), Option.elim_none]
  | cons j rest => rw [createEntity_cons hf, newSlot_cons hf]

/-- The new handle leads to the new components, and the others to what they led to. -/
theorem Sound.get_createEntity (hw : w.Sound) (c : C) (e : EntityHandle) :
    (w.createEntity c).2.get e = if e = (w.createEntity c).1 then some c else w.get e := by
  have hindex := createEntity_index w c
  have hgen := createEntity_generation w c
  rw [get_eq, get_eq, hw.slot_createEntity, generationAt_createEntity]
  by_cases he : e = (w.createEntity c).1
  · rw [if_pos he, he, hindex, hgen, if_pos ⟨hw.newSlot_ne_zero, rfl⟩, if_pos rfl]
  · rw [if_neg he]
    by_cases hi : e.index = w.newSlot
    · have hstale : ¬ (e.index ≠ 0 ∧ w.generationAt e.index = e.generation) := by
        rintro ⟨_, hg⟩
        exact he (handle_ext (hi.trans hindex.symm) (by rw [hgen, ← hi, hg]))
      rw [if_neg hstale, if_neg hstale]
    · rw [if_neg hi]

theorem createEntity_freeList (w : World C) (c : C) :
    (w.createEntity c).2.freeList = w.freeList.tail := by
  cases hf : w.freeList with
  | nil =>
      rw [createEntity_nil hf]
      exact hf
  | cons j rest => rw [createEntity_cons hf, List.tail_cons]

theorem createEntity_size (w : World C) (c : C) :
    w.records.length ≤ (w.createEntity c).2.records.length := by
  cases hf : w.freeList with
  | nil =>
      rw [createEntity_nil hf, List.length_append]
      omega
  | cons j rest =>
      rw [createEntity_cons hf]
      exact Nat.le_of_eq (List.length_set).symm

theorem Sound.createEntity (hw : w.Sound) (c : C) :
    (w.createEntity c).2.Sound where
  null := by
    rw [hw.slot_createEntity, if_neg fun h => hw.newSlot_ne_zero h.symm]
    exact hw.null
  size := Nat.lt_of_lt_of_le hw.size (createEntity_size w c)
  nodup := by
    rw [createEntity_freeList]
    exact hw.nodup.sublist (List.tail_sublist _)
  free := by
    intro i hi
    rw [createEntity_freeList] at hi
    rcases hw.free i (List.mem_of_mem_tail hi) with ⟨h0, hlt, hnone⟩
    refine ⟨h0, Nat.lt_of_lt_of_le hlt (createEntity_size w c), ?_⟩
    -- The slot given out is not listed again.
    have hne : i ≠ w.newSlot := by
      cases hf : w.freeList with
      | nil =>
          rw [hf] at hi
          exact absurd hi List.not_mem_nil
      | cons j rest =>
          have hnodup := hw.nodup
          rw [hf, List.nodup_cons] at hnodup
          rw [hf, List.tail_cons] at hi
          rw [newSlot_cons hf]
          rintro rfl
          exact hnodup.1 hi
    rw [hw.slot_createEntity, if_neg hne, hnone]

/-! ## Destroying -/

theorem destroyEntity_of_alive (ha : w.isAlive e = true) :
    w.destroyEntity e =
      { records := w.records.set e.index ⟨(e.generation + 1) % generations, none⟩
        freeList := e.index :: w.freeList } := by
  unfold destroyEntity
  rw [if_pos ha]

theorem destroyEntity_of_not_alive (ha : ¬ w.isAlive e = true) :
    w.destroyEntity e = w := by
  unfold destroyEntity
  rw [if_neg ha]

theorem slot_destroyEntity (w : World C) (e : EntityHandle) (i : Nat) :
    (w.destroyEntity e).slot i = if w.isAlive e = true ∧ i = e.index then none else w.slot i := by
  by_cases ha : w.isAlive e = true
  · rw [destroyEntity_of_alive ha]
    unfold slot
    rw [List.getElem?_set]
    by_cases hi : i = e.index
    · have hboth : w.isAlive e = true ∧ i = e.index := ⟨ha, hi⟩
      rw [if_pos hboth, if_pos hi.symm]
      by_cases hlt : e.index < w.records.length
      · rw [if_pos hlt, Option.bind_some]
      · rw [if_neg hlt, Option.bind_none]
    · have hnot : ¬ (w.isAlive e = true ∧ i = e.index) := fun h => hi h.2
      rw [if_neg hnot, if_neg fun h => hi h.symm]
  · have hnot : ¬ (w.isAlive e = true ∧ i = e.index) := fun h => ha h.1
    rw [destroyEntity_of_not_alive ha, if_neg hnot]

theorem generationAt_destroyEntity
    (hi : i ≠ e.index) : (w.destroyEntity e).generationAt i = w.generationAt i := by
  by_cases ha : w.isAlive e = true
  · rw [destroyEntity_of_alive ha]
    unfold generationAt
    rw [List.getElem?_set, if_neg fun h => hi h.symm]
  · rw [destroyEntity_of_not_alive ha]

/-- The destroyed handle leads to nothing, and the others to what they led to. -/
theorem get_destroyEntity (w : World C) (e e' : EntityHandle) :
    (w.destroyEntity e).get e' = if e' = e then none else w.get e' := by
  by_cases ha : w.isAlive e = true
  · by_cases hi : e'.index = e.index
    · have hgone : (w.destroyEntity e).slot e'.index = none := by
        rw [slot_destroyEntity]
        exact if_pos ⟨ha, hi⟩
      rw [get_eq (w.destroyEntity e), hgone, ite_self]
      by_cases he : e' = e
      · rw [if_pos he]
      · rw [if_neg he]
        -- The slot is in use under another generation.
        rcases isAlive_iff.mp ha with ⟨c, hc⟩
        cases hg : w.get e' with
        | none => rfl
        | some c' => exact absurd (handle_unique hc hg hi) he
    · have hslot : (w.destroyEntity e).slot e'.index = w.slot e'.index := by
        rw [slot_destroyEntity]
        exact if_neg fun h => hi h.2
      have hne : e' ≠ e := fun h => hi (by rw [h])
      rw [if_neg hne, get_eq, get_eq, hslot, generationAt_destroyEntity hi]
  · rw [destroyEntity_of_not_alive ha]
    by_cases he : e' = e
    · rw [if_pos he, he]
      simpa only [isAlive, Option.not_isSome_iff_eq_none] using ha
    · rw [if_neg he]

theorem destroyEntity_size (w : World C) (e : EntityHandle) :
    (w.destroyEntity e).records.length = w.records.length := by
  by_cases ha : w.isAlive e = true
  · rw [destroyEntity_of_alive ha, List.length_set]
  · rw [destroyEntity_of_not_alive ha]

theorem Sound.destroyEntity (hw : w.Sound) (e : EntityHandle) :
    (w.destroyEntity e).Sound := by
  by_cases ha : w.isAlive e = true
  · rcases isAlive_iff.mp ha with ⟨c, hc⟩
    have hslot := slot_of_get hc
    have hfree : (w.destroyEntity e).freeList = e.index :: w.freeList := by
      rw [destroyEntity_of_alive ha]
    refine ⟨?_, ?_, ?_, ?_⟩
    · rw [slot_destroyEntity, hw.null, ite_self]
    · rw [destroyEntity_size]
      exact hw.size
    · rw [hfree, List.nodup_cons]
      refine ⟨?_, hw.nodup⟩
      intro hin
      exact absurd (hslot.symm.trans (hw.free _ hin).2.2)
        nofun
    · intro i hi
      rw [hfree, List.mem_cons] at hi
      rw [destroyEntity_size, slot_destroyEntity]
      rcases hi with rfl | hi
      · exact ⟨(generation_of_get hc).1, slot_lt hslot, if_pos ⟨ha, rfl⟩⟩
      · rcases hw.free i hi with ⟨h0, hlt, hnone⟩
        rw [hnone, ite_self]
        exact ⟨h0, hlt, rfl⟩
  · rw [destroyEntity_of_not_alive ha]
    exact hw

/-! ## Changing -/

theorem slot_modifyAt (w : World C) (i : Nat) (f : C → C) (j : Nat) :
    (w.modifyAt i f).slot j = if j = i then (w.slot j).map f else w.slot j := by
  unfold modifyAt slot
  rw [List.getElem?_modify]
  cases w.records[j]? with
  | none => simp only [Option.map_eq_map, Option.map_none, Option.bind_none, ite_self]
  | some r =>
      by_cases hj : j = i
      · rw [if_pos hj, hj, Option.map_eq_map, Option.map_some, if_pos rfl]
        rfl
      · rw [if_neg hj, Option.map_eq_map, Option.map_some, if_neg fun h => hj h.symm]

theorem generationAt_modifyAt (w : World C) (i : Nat) (f : C → C) (j : Nat) :
    (w.modifyAt i f).generationAt j = w.generationAt j := by
  unfold modifyAt generationAt
  rw [List.getElem?_modify]
  cases w.records[j]? with
  | none => rfl
  | some r =>
      rw [Option.map_eq_map, Option.map_some, Option.elim_some, Option.elim_some]
      by_cases hj : i = j
      · rw [if_pos hj]
      · rw [if_neg hj]

theorem slot_forEach (w : World C) (f : C → C) (i : Nat) :
    (w.forEach f).slot i = (w.slot i).map f := by
  unfold forEach slot
  simp only [List.getElem?_map]
  cases w.records[i]? <;> rfl

theorem generationAt_forEach (w : World C) (f : C → C) (i : Nat) :
    (w.forEach f).generationAt i = w.generationAt i := by
  unfold forEach generationAt
  simp only [List.getElem?_map]
  cases w.records[i]? <;> rfl

theorem get_modifyAt (w : World C) (i : Nat) (f : C → C) (e : EntityHandle) :
    (w.modifyAt i f).get e = if e.index = i then (w.get e).map f else w.get e := by
  rw [get_eq, get_eq, slot_modifyAt, generationAt_modifyAt]
  by_cases hg : e.index ≠ 0 ∧ w.generationAt e.index = e.generation
  · rw [if_pos hg, if_pos hg]
  · rw [if_neg hg, if_neg hg, Option.map_none, ite_self]

theorem get_modify (w : World C) (e : EntityHandle) (f : C → C) (e' : EntityHandle) :
    (w.modify e f).get e' = if e' = e then (w.get e').map f else w.get e' := by
  unfold modify
  by_cases ha : w.isAlive e = true
  · rw [if_pos ha, get_modifyAt]
    rcases isAlive_iff.mp ha with ⟨c, hc⟩
    by_cases he : e' = e
    · rw [if_pos he, if_pos (by rw [he])]
    · rw [if_neg he]
      by_cases hi : e'.index = e.index
      · -- A stale handle of the same slot leads to nothing before and after.
        rw [if_pos hi]
        cases hget : w.get e' with
        | none => rw [Option.map_none]
        | some c' => exact absurd (handle_unique hc hget hi) he
      · rw [if_neg hi]
  · rw [if_neg ha]
    have hnone : w.get e = none := by
      simpa only [isAlive, Option.not_isSome_iff_eq_none] using ha
    by_cases he : e' = e
    · rw [if_pos he, he, hnone, Option.map_none]
    · rw [if_neg he]

/-! ## The same entities, changed -/

/-- The same entities in the same slots, each one changed as `R` allows. -/
structure Evolves (R : C → C → Prop) (w w' : World C) : Prop where
  free : w'.freeList = w.freeList
  size : w'.records.length = w.records.length
  generation : ∀ i, w'.generationAt i = w.generationAt i
  slots : ∀ i, Option.Rel R (w.slot i) (w'.slot i)

section

variable {R : C → C → Prop} {f : C → C}

theorem rel_refl (hrefl : ∀ c, R c c) (o : Option C) : Option.Rel R o o := by
  cases o with
  | none => exact Option.Rel.none
  | some c => exact Option.Rel.some (hrefl c)

theorem rel_trans (htrans : ∀ a b c, R a b → R b c → R a c) {a b c : Option C}
    (hab : Option.Rel R a b) (hbc : Option.Rel R b c) : Option.Rel R a c := by
  cases hab with
  | none => exact hbc
  | some h1 =>
      cases hbc with
      | some h2 => exact Option.Rel.some (htrans _ _ _ h1 h2)

theorem rel_mono {S : C → C → Prop} (hRS : ∀ c c', R c c' → S c c') {a b : Option C}
    (h : Option.Rel R a b) : Option.Rel S a b := by
  cases h with
  | none => exact Option.Rel.none
  | some hr => exact Option.Rel.some (hRS _ _ hr)

theorem rel_map {o : Option C} (h : ∀ c, o = some c → R c (f c)) :
    Option.Rel R o (o.map f) := by
  cases o with
  | none => exact Option.Rel.none
  | some c => exact Option.Rel.some (h c rfl)

theorem Evolves.refl (hrefl : ∀ c, R c c) (w : World C) : Evolves R w w :=
  ⟨rfl, rfl, fun _ => rfl, fun _ => rel_refl hrefl _⟩

theorem Evolves.trans (htrans : ∀ a b c, R a b → R b c → R a c) {w w' w'' : World C}
    (h : Evolves R w w') (h' : Evolves R w' w'') : Evolves R w w'' where
  free := h'.free.trans h.free
  size := h'.size.trans h.size
  generation := fun i => (h'.generation i).trans (h.generation i)
  slots := fun i => rel_trans htrans (h.slots i) (h'.slots i)

theorem Evolves.mono {S : C → C → Prop} (hRS : ∀ c c', R c c' → S c c') {w w' : World C}
    (h : Evolves R w w') : Evolves S w w' where
  free := h.free
  size := h.size
  generation := h.generation
  slots := fun i => rel_mono hRS (h.slots i)

theorem Evolves.modifyAt (hrefl : ∀ c, R c c) {w : World C} {i : Nat}
    (hf : ∀ c, w.slot i = some c → R c (f c)) : Evolves R w (w.modifyAt i f) where
  free := rfl
  size := by simp only [World.modifyAt, List.length_modify]
  generation := generationAt_modifyAt w i f
  slots := by
    intro j
    rw [slot_modifyAt]
    by_cases hj : j = i
    · rw [if_pos hj, hj]
      exact rel_map hf
    · rw [if_neg hj]
      exact rel_refl hrefl _

theorem Evolves.modify (hrefl : ∀ c, R c c) {w : World C} {e : EntityHandle}
    (hf : ∀ c, w.get e = some c → R c (f c)) : Evolves R w (w.modify e f) := by
  unfold World.modify
  by_cases ha : w.isAlive e
  · rw [if_pos ha]
    refine Evolves.modifyAt hrefl ?_
    intro c hc
    rcases isAlive_iff.mp ha with ⟨c', hc'⟩
    have hcc : c' = c := Option.some.inj ((slot_of_get hc').symm.trans hc)
    exact hf c (hcc ▸ hc')
  · rw [if_neg ha]
    exact Evolves.refl hrefl w

theorem Evolves.forEach {w : World C}
    (hf : ∀ i c, w.slot i = some c → R c (f c)) : Evolves R w (w.forEach f) where
  free := rfl
  size := by simp only [World.forEach, List.length_map]
  generation := generationAt_forEach w f
  slots := by
    intro i
    rw [slot_forEach]
    exact rel_map (hf i)

/-- A handle leads to the same entity. -/
theorem Evolves.get {w w' : World C} (h : Evolves R w w') (e : EntityHandle) :
    Option.Rel R (w.get e) (w'.get e) := by
  rw [get_eq, get_eq, h.generation]
  by_cases hg : e.index ≠ 0 ∧ w.generationAt e.index = e.generation
  · rw [if_pos hg, if_pos hg]
    exact h.slots e.index
  · rw [if_neg hg, if_neg hg]
    exact Option.Rel.none

theorem rel_none_iff {a b : Option C} (h : Option.Rel R a b) : a = none ↔ b = none := by
  cases h with
  | none => exact Iff.rfl
  | some _ => simp only [reduceCtorEq]

theorem Evolves.sound {w w' : World C} (h : Evolves R w w') (hw : w.Sound) : w'.Sound where
  null := (rel_none_iff (h.slots 0)).mp hw.null
  size := by rw [h.size]; exact hw.size
  nodup := by rw [h.free]; exact hw.nodup
  free := by
    intro i hi
    rw [h.free] at hi
    rcases hw.free i hi with ⟨h0, hlt, hnone⟩
    exact ⟨h0, by rw [h.size]; exact hlt, (rel_none_iff (h.slots i)).mp hnone⟩

end

end World

/-! ## Visits -/

/-- What every single visit preserves is preserved by all of them. -/
theorem visit_induct {S C : Type} {world : S → World C} {body : S → Nat → C → S} {P : S → Prop}
    {s : S} (h0 : P s)
    (hstep : ∀ s i c, P s → (world s).slot i = some c → P (body s i c)) :
    P (visit world body s) := by
  unfold visit
  generalize List.range (world s).records.length = slots
  induction slots generalizing s with
  | nil => exact h0
  | cons i slots ih =>
      rw [List.foldl_cons]
      refine ih ?_
      cases hc : (world s).slot i with
      | none => exact h0
      | some c => exact hstep s i c h0 hc

namespace World

section

variable {C M : Type} [AddCommMonoid M] (g : C → M) {w w' : World C}

/-- What the living add up to. -/
def total (w : World C) : M := (w.alive.map g).sum

theorem sum_alive (l : List (EntityRecord C)) :
    ((l.filterMap EntityRecord.components).map g).sum =
      (l.map fun r => r.components.elim 0 g).sum := by
  induction l with
  | nil => rfl
  | cons r l ih =>
      rw [List.map_cons, List.sum_cons, ← ih]
      cases hr : r.components with
      | none => rw [List.filterMap_cons_none hr, Option.elim_none, zero_add]
      | some c => rw [List.filterMap_cons_some hr, List.map_cons, List.sum_cons, Option.elim_some]

theorem sum_getElem? (l : List (EntityRecord C)) :
    (l.map fun r => r.components.elim 0 g).sum =
      ∑ i ∈ Finset.range l.length, ((l[i]?).bind EntityRecord.components).elim 0 g := by
  induction l with
  | nil => rfl
  | cons r l ih =>
      rw [List.map_cons, List.sum_cons, List.length_cons, Finset.sum_range_succ', ih, add_comm]
      rfl

/-- The total slot by slot; slots that there are none of add nothing. -/
theorem total_eq (w : World C) {n : Nat} (hn : w.records.length ≤ n) :
    w.total g = ∑ i ∈ Finset.range n, (w.slot i).elim 0 g := by
  have hslots : w.total g = ∑ i ∈ Finset.range w.records.length, (w.slot i).elim 0 g :=
    (sum_alive g w.records).trans (sum_getElem? g w.records)
  rw [hslots]
  refine Finset.sum_subset (Finset.range_mono hn) fun i _ hi => ?_
  have hnone : w.slot i = none := by
    cases hc : w.slot i with
    | none => rfl
    | some c => exact absurd (Finset.mem_range.mpr (slot_lt hc)) hi
  rw [hnone, Option.elim_none]

theorem total_add (w : World C) (g g' : C → M) :
    (w.total fun c => g c + g' c) = w.total g + w.total g' :=
  List.sum_map_add

theorem total_congr {g g' : C → M} (h : ∀ c ∈ w.alive, g c = g' c) : w.total g = w.total g' := by
  unfold total
  rw [List.map_congr_left h]

/-- Where one slot changes, the total loses what it held and gains what it holds. -/
theorem total_slot (i : Nat) (h : ∀ j, j ≠ i → w'.slot j = w.slot j) :
    w'.total g + (w.slot i).elim 0 g = w.total g + (w'.slot i).elim 0 g := by
  have hi : i ∈ Finset.range (w.records.length + w'.records.length + i + 1) :=
    Finset.mem_range.mpr (by omega)
  have hothers : ∑ j ∈ (Finset.range (w.records.length + w'.records.length + i + 1)).erase i,
      (w'.slot j).elim 0 g =
      ∑ j ∈ (Finset.range (w.records.length + w'.records.length + i + 1)).erase i,
        (w.slot j).elim 0 g :=
    Finset.sum_congr rfl fun j hj => by rw [h j (Finset.ne_of_mem_erase hj)]
  rw [total_eq g w' (n := w.records.length + w'.records.length + i + 1) (by omega),
    total_eq g w (n := w.records.length + w'.records.length + i + 1) (by omega),
    ← Finset.sum_erase_add _ _ hi, ← Finset.sum_erase_add _ _ hi, hothers]
  exact add_right_comm _ _ _

/-! ## The operations -/

theorem total_createEntity (hw : w.Sound) (c : C) :
    (w.createEntity c).2.total g = w.total g + g c := by
  have hothers : ∀ j, j ≠ w.newSlot → (w.createEntity c).2.slot j = w.slot j := by
    intro j hj
    rw [hw.slot_createEntity, if_neg hj]
  have hslot := total_slot g w.newSlot hothers
  rwa [hw.newSlot_empty, hw.slot_createEntity, if_pos rfl, Option.elim_none, Option.elim_some,
    add_zero] at hslot

theorem total_destroyEntity {e : EntityHandle} {c : C} (hc : w.get e = some c) :
    (w.destroyEntity e).total g + g c = w.total g := by
  have hothers : ∀ j, j ≠ e.index → (w.destroyEntity e).slot j = w.slot j := by
    intro j hj
    rw [slot_destroyEntity]
    exact if_neg fun h => hj h.2
  have hslot := total_slot g e.index hothers
  have hgone : (w.destroyEntity e).slot e.index = none := by
    rw [slot_destroyEntity]
    exact if_pos ⟨isAlive_iff.mpr ⟨c, hc⟩, rfl⟩
  rwa [slot_of_get hc, hgone, Option.elim_none, Option.elim_some, add_zero] at hslot

theorem total_modifyAt {i : Nat} {c : C} (hc : w.slot i = some c) (f : C → C) :
    (w.modifyAt i f).total g + g c = w.total g + g (f c) := by
  have hothers : ∀ j, j ≠ i → (w.modifyAt i f).slot j = w.slot j := by
    intro j hj
    rw [slot_modifyAt, if_neg hj]
  have hslot := total_slot g i hothers
  rwa [slot_modifyAt, if_pos rfl, hc, Option.map_some, Option.elim_some, Option.elim_some]
    at hslot

theorem total_modify {e : EntityHandle} {c : C} (hc : w.get e = some c) (f : C → C) :
    (w.modify e f).total g + g c = w.total g + g (f c) := by
  unfold modify
  rw [if_pos (isAlive_iff.mpr ⟨c, hc⟩)]
  exact total_modifyAt g (slot_of_get hc) f

theorem total_forEach (w : World C) (f : C → C) :
    (w.forEach f).total g = w.total fun c => g (f c) := by
  have hsize : (w.forEach f).records.length = w.records.length := List.length_map ..
  rw [total_eq g (w.forEach f) (Nat.le_refl _), total_eq _ w (Nat.le_of_eq hsize.symm)]
  refine Finset.sum_congr rfl fun i _ => ?_
  rw [slot_forEach]
  cases w.slot i <;> rfl

/-- A total of entities that are changed but keep their value. -/
theorem Evolves.total_eq {R : C → C → Prop} (hR : ∀ c c', R c c' → g c' = g c)
    (h : Evolves R w w') : w'.total g = w.total g := by
  rw [World.total_eq g w' (Nat.le_refl _), World.total_eq g w (Nat.le_of_eq h.size.symm)]
  refine Finset.sum_congr rfl fun i _ => ?_
  have hrel := h.slots i
  generalize w.slot i = o, w'.slot i = o' at hrel
  cases hrel with
  | none => rfl
  | some hr => exact hR _ _ hr

end

/-- A total of entities none of which gains. -/
theorem Evolves.total_le {C M : Type} [AddCommMonoid M] [PartialOrder M] [IsOrderedAddMonoid M]
    {g : C → M} {w w' : World C} {R : C → C → Prop}
    (hR : ∀ c ∈ w.alive, ∀ c', R c c' → g c' ≤ g c) (h : Evolves R w w') :
    w'.total g ≤ w.total g := by
  rw [World.total_eq g w' (Nat.le_refl _), World.total_eq g w (Nat.le_of_eq h.size.symm)]
  refine Finset.sum_le_sum fun i _ => ?_
  have hrel := h.slots i
  cases hc : w.slot i with
  | none =>
      rw [hc] at hrel
      cases hc' : w'.slot i with
      | none => exact le_refl _
      | some c' =>
          rw [hc'] at hrel
          cases hrel
  | some c =>
      rw [hc] at hrel
      cases hc' : w'.slot i with
      | none =>
          rw [hc'] at hrel
          cases hrel
      | some c' =>
          rw [hc'] at hrel
          cases hrel with
          | some hr => exact hR c (mem_alive.mpr ⟨i, hc⟩) c' hr

end World

end Ecs

end EarthRise
