import EarthRise.Core.EcsStorage
import EarthRise.Theory.Ecs

/-!
# The Stored Entity Store

The entity store as it is stored is the entity store with one value for each entity.

In a sound store the mask of a slot names exactly the storages that have a component for
the slot, so the records and the storages together are a table of rows: a slot in use has
a row, with a component or none for each type. Adding, removing and writing a component
change one row at one type, whatever they move around in the storage.

## Main definitions

* `World.Sound`: The records, the free slots and the storages fit together.
* `Row`, `World.table`: The store with the components of an entity as one value.

## Theorems

* `EntityHandle.make_eq_some`, `EntityHandle.ext_parts`: A handle is its two parts.
* `isAlive_eq`, `getComponent_eq`, `Sound.hasComponent_eq`: What a handle leads to.
* `Sound.registerComponent`, `Sound.addComponent`, `Sound.removeComponent`,
  `Sound.writeComponent`: The store stays sound, and what happens to the table.
-/

namespace EarthRise

namespace EcsStorage

/-! ## Handles -/

namespace EntityHandle

theorem index_eq (e : EntityHandle) : e.index = e.value.toNat % 2 ^ 20 := by
  unfold index
  rw [UInt32.toNat_and]
  exact Nat.and_two_pow_sub_one_eq_mod e.value.toNat 20

theorem generation_eq (e : EntityHandle) : e.generation = e.value.toNat / 2 ^ 20 := by
  unfold generation
  rw [UInt32.toNat_shiftRight]
  exact Nat.shiftRight_eq_div_pow _ _

theorem ext_parts {e e' : EntityHandle} (hi : e.index = e'.index)
    (hg : e.generation = e'.generation) : e = e' := by
  rw [index_eq, index_eq] at hi
  rw [generation_eq, generation_eq] at hg
  cases e
  cases e'
  rw [mk.injEq]
  refine UInt32.toNat_inj.mp ?_
  simp only at hi hg
  omega

/-- A handle has the slot and the generation that it was made of. -/
theorem make_eq_some {idx gen : Nat} {e : EntityHandle} (h : make idx gen = some e) :
    e.index = idx ∧ e.generation = gen := by
  unfold make at h
  split at h
  · rename_i hle
    unfold maxIndex maxGen indexBits genBits at hle
    have hval : e.value.toNat = gen * 2 ^ 20 + idx := by
      have hidx : idx % 2 ^ 32 = idx := Nat.mod_eq_of_lt (by omega)
      have hgen : gen % 2 ^ 32 = gen := Nat.mod_eq_of_lt (by omega)
      have hfit : gen * 2 ^ 20 % 2 ^ 32 = gen * 2 ^ 20 := Nat.mod_eq_of_lt (by omega)
      have hshift : (20 : UInt32).toNat % 32 = 20 := rfl
      rw [← Option.some.inj h]
      simp only []
      rw [UInt32.toNat_or, UInt32.toNat_shiftLeft, UInt32.toNat_ofNat', UInt32.toNat_ofNat', hidx,
        hgen, hshift, Nat.shiftLeft_eq, hfit, ← Nat.shiftLeft_eq,
        ← Nat.shiftLeft_add_eq_or_of_lt (by omega)]
    rw [index_eq, generation_eq, hval]
    omega
  · exact absurd h nofun

theorem isSome_make {idx gen : Nat} (hi : idx < 2 ^ 20) (hg : gen < 2 ^ 12) :
    (make idx gen).isSome = true := by
  unfold make
  rw [if_pos ⟨Nat.le_sub_one_of_lt hi, Nat.le_sub_one_of_lt hg⟩, Option.isSome_some]

/-- The two parts of a handle. -/
def unpack (e : EntityHandle) : Ecs.EntityHandle := ⟨e.index, e.generation⟩

theorem unpack_inj {e e' : EntityHandle} : e.unpack = e'.unpack ↔ e = e' := by
  unfold unpack
  rw [Ecs.EntityHandle.mk.injEq]
  exact ⟨fun h => ext_parts h.1 h.2, fun h => by rw [h]; exact ⟨rfl, rfl⟩⟩

end EntityHandle

/-! ## Masks -/

theorem getLsbD_bit (c d : ComponentTypeId) : (1#64 <<< c.val).getLsbD d = true ↔ d = c := by
  rw [BitVec.getLsbD_shiftLeft, BitVec.getLsbD_one]
  simp only [Bool.and_eq_true, decide_eq_true_eq, Bool.not_eq_true', decide_eq_false_iff_not]
  have hd := d.isLt
  rw [Fin.ext_iff]
  omega

theorem getLsbD_setBit (mask : BitVec 64) (c d : ComponentTypeId) :
    (mask ||| (1#64 <<< c.val)).getLsbD d = true ↔ mask.getLsbD d = true ∨ d = c := by
  rw [BitVec.getLsbD_or, Bool.or_eq_true, getLsbD_bit]

theorem getLsbD_clearBit (mask : BitVec 64) (c d : ComponentTypeId) :
    (mask &&& ~~~(1#64 <<< c.val)).getLsbD d = true ↔ mask.getLsbD d = true ∧ d ≠ c := by
  rw [BitVec.getLsbD_and, BitVec.getLsbD_not, Bool.and_eq_true, Bool.and_eq_true,
    decide_eq_true_eq, Bool.not_eq_true', ← Bool.not_eq_true, getLsbD_bit]
  exact and_congr_right fun _ => and_iff_right d.isLt

theorem getLsbD_required (cs : List ComponentTypeId) (d : ComponentTypeId) :
    (World.required cs).getLsbD d = true ↔ d ∈ cs := by
  have hfold : ∀ mask : BitVec 64,
      (cs.foldl (fun mask c => mask ||| (1#64 <<< c.val)) mask).getLsbD d = true ↔
        mask.getLsbD d = true ∨ d ∈ cs := by
    induction cs with
    | nil =>
        intro mask
        rw [List.foldl_nil]
        exact (or_iff_left List.not_mem_nil).symm
    | cons c cs ih =>
        intro mask
        rw [List.foldl_cons, ih, getLsbD_setBit, List.mem_cons, or_assoc]
  refine (hfold 0).trans (or_iff_right ?_)
  exact fun h => absurd (BitVec.getLsbD_zero.symm.trans h) Bool.false_ne_true

/-- A mask has what an iteration asks for if it has the bit of each type. -/
theorem covers_iff (mask : BitVec 64) (cs : List ComponentTypeId) :
    mask &&& World.required cs = World.required cs ↔ ∀ c ∈ cs, mask.getLsbD c = true := by
  constructor
  · intro h c hc
    have hbit := congrArg (fun m => BitVec.getLsbD m c.val) h
    simp only [BitVec.getLsbD_and, (getLsbD_required cs c).mpr hc, Bool.and_true] at hbit
    exact hbit
  · intro h
    refine BitVec.eq_of_getLsbD_eq fun i hi => ?_
    rw [BitVec.getLsbD_and, Bool.eq_iff_iff, Bool.and_eq_true]
    refine and_iff_right_of_imp fun hreq => ?_
    exact h ⟨i, hi⟩ ((getLsbD_required cs ⟨i, hi⟩).mp hreq)

/-! ## Rows -/

/-- The components of an entity, one or none for each type. -/
abbrev Row (T : ComponentTypeId → Type) := (c : ComponentTypeId) → Option (T c)

namespace World

variable {T : ComponentTypeId → Type} {w : World T} {e : EntityHandle} {c : ComponentTypeId}
  {i : Nat} {idx : Nat}

/-- The mask of a slot has a type. -/
def bit (w : World T) (c : ComponentTypeId) (i : Nat) : Bool :=
  (w.records[i]?).any fun r => r.componentMask.getLsbD c

/-- The records, the free slots and the storages fit together. -/
structure Sound (w : World T) : Prop where
  size : 0 < w.records.length ∧ w.records.length ≤ 2 ^ 20
  null : ∀ r : EntityRecord, w.records[0]? = some r → r.alive = false
  generation : ∀ (i : Nat) (r : EntityRecord), w.records[i]? = some r → r.generation < 2 ^ 12
  masked : ∀ (i : Nat) (r : EntityRecord), w.records[i]? = some r → r.alive = false → r.componentMask = 0
  nodup : w.freeList.Nodup
  free : ∀ i, i ∈ w.freeList ↔ i ≠ 0 ∧ ∃ r, w.records[i]? = some r ∧ r.alive = false
  storage : ∀ c s, w.storages c = some s → s.Sound
  present : ∀ c i, (w.component c i).isSome = w.bit c i

theorem Sound.fresh : (World.fresh : World T).Sound where
  size := ⟨Nat.one_pos, Nat.one_le_two_pow⟩
  null := by
    intro r h
    rw [← Option.some.inj h]
  generation := by
    intro i r h
    rw [List.mem_singleton.mp (List.mem_of_getElem? h)]
    decide
  masked := by
    intro i r h _
    rw [List.mem_singleton.mp (List.mem_of_getElem? h)]
  nodup := List.nodup_nil
  free := by
    intro i
    refine ⟨fun h => absurd h List.not_mem_nil, fun ⟨h0, r, hr, _⟩ => ?_⟩
    have hlt : i < 1 := (List.getElem?_eq_some_iff.mp hr).1
    exact absurd (Nat.lt_one_iff.mp hlt) h0
  storage := fun _ _ h => absurd h nofun
  present := by
    intro c i
    have hbit : (World.fresh : World T).bit c i = false := by
      unfold bit World.fresh
      cases i with
      | zero => exact BitVec.getLsbD_zero
      | succ i => rfl
    rw [hbit]
    rfl

def row (w : World T) (i : Nat) : Row T := fun c => w.component c i

/-- A slot in use has a row. -/
def cell (w : World T) (i : Nat) (r : EntityRecord) : Ecs.EntityRecord (Row T) :=
  ⟨r.generation, if r.alive then some (w.row i) else none⟩

/-- The store with the components of an entity as one value. -/
def table (w : World T) : Ecs.World (Row T) where
  records := w.records.mapIdx w.cell
  freeList := w.freeList

theorem getElem?_table (w : World T) (i : Nat) :
    w.table.records[i]? = (w.records[i]?).map (w.cell i) :=
  List.getElem?_mapIdx

theorem length_table (w : World T) : w.table.records.length = w.records.length :=
  List.length_mapIdx

/-- Two stores are the same table when they have the same cells and the same free slots. -/
theorem table_ext {t : Ecs.World (Row T)} (hfree : w.freeList = t.freeList)
    (hcell : ∀ i, (w.records[i]?).map (w.cell i) = t.records[i]?) : w.table = t := by
  have hrecords : w.table.records = t.records := by
    refine List.ext_getElem? fun i => ?_
    rw [getElem?_table, hcell]
  cases t
  rw [table, Ecs.World.mk.injEq]
  exact ⟨hrecords, hfree⟩

theorem slot_table {r : EntityRecord} (h : w.records[i]? = some r) :
    w.table.slot i = if r.alive then some (w.row i) else none := by
  unfold Ecs.World.slot
  rw [getElem?_table, h, Option.map_some, Option.bind_some]
  rfl

theorem slot_table_none (h : w.records[i]? = none) :
    w.table.slot i = none := by
  unfold Ecs.World.slot
  rw [getElem?_table, h, Option.map_none, Option.bind_none]

theorem generationAt_table (w : World T) (i : Nat) :
    w.table.generationAt i = (w.records[i]?).elim 0 EntityRecord.generation := by
  unfold Ecs.World.generationAt
  rw [getElem?_table]
  cases w.records[i]? <;> rfl

/-! ## What a handle leads to -/

theorem isAlive_iff (w : World T) (e : EntityHandle) : w.isAlive e = true ↔
    e.index ≠ 0 ∧ ∃ r, w.records[e.index]? = some r ∧ r.alive = true ∧
      r.generation = e.generation := by
  unfold isAlive
  by_cases h0 : e.index = 0
  · rw [if_pos h0]
    exact ⟨fun h => absurd h Bool.false_ne_true, fun h => absurd h0 h.1⟩
  · rw [if_neg h0]
    cases hr : w.records[e.index]? with
    | none => simp only [Bool.false_eq_true, reduceCtorEq, false_and, exists_false, and_false]
    | some r =>
        simp only [Bool.and_eq_true, decide_eq_true_eq, Option.some.injEq, exists_eq_left']
        exact (and_iff_right h0).symm

/-- A handle leads to the row of its slot. -/
theorem get_table (h : w.isAlive e = true) :
    w.table.get e.unpack = some (w.row e.index) := by
  rcases (isAlive_iff w e).mp h with ⟨h0, r, hr, ha, hg⟩
  have hgen : e.unpack.index ≠ 0 ∧
      w.table.generationAt e.unpack.index = e.unpack.generation := by
    refine ⟨h0, ?_⟩
    unfold EntityHandle.unpack
    rw [generationAt_table, hr, Option.elim_some, hg]
  rw [Ecs.World.get_eq, if_pos hgen]
  exact (slot_table hr).trans (if_pos ha)

theorem get_table_stale (h : ¬ w.isAlive e = true) :
    w.table.get e.unpack = none := by
  cases hget : w.table.get e.unpack with
  | none => rfl
  | some c =>
      refine absurd ((isAlive_iff w e).mpr ?_) h
      rcases Ecs.World.generation_of_get hget with ⟨h0, hg⟩
      have hslot := Ecs.World.slot_of_get hget
      have hindex : e.unpack.index = e.index := rfl
      rw [hindex] at h0 hg hslot
      cases hr : w.records[e.index]? with
      | none =>
          rw [slot_table_none hr] at hslot
          exact absurd hslot nofun
      | some r =>
          refine ⟨h0, r, rfl, ?_, ?_⟩
          · rw [slot_table hr] at hslot
            by_contra ha
            rw [if_neg ha] at hslot
            exact absurd hslot nofun
          · rw [generationAt_table, hr] at hg
            exact hg

theorem isAlive_eq (w : World T) (e : EntityHandle) : w.isAlive e = w.table.isAlive e.unpack := by
  unfold Ecs.World.isAlive
  by_cases h : w.isAlive e = true
  · rw [h, get_table h, Option.isSome_some]
  · rw [get_table_stale h, Option.isSome_none]
    exact (Bool.not_eq_true _).mp h

theorem getComponent_eq (w : World T) (c : ComponentTypeId) (e : EntityHandle) :
    w.getComponent c e = (w.table.get e.unpack).bind fun row => row c := by
  unfold getComponent
  by_cases h : w.isAlive e = true
  · rw [if_pos h, get_table h, Option.bind_some]
    rfl
  · rw [if_neg h, get_table_stale h, Option.bind_none]

theorem Sound.hasComponent_eq (hw : w.Sound) (c : ComponentTypeId)
    (e : EntityHandle) : w.hasComponent c e = (w.getComponent c e).isSome := by
  unfold hasComponent getComponent
  by_cases h : w.isAlive e = true
  · rw [if_pos h, h, Bool.true_and, hw.present]
    rfl
  · rw [if_neg h, (Bool.not_eq_true _).mp h, Bool.false_and, Option.isSome_none]

/-- A sound store is a sound table. -/
theorem Sound.table (hw : w.Sound) : w.table.Sound where
  null := by
    cases hr : w.records[0]? with
    | none => exact slot_table_none hr
    | some r => rw [slot_table hr, hw.null r hr, if_neg Bool.false_ne_true]
  size := by
    rw [length_table]
    exact hw.size.1
  nodup := hw.nodup
  free := by
    intro i hi
    rcases (hw.free i).mp hi with ⟨h0, r, hr, ha⟩
    refine ⟨h0, ?_, ?_⟩
    · rw [length_table]
      exact (List.getElem?_eq_some_iff.mp hr).1
    · rw [slot_table hr, ha, if_neg Bool.false_ne_true]

/-- A slot that is not in use has no components. -/
theorem Sound.row_dead (hw : w.Sound)
    (h : ∀ r, w.records[i]? = some r → r.alive = false) : w.row i = fun _ => none := by
  funext c
  have hbit : w.bit c i = false := by
    unfold bit
    cases hr : w.records[i]? with
    | none => rfl
    | some r =>
        rw [Option.any_some, hw.masked i r hr (h r hr)]
        exact BitVec.getLsbD_zero
  have hnone := hw.present c i
  rw [hbit, Option.isSome_eq_false_iff, Option.isNone_iff_eq_none] at hnone
  exact hnone

/-! ## Changing a component -/

/-- The rows after one storage was replaced by one that differs at one slot. -/
theorem row_update {s s' : ComponentStorage (T c)}
    (hs : w.storages c = some s) {x : Option (T c)}
    (hget : ∀ i, s'.get i = if i = idx then x else s.get i) (records : List EntityRecord)
    (freeList : List Nat) (i : Nat) :
    (World.mk records freeList (Function.update w.storages c (some s'))).row i =
      if i = idx then Function.update (w.row i) c x else w.row i := by
  have hrow : (World.mk records freeList (Function.update w.storages c (some s'))).row i =
      Function.update (w.row i) c (s'.get i) := by
    funext d
    unfold row component
    simp only []
    by_cases hd : d = c
    · subst hd
      rw [Function.update_self, Function.update_self, Option.bind_some]
    · rw [Function.update_of_ne hd, Function.update_of_ne hd]
  rw [hrow, hget]
  by_cases hi : i = idx
  · rw [if_pos hi, if_pos hi]
  · rw [if_neg hi, if_neg hi]
    have hold : s.get i = w.row i c := by
      unfold row component
      rw [hs, Option.bind_some]
    rw [hold, Function.update_eq_self]

theorem storage_update (hw : w.Sound)
    {s' : ComponentStorage (T c)} (hs' : s'.Sound) (d : ComponentTypeId)
    (s : ComponentStorage (T d)) (h : Function.update w.storages c (some s') d = some s) :
    s.Sound := by
  by_cases hd : d = c
  · subst hd
    rw [Function.update_self, Option.some.injEq] at h
    rw [← h]
    exact hs'
  · rw [Function.update_of_ne hd] at h
    exact hw.storage d s h

theorem getElem?_setMask (w : World T) (idx : Nat) (f : BitVec 64 → BitVec 64) (i : Nat) :
    (w.setMask idx f)[i]? = (w.records[i]?).map fun r =>
      if idx = i then { r with componentMask := f r.componentMask } else r := by
  unfold setMask
  rw [List.getElem?_modify]
  rfl

/-- The table after a component of a slot in use was changed, with the mask. -/
theorem table_setMask (f : BitVec 64 → BitVec 64)
    {storages : (c : ComponentTypeId) → Option (ComponentStorage (T c))} {g : Row T → Row T}
    (hrow : ∀ i, (World.mk (w.setMask idx f) w.freeList storages).row i =
      if i = idx then g (w.row i) else w.row i) :
    (World.mk (w.setMask idx f) w.freeList storages).table = w.table.modifyAt idx g := by
  refine table_ext rfl fun i => ?_
  unfold Ecs.World.modifyAt
  rw [List.getElem?_modify, getElem?_table]
  simp only [getElem?_setMask]
  cases hr : w.records[i]? with
  | none => rfl
  | some r =>
      simp only [Option.map_some, Option.map_eq_map, Option.some.injEq]
      unfold cell
      rw [hrow]
      by_cases hi : idx = i
      · rw [if_pos hi, if_pos hi, if_pos hi.symm]
        by_cases ha : r.alive = true
        · simp only [ha, if_true, Option.map_some]
        · simp only [ha, if_false, Bool.false_eq_true, Option.map_none]
      · have hi' : ¬ i = idx := fun h => hi h.symm
        rw [if_neg hi, if_neg hi, if_neg hi']

theorem Sound.setMask (hw : w.Sound) {r : EntityRecord}
    (hr : w.records[idx]? = some r) (ha : r.alive = true) (f : BitVec 64 → BitVec 64)
    {storages : (c : ComponentTypeId) → Option (ComponentStorage (T c))}
    (hstorage : ∀ c s, storages c = some s → s.Sound)
    (hpresent : ∀ c i, ((World.mk (w.setMask idx f) w.freeList storages).component c i).isSome =
      if i = idx then (f r.componentMask).getLsbD c else w.bit c i) :
    (World.mk (w.setMask idx f) w.freeList storages).Sound := by
  have hback : ∀ i r', (w.setMask idx f)[i]? = some r' → ∃ r₀, w.records[i]? = some r₀ ∧
      r'.generation = r₀.generation ∧ r'.alive = r₀.alive ∧
      (idx ≠ i → r'.componentMask = r₀.componentMask) := by
    intro i r' hr'
    rw [getElem?_setMask] at hr'
    rcases Option.map_eq_some_iff.mp hr' with ⟨r₀, hr₀, rfl⟩
    refine ⟨r₀, hr₀, ?_⟩
    by_cases hi : idx = i
    · rw [if_pos hi]
      exact ⟨rfl, rfl, fun h => absurd hi h⟩
    · rw [if_neg hi]
      exact ⟨rfl, rfl, fun _ => rfl⟩
  refine ⟨?_, ?_, ?_, ?_, hw.nodup, ?_, hstorage, ?_⟩
  · have hlen : (w.setMask idx f).length = w.records.length := by
      unfold World.setMask
      rw [List.length_modify]
    exact hlen ▸ hw.size
  · intro r' hr'
    rcases hback 0 r' hr' with ⟨r₀, hr₀, _, hlife, _⟩
    rw [hlife]
    exact hw.null r₀ hr₀
  · intro i r' hr'
    rcases hback i r' hr' with ⟨r₀, hr₀, hgen, _⟩
    rw [hgen]
    exact hw.generation i r₀ hr₀
  · intro i r' hr' hdead
    rcases hback i r' hr' with ⟨r₀, hr₀, _, hlife, hmask⟩
    rw [hlife] at hdead
    by_cases hi : idx = i
    · rw [← hi, hr, Option.some.injEq] at hr₀
      rw [← hr₀, ha] at hdead
      exact absurd hdead (by decide)
    · rw [hmask hi]
      exact hw.masked i r₀ hr₀ hdead
  · intro i
    refine (hw.free i).trans (and_congr_right fun _ => ⟨?_, ?_⟩)
    · rintro ⟨r₀, hr₀, hdead⟩
      refine ⟨if idx = i then { r₀ with componentMask := f r₀.componentMask } else r₀, ?_, ?_⟩
      · rw [getElem?_setMask, hr₀, Option.map_some]
      · split <;> exact hdead
    · rintro ⟨r', hr', hdead⟩
      rcases hback i r' hr' with ⟨r₀, hr₀, _, hlife, _⟩
      exact ⟨r₀, hr₀, hlife ▸ hdead⟩
  · intro c i
    rw [hpresent]
    unfold bit
    simp only [getElem?_setMask]
    by_cases hi : i = idx
    · rw [if_pos hi, hi, hr, Option.map_some, Option.any_some, if_pos rfl]
    · rw [if_neg hi]
      cases w.records[i]? with
      | none => rfl
      | some r₀ => rw [Option.map_some, Option.any_some, Option.any_some, if_neg fun h => hi h.symm]

theorem modify_table (ha : w.isAlive e = true)
    (g : Row T → Row T) : w.table.modify e.unpack g = w.table.modifyAt e.index g := by
  unfold Ecs.World.modify
  rw [← isAlive_eq, if_pos ha]
  rfl

theorem Sound.registerComponent {w w' : World T} (hw : w.Sound)
    (h : w.registerComponent c = some w') : w'.Sound ∧ w'.table = w.table := by
  unfold World.registerComponent at h
  cases hs : w.storages c with
  | some s =>
      rw [hs] at h
      exact absurd h nofun
  | none =>
      rw [hs] at h
      simp only [Option.some.injEq] at h
      -- An empty storage has as many components as none.
      have hcomponent : ∀ d i, w'.component d i = w.component d i := by
        intro d i
        rw [← h]
        unfold component
        simp only []
        by_cases hd : d = c
        · subst hd
          rw [Function.update_self, hs, Option.bind_some, Option.bind_none]
          rfl
        · rw [Function.update_of_ne hd]
      have hcell : w'.cell = w.cell := by
        funext i r
        unfold cell row
        simp only [hcomponent]
      rw [← h] at hcell hcomponent ⊢
      refine ⟨⟨hw.size, hw.null, hw.generation, hw.masked, hw.nodup, hw.free, ?_, ?_⟩, ?_⟩
      · exact storage_update hw SparseSet.Sound.empty
      · intro d i
        rw [hcomponent]
        exact hw.present d i
      · unfold World.table
        rw [hcell]

theorem Sound.addComponent [∀ c, Inhabited (T c)] {w w' : World T} (hw : w.Sound)
    (h : w.addComponent c e = some w') :
    w'.Sound ∧ w.isAlive e = true ∧ w.hasComponent c e = false ∧
      w'.table = w.table.modify e.unpack fun row => Function.update row c (some default) := by
  unfold World.addComponent at h
  split at h
  · rename_i hpre
    rcases hpre with ⟨ha, hnot⟩
    cases hs : w.storages c with
    | none =>
        rw [hs] at h
        exact absurd h nofun
    | some s =>
        rw [hs] at h
        rcases Option.map_eq_some_iff.mp h with ⟨s', hs', hw'⟩
        rcases (isAlive_iff w e).mp ha with ⟨h0, r, hr, hlife, hgen⟩
        have hsound := hw.storage c s hs
        have hrow := row_update hs (hsound.get_insert hs') (w.setMask e.index fun mask =>
          mask ||| (1#64 <<< c.val)) w.freeList
        rw [← hw']
        refine ⟨?_, ha, (Bool.not_eq_true _).mp hnot, ?_⟩
        · refine hw.setMask hr hlife _ (storage_update hw (hsound.insert hs')) fun d i => ?_
          have hcomponent := congrFun (hrow i) d
          unfold row at hcomponent
          rw [hcomponent]
          by_cases hi : i = e.index
          · rw [if_pos hi, if_pos hi, Bool.eq_iff_iff, getLsbD_setBit]
            by_cases hd : d = c
            · subst hd
              rw [Function.update_self]
              simp only [Option.isSome_some, or_true]
            · rw [Function.update_of_ne hd, hw.present, or_iff_left hd, hi]
              unfold bit
              rw [hr, Option.any_some]
          · rw [if_neg hi, if_neg hi]
            exact hw.present d i
        · rw [modify_table ha]
          exact table_setMask _ hrow
  · exact absurd h nofun

theorem Sound.removeComponent {w w' : World T} (hw : w.Sound)
    (h : w.removeComponent c e = some w') :
    w'.Sound ∧ w.hasComponent c e = true ∧
      w'.table = w.table.modify e.unpack fun row => Function.update row c none := by
  unfold World.removeComponent at h
  split at h
  · rename_i hhas
    have ha : w.isAlive e = true := by
      unfold World.hasComponent at hhas
      exact ((Bool.and_eq_true _ _).mp hhas).1
    cases hs : w.storages c with
    | none =>
        rw [hs] at h
        exact absurd h nofun
    | some s =>
        rw [hs] at h
        rcases Option.map_eq_some_iff.mp h with ⟨s', hs', hw'⟩
        rcases (isAlive_iff w e).mp ha with ⟨h0, r, hr, hlife, hgen⟩
        have hsound := hw.storage c s hs
        have hrow := row_update hs (hsound.get_remove hs') (w.setMask e.index fun mask =>
          mask &&& ~~~(1#64 <<< c.val)) w.freeList
        rw [← hw']
        refine ⟨?_, hhas, ?_⟩
        · refine hw.setMask hr hlife _ (storage_update hw (hsound.remove hs')) fun d i => ?_
          have hcomponent := congrFun (hrow i) d
          unfold row at hcomponent
          rw [hcomponent]
          by_cases hi : i = e.index
          · rw [if_pos hi, if_pos hi, Bool.eq_iff_iff, getLsbD_clearBit]
            by_cases hd : d = c
            · subst hd
              rw [Function.update_self]
              simp only [Option.isSome_none, Bool.false_eq_true, ne_eq, not_true_eq_false, and_false]
            · rw [Function.update_of_ne hd, hw.present, and_iff_left hd, hi]
              unfold bit
              rw [hr, Option.any_some]
          · rw [if_neg hi, if_neg hi]
            exact hw.present d i
        · rw [modify_table ha]
          exact table_setMask _ hrow
  · exact absurd h nofun

theorem Sound.writeComponent {w w' : World T} (hw : w.Sound)
    {v : T c} (h : w.writeComponent c e v = some w') :
    w'.Sound ∧ (w.getComponent c e).isSome = true ∧
      w'.table = w.table.modify e.unpack fun row => Function.update row c (some v) := by
  unfold World.writeComponent at h
  split at h
  · rename_i x s hx hs
    have ha : w.isAlive e = true := by
      unfold World.getComponent at hx
      by_contra hno
      rw [if_neg hno] at hx
      exact absurd hx nofun
    rw [Option.some.injEq] at h
    rcases (isAlive_iff w e).mp ha with ⟨h0, r, hr, hlife, hgen⟩
    have hsound := hw.storage c s hs
    have hold : s.get e.index = some x := by
      unfold World.getComponent World.component at hx
      rw [if_pos ha, hs, Option.bind_some] at hx
      exact hx
    have hget : ∀ i, (s.set e.index v).get i = if i = e.index then some v else s.get i := by
      intro i
      rw [hsound.get_set]
      by_cases hi : i = e.index
      · rw [if_pos hi, if_pos hi, hi, hold, Option.map_some]
      · rw [if_neg hi, if_neg hi]
    -- The mask stays what it is.
    have hsame : w.setMask e.index (fun mask => mask) = w.records := by
      refine List.ext_getElem? fun i => ?_
      rw [getElem?_setMask]
      simp only [ite_self, Option.map_id_fun', id_eq]
    have hrow := row_update hs hget (w.setMask e.index fun mask => mask) w.freeList
    rw [← h]
    rw [show w.records = w.setMask e.index (fun mask => mask) from hsame.symm]
    refine ⟨?_, by rw [hx]; rfl, ?_⟩
    · refine hw.setMask hr hlife _ (storage_update hw (hsound.set _ _)) fun d i => ?_
      have hcomponent := congrFun (hrow i) d
      unfold row at hcomponent
      rw [hcomponent]
      by_cases hi : i = e.index
      · have hmask : (r.componentMask).getLsbD d = w.bit d i := by
          unfold bit
          rw [hi, hr, Option.any_some]
        rw [if_pos hi, if_pos hi, hmask]
        by_cases hd : d = c
        · subst hd
          rw [Function.update_self, ← hw.present, hi]
          unfold World.component
          rw [hs, Option.bind_some, hold, Option.isSome_some, Option.isSome_some]
        · rw [Function.update_of_ne hd]
          exact hw.present d i
      · rw [if_neg hi, if_neg hi]
        exact hw.present d i
    · rw [modify_table ha]
      exact table_setMask _ hrow
  · exact absurd h nofun

end World

end EcsStorage

end EarthRise
