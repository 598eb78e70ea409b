import EarthRise.Theory.EcsLife
import Mathlib.Data.List.Perm.Basic

/-!
# The Entity Store Is a Finite Map

A world after any operations stands for a finite map: the handles in use, and for each of
them and each component type a component or none. The map knows nothing of slots, masks or
storages. Its steps are what the operations report: a created handle is in use, a destroyed
one is not and loses its components, and a component is what was last written for its
handle and type.

The slots connect the two. Slot zero, the free slots and the slots of the handles in use
are all slots, each once, and that is where the count and the order of an iteration come
from.

## Main definitions

* `Entities`: The finite map, with `Entities.apply` for what an operation reports.
* `World.Represents`: What a world answers is what the map has.
* `World.Tracks`: The invariant: the table has the map's rows, and the slots add up.

## Theorems

* `Tracks.happened`: One operation.
* `Tracks.represents`: The answers of a world that tracks a map.
* `represents_run`: A world represents the map of its run.
-/

namespace EarthRise

namespace EcsStorage

/-- A finite map from handles to components: the handles in use, and what they have. -/
structure Entities (T : ComponentTypeId → Type) where
  live : List EntityHandle
  value : EntityHandle → Row T

namespace Entities

variable {T : ComponentTypeId → Type}

def empty : Entities T := ⟨[], fun _ _ => none⟩

/-- Write, or erase, the component of one type of one handle. -/
def put (m : Entities T) (c : ComponentTypeId) (e : EntityHandle) (x : Option (T c)) :
    Entities T :=
  { m with value := Function.update m.value e (Function.update (m.value e) c x) }

def apply [∀ c, Inhabited (T c)] (m : Entities T) : Event T → Entities T
  | .registered _ => m
  | .created e => { m with live := e :: m.live }
  | .destroyed e =>
      { live := m.live.erase e, value := Function.update m.value e fun _ => none }
  | .ignored => m
  | .added c e => m.put c e (some default)
  | .removed c e => m.put c e none
  | .wrote c e v => m.put c e (some v)

end Entities

namespace World

variable {T : ComponentTypeId → Type} {w : World T} {m : Entities T} {w w' : World T}
  {e : EntityHandle}

/-- What a world answers is what a finite map has. -/
structure Represents (w : World T) (m : Entities T) : Prop where
  /-- A slot has one handle in use at most. -/
  slots : (m.live.map EntityHandle.index).Nodup
  isAlive : ∀ e, w.isAlive e = true ↔ e ∈ m.live
  getComponent : ∀ c e, w.getComponent c e = m.value e c
  hasComponent : ∀ c e, w.hasComponent c e = (m.value e c).isSome
  /-- An iteration visits slots in ascending order, so it visits none twice. -/
  ascending : ∀ cs, (w.forEach cs).Pairwise fun a b => a.1 < b.1
  /-- It visits the handles in use that have all that is asked for, with what they have. -/
  visits : ∀ cs i row, (i, row) ∈ w.forEach cs ↔
    ∃ e ∈ m.live, e.index = i ∧ (∀ c ∈ cs, (m.value e c).isSome = true) ∧
      row = cs.map fun c => ⟨c, m.value e c⟩
  entityCount : w.entityCount = m.live.length

/-- The table has the rows of the map, and the slots add up. -/
structure Tracks (w : World T) (m : Entities T) : Prop where
  sound : w.Sound
  get : ∀ e, w.table.get e.unpack = if e ∈ m.live then some (m.value e) else none
  dead : ∀ e, e ∉ m.live → m.value e = fun _ => none
  slots : (0 :: (w.freeList ++ m.live.map EntityHandle.index)).Perm (List.range w.records.length)

theorem Tracks.fresh : (World.fresh : World T).Tracks Entities.empty where
  sound := Sound.fresh
  get := by
    intro e
    have ha : ¬ (World.fresh : World T).isAlive e = true := by
      rw [isAlive_iff]
      rintro ⟨h0, r, hr, _⟩
      have hlt : e.index < 1 := (List.getElem?_eq_some_iff.mp hr).1
      omega
    rw [get_table_stale ha, if_neg (show e ∉ Entities.empty.live from List.not_mem_nil)]
  dead := fun _ _ => rfl
  slots := List.Perm.refl _

/-! ## The steps -/

theorem Tracks.isAlive (h : w.Tracks m) (e : EntityHandle) :
    w.isAlive e = true ↔ e ∈ m.live := by
  rw [isAlive_eq, Ecs.World.isAlive, h.get]
  by_cases he : e ∈ m.live
  · rw [if_pos he]
    exact ⟨fun _ => he, fun _ => rfl⟩
  · rw [if_neg he]
    exact ⟨fun h => absurd h Bool.false_ne_true, fun h => absurd h he⟩

theorem Tracks.nodup (h : w.Tracks m) :
    (m.live.map EntityHandle.index).Nodup := by
  have hall := (h.slots.nodup_iff).mpr List.nodup_range
  exact (List.nodup_append.mp (List.nodup_cons.mp hall).2).2.1

/-- Nothing but a row changed, so the slots are what they were. -/
theorem slots_of_table {t : Ecs.World (Row T)} (ht : w'.table = t)
    (hfree : t.freeList = w.freeList) (hsize : t.records.length = w.records.length) :
    w'.freeList = w.freeList ∧ w'.records.length = w.records.length := by
  constructor
  · exact (congrArg Ecs.World.freeList ht).trans hfree
  · rw [← length_table w', ht, hsize]

/-- The components of one type of one handle are written, or erased. -/
theorem Tracks.put (h : w.Tracks m) (hw' : w'.Sound)
    {c : ComponentTypeId} {x : Option (T c)}
    (ha : w.table.isAlive e.unpack = true)
    (ht : w'.table = w.table.modify e.unpack fun row => Function.update row c x) :
    w'.Tracks (m.put c e x) := by
  rw [← isAlive_eq, h.isAlive] at ha
  have hsame : w'.freeList = w.freeList ∧ w'.records.length = w.records.length := by
    refine slots_of_table ht ?_ ?_
    · unfold Ecs.World.modify Ecs.World.modifyAt
      split <;> rfl
    · unfold Ecs.World.modify Ecs.World.modifyAt
      split
      · rw [List.length_modify, length_table]
      · exact length_table w
  refine ⟨hw', fun e' => ?_, fun e' he' => ?_, ?_⟩
  · rw [ht, Ecs.World.get_modify, h.get]
    unfold Entities.put
    simp only [EntityHandle.unpack_inj]
    by_cases hee : e' = e
    · rw [if_pos hee, hee, if_pos ha, Option.map_some, Function.update_self, if_pos ha]
    · rw [if_neg hee, Function.update_of_ne hee]
  · have hee : e' ≠ e := by
      rintro rfl
      exact he' ha
    have hold := h.dead e' he'
    unfold Entities.put
    simp only []
    rw [Function.update_of_ne hee, hold]
  · rw [hsame.1, hsame.2]
    exact h.slots

theorem Tracks.created (h : w.Tracks m) (hw' : w'.Sound)
    (he : e.unpack = (w.table.createEntity fun _ => none).1)
    (ht : w'.table = (w.table.createEntity fun _ => none).2) :
    w'.Tracks { m with live := e :: m.live } := by
  have hslots : (0 :: (w'.freeList ++ (e :: m.live).map EntityHandle.index)).Perm
      (List.range w'.records.length) := by
    have hindex : e.index = w.table.newSlot := by
      rw [← Ecs.World.createEntity_index w.table fun _ => none, ← he]
      rfl
    have hlen := length_table w'
    have hfree : w'.freeList = w.freeList.tail := by
      refine (congrArg Ecs.World.freeList ht).trans ?_
      rw [Ecs.World.createEntity_freeList]
      rfl
    rw [List.map_cons, hfree, hindex, ← hlen, ht]
    cases hf : w.freeList with
    | nil =>
        -- A new slot is the last of all slots.
        rw [Ecs.World.newSlot_nil (w := w.table) hf, Ecs.World.createEntity_nil (w := w.table) hf,
          List.length_append, List.length_singleton, length_table, List.range_succ, List.tail_nil,
          List.nil_append]
        have hold := h.slots
        rw [hf, List.nil_append] at hold
        refine ((List.Perm.swap _ _ _).trans (hold.cons _)).trans ?_
        exact (List.perm_append_singleton _ _).symm
    | cons i rest =>
        rw [Ecs.World.newSlot_cons (w := w.table) hf, Ecs.World.createEntity_cons (w := w.table) hf,
          List.length_set, length_table, List.tail_cons]
        refine (List.Perm.cons 0 List.perm_middle).trans ?_
        have hold := h.slots
        rw [hf, List.cons_append] at hold
        exact hold
  have hnew : e ∉ m.live := by
    intro hmem
    have hall := (hslots.nodup_iff).mpr List.nodup_range
    have hlive := (List.nodup_append.mp (List.nodup_cons.mp hall).2).2.1
    rw [List.map_cons, List.nodup_cons] at hlive
    exact hlive.1 (List.mem_map_of_mem hmem)
  refine ⟨hw', fun e' => ?_, fun e' he' => ?_, hslots⟩
  · rw [ht, h.sound.table.get_createEntity, ← he, h.get]
    simp only [EntityHandle.unpack_inj, List.mem_cons]
    by_cases hee : e' = e
    · rw [if_pos hee, if_pos (Or.inl hee), hee, h.dead e hnew]
    · rw [if_neg hee]
      simp only [hee, false_or]
  · exact h.dead e' fun hmem => he' (List.mem_cons_of_mem e hmem)

theorem Tracks.destroyed (h : w.Tracks m) (hw' : w'.Sound)
    (ha : w.table.isAlive e.unpack = true)
    (ht : w'.table = w.table.destroyEntity e.unpack) :
    w'.Tracks { live := m.live.erase e, value := Function.update m.value e fun _ => none } := by
  have he := ha
  rw [← isAlive_eq, h.isAlive] at he
  have hnodup : m.live.Nodup := h.nodup.of_map _
  have hmem : ∀ e', e' ∈ m.live.erase e ↔ e' ≠ e ∧ e' ∈ m.live := fun e' => hnodup.mem_erase_iff
  refine ⟨hw', fun e' => ?_, fun e' he' => ?_, ?_⟩
  · rw [ht, Ecs.World.get_destroyEntity, h.get]
    simp only [EntityHandle.unpack_inj, hmem]
    by_cases hee : e' = e
    · rw [if_pos hee, if_neg fun h => h.1 hee]
    · rw [if_neg hee, Function.update_of_ne hee]
      simp only [ne_eq, hee, not_false_eq_true, true_and]
  · rw [hmem] at he'
    simp only []
    by_cases hee : e' = e
    · rw [hee, Function.update_self]
    · rw [Function.update_of_ne hee]
      exact h.dead e' fun hin => he' ⟨hee, hin⟩
  · have hfree : w'.freeList = e.index :: w.freeList := by
      refine (congrArg Ecs.World.freeList ht).trans ?_
      rw [Ecs.World.destroyEntity_of_alive ha]
      rfl
    have hlen : w'.records.length = w.records.length := by
      rw [← length_table, ht, Ecs.World.destroyEntity_size, length_table]
    rw [hfree, hlen, List.cons_append]
    refine List.Perm.trans (List.Perm.cons 0 ?_) h.slots
    refine List.perm_middle.symm.trans (List.Perm.append_left w.freeList ?_)
    exact ((List.perm_cons_erase he).map EntityHandle.index).symm

/-- The map follows an operation. -/
theorem Tracks.happened [∀ c, Inhabited (T c)] (h : w.Tracks m)
    (hw' : w'.Sound) {ev : Event T} (hev : Happened w.table w'.table ev) :
    w'.Tracks (m.apply ev) := by
  -- A table that is the same has the same free slots and the same rows.
  have hsame (ht : w'.table = w.table) : w'.Tracks m := by
    have hslots := slots_of_table ht rfl (length_table w)
    refine ⟨hw', fun e => by rw [ht]; exact h.get e, h.dead, ?_⟩
    rw [hslots.1, hslots.2]
    exact h.slots
  cases hev with
  | registered c ht => exact hsame ht
  | created e he ht => exact h.created hw' he ht
  | destroyed e ha ht => exact h.destroyed hw' ha ht
  | ignored ht => exact hsame ht
  | added c e ha ht => exact h.put hw' ha ht
  | removed c e ha ht => exact h.put hw' ha ht
  | wrote c e v ha ht => exact h.put hw' ha ht

/-- The map follows a sequence of operations. -/
theorem Tracks.run [∀ c, Inhabited (T c)] (h : w.Tracks m)
    {ops : List (Op T)} {log : List (Event T)} {w' : World T} (hrun : w.run ops = some (log, w')) :
    w'.Tracks (log.foldl Entities.apply m) := by
  induction ops generalizing w m log with
  | nil =>
      rw [World.run, Option.some.injEq, Prod.mk.injEq] at hrun
      rcases hrun with ⟨rfl, rfl⟩
      exact h
  | cons o ops ih =>
      rw [World.run] at hrun
      cases hexec : w.exec o with
      | none =>
          rw [hexec] at hrun
          exact absurd hrun nofun
      | some r =>
          rcases r with ⟨ev, w₁⟩
          rw [hexec] at hrun
          rcases Option.map_eq_some_iff.mp hrun with ⟨⟨log₁, w₂⟩, hrest, heq⟩
          rw [Prod.mk.injEq] at heq
          rcases heq with ⟨rfl, rfl⟩
          rcases h.sound.exec hexec with ⟨hw₁, hev⟩
          rw [List.foldl_cons]
          exact ih (h.happened hw₁ hev) hrest

/-! ## The answers -/

theorem Tracks.getComponent (h : w.Tracks m) (c : ComponentTypeId)
    (e : EntityHandle) : w.getComponent c e = m.value e c := by
  rw [getComponent_eq, h.get]
  by_cases he : e ∈ m.live
  · rw [if_pos he, Option.bind_some]
  · rw [if_neg he, Option.bind_none, h.dead e he]

/-- What an iteration visits is in use, and its mask has what is asked for. -/
theorem visitSlot_eq_some {cs : List ComponentTypeId} {i : Nat}
    {x : Nat × List (Σ c, Option (T c))} : w.visitSlot cs i = some x ↔
      ∃ r, w.records[i]? = some r ∧ r.alive = true ∧
        (∀ c ∈ cs, r.componentMask.getLsbD c = true) ∧
        x = (i, cs.map fun c => ⟨c, w.component c i⟩) := by
  unfold visitSlot
  cases hr : w.records[i]? with
  | none => simp only [reduceCtorEq, false_and, exists_false]
  | some r =>
      simp only [Option.some.injEq, exists_eq_left']
      rw [← covers_iff, ← and_assoc]
      by_cases hmask : r.alive = true ∧ r.componentMask &&& required cs = required cs
      · rw [if_pos hmask, Option.some.injEq, and_iff_right hmask, eq_comm]
      · rw [if_neg hmask]
        exact ⟨fun h => absurd h nofun,
          fun h => absurd h.1 hmask⟩

theorem forEach_ascending (w : World T) (cs : List ComponentTypeId) :
    (w.forEach cs).Pairwise fun a b => a.1 < b.1 := by
  unfold forEach
  rw [List.pairwise_filterMap]
  refine List.Pairwise.imp ?_ List.pairwise_lt_range'
  intro i j hij a ha b hb
  -- Every slot is visited under its own number.
  rcases visitSlot_eq_some.mp ha with ⟨_, _, _, _, rfl⟩
  rcases visitSlot_eq_some.mp hb with ⟨_, _, _, _, rfl⟩
  exact hij

theorem mem_forEach {cs : List ComponentTypeId} {i : Nat}
    {row : List (Σ c, Option (T c))} : (i, row) ∈ w.forEach cs ↔
      i ≠ 0 ∧ ∃ r, w.records[i]? = some r ∧ r.alive = true ∧
        (∀ c ∈ cs, r.componentMask.getLsbD c = true) ∧
        row = cs.map fun c => ⟨c, w.component c i⟩ := by
  unfold forEach
  rw [List.mem_filterMap]
  constructor
  · rintro ⟨j, hj, hvisit⟩
    rw [List.mem_range'_1] at hj
    rcases visitSlot_eq_some.mp hvisit with ⟨r, hr, ha, hmask, heq⟩
    rw [Prod.mk.injEq] at heq
    rcases heq with ⟨rfl, hrow⟩
    exact ⟨by omega, r, hr, ha, hmask, hrow⟩
  · rintro ⟨h0, r, hr, ha, hmask, hrow⟩
    have hlt := (List.getElem?_eq_some_iff.mp hr).1
    refine ⟨i, by rw [List.mem_range'_1]; omega, ?_⟩
    exact visitSlot_eq_some.mpr ⟨r, hr, ha, hmask, by rw [hrow]⟩

theorem Tracks.visits (h : w.Tracks m) (cs : List ComponentTypeId)
    (i : Nat) (row : List (Σ c, Option (T c))) : (i, row) ∈ w.forEach cs ↔
      ∃ e ∈ m.live, e.index = i ∧ (∀ c ∈ cs, (m.value e c).isSome = true) ∧
        row = cs.map fun c => ⟨c, m.value e c⟩ := by
  -- What the handle of a slot in use has is what its mask and the storages have.
  have hrow : ∀ {e : EntityHandle} {r : EntityRecord}, e ∈ m.live →
      w.records[e.index]? = some r → ∀ c, m.value e c = w.component c e.index ∧
        (m.value e c).isSome = r.componentMask.getLsbD c := by
    intro e r he hr c
    have hvalue : m.value e c = w.component c e.index := by
      rw [← h.getComponent, World.getComponent, if_pos ((h.isAlive e).mpr he)]
    refine ⟨hvalue, ?_⟩
    rw [hvalue, h.sound.present, bit, hr, Option.any_some]
  rw [mem_forEach]
  constructor
  · rintro ⟨h0, r, hr, ha, hmask, rfl⟩
    have hlt := (List.getElem?_eq_some_iff.mp hr).1
    have hmake := EntityHandle.isSome_make (Nat.lt_of_lt_of_le hlt h.sound.size.2)
      (h.sound.generation i r hr)
    rcases Option.isSome_iff_exists.mp hmake with ⟨e, he⟩
    rcases EntityHandle.make_eq_some he with ⟨rfl, hgen⟩
    have hlive : e ∈ m.live :=
      (h.isAlive e).mp ((isAlive_iff w e).mpr ⟨h0, r, hr, ha, hgen.symm⟩)
    refine ⟨e, hlive, rfl, fun c hc => ?_, ?_⟩
    · rw [(hrow hlive hr c).2]
      exact hmask c hc
    · simp only [(hrow hlive hr _).1]
  · rintro ⟨e, hlive, rfl, hhas, rfl⟩
    rcases (isAlive_iff w e).mp ((h.isAlive e).mpr hlive) with ⟨h0, r, hr, ha, _⟩
    refine ⟨h0, r, hr, ha, fun c hc => ?_, ?_⟩
    · rw [← (hrow hlive hr c).2]
      exact hhas c hc
    · simp only [(hrow hlive hr _).1]

theorem Tracks.entityCount (h : w.Tracks m) :
    w.entityCount = m.live.length := by
  have hlen := h.slots.length_eq
  rw [List.length_cons, List.length_append, List.length_map, List.length_range] at hlen
  unfold World.entityCount
  omega

theorem Tracks.represents (h : w.Tracks m) : w.Represents m where
  slots := h.nodup
  isAlive := h.isAlive
  getComponent := h.getComponent
  hasComponent := fun c e => by rw [h.sound.hasComponent_eq, h.getComponent]
  ascending := forEach_ascending w
  visits := h.visits
  entityCount := h.entityCount

/-- After any operations the world answers what the finite map has that was made by what
    the operations did. -/
theorem represents_run [∀ c, Inhabited (T c)] {ops : List (Op T)} {log : List (Event T)}
    {w : World T} (hrun : World.fresh.run ops = some (log, w)) :
    w.Represents (log.foldl Entities.apply Entities.empty) :=
  (Tracks.fresh.run hrun).represents

/-- Two entities with a component; that of the first is removed and the entity destroyed.
    The component of the second is moved in the storage, and is still its own. -/
theorem represents_run_swap : ∃ log w,
    (World.fresh : World fun _ => Nat).run
        [.register 3, .create, .create, .add 3 ⟨1⟩, .add 3 ⟨2⟩, .write 3 ⟨2⟩ 7, .remove 3 ⟨1⟩,
          .destroy ⟨1⟩] = some (log, w) ∧
    w.getComponent 3 ⟨2⟩ = some 7 ∧ w.Represents (log.foldl Entities.apply Entities.empty) := by
  obtain ⟨⟨log, w⟩, hrun, hget⟩ := Option.map_eq_some_iff.mp
    (show ((World.fresh : World fun _ => Nat).run [.register 3, .create, .create, .add 3 ⟨1⟩,
      .add 3 ⟨2⟩, .write 3 ⟨2⟩ 7, .remove 3 ⟨1⟩, .destroy ⟨1⟩]).map
        (fun r => r.2.getComponent 3 ⟨2⟩) = some (some 7) by decide +kernel)
  exact ⟨log, w, hrun, hget, represents_run hrun⟩

end World

end EcsStorage

end EarthRise
