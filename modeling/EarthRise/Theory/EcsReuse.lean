import EarthRise.Theory.EcsLife
import Mathlib.Data.List.Infix

/-!
# Handles After Their Entity

When a handle that was destroyed leads to something again.

Destroying moves the generation of the slot on, modulo 4096, and nothing else does. So a
slot that was destroyed `n` times since has the generation of the handle again when `n`
is a multiple of 4096, and the handle leads to whatever entity is created in the slot
then. The free slots are taken last in, first out, so one slot can be given out and freed
as often as wanted.

A slot's age is how often it was destroyed. It is at most 4096 while the handle stays
dead, and an age of 4096 is harmless as long as the slot is not given out.

## Main definitions

* `Dead`: The handle leads to nothing.
* `destroys`: How often a slot was destroyed in a run.
* `Aged`: The invariant: the generation is that of the handle plus the age.

## Theorems

* `Aged.happened`: One operation.
* `stays_dead_iff`: A handle stays dead in a run exactly if its slot is not given out at
  the age of 4096.
* `handle_revives`: It is not dead in every run.
-/

namespace EarthRise

namespace EcsStorage

namespace World

variable {T : ComponentTypeId → Type} {w : World T} {e : Ecs.EntityHandle} {t : Ecs.World (Row T)}
  {i : Nat}

/-- The handle leads to nothing. -/
def Dead (w : World T) (e : EntityHandle) : Prop :=
  w.isAlive e = false ∧ ∀ c, w.getComponent c e = none ∧ w.hasComponent c e = false

theorem dead_iff {e : EntityHandle} : w.Dead e ↔ w.isAlive e = false := by
  refine ⟨fun h => h.1, fun h => ⟨h, fun c => ⟨?_, ?_⟩⟩⟩
  · unfold getComponent
    rw [h, if_neg Bool.false_ne_true]
  · unfold hasComponent
    rw [h, Bool.false_and]

/-- The event destroyed the entity of a slot. -/
def destroyedAt (i : Nat) : Event T → Bool
  | .destroyed e => e.index = i
  | _ => false

/-- How often a slot was destroyed. -/
def destroys (i : Nat) (log : List (Event T)) : Nat := log.countP (destroyedAt i)

/-! ## Ages -/

/-- The slot of a handle that was destroyed has been destroyed `n` times. -/
structure Aged (t : Ecs.World (Row T)) (e : Ecs.EntityHandle) (n : Nat) : Prop where
  slot : e.index < t.records.length
  generation : t.generationAt e.index = (e.generation + n) % 4096
  bound : 0 < n ∧ n ≤ 4096
  used : t.slot e.index ≠ none → n < 4096

theorem Aged.dead {e : EntityHandle} {n : Nat} (h : Aged w.table e.unpack n) :
    w.Dead e := by
  rw [dead_iff, isAlive_eq, Ecs.World.isAlive, Option.isSome_eq_false_iff,
    Option.isNone_iff_eq_none, Ecs.World.get_eq]
  by_cases hg : e.unpack.index ≠ 0 ∧ w.table.generationAt e.unpack.index = e.unpack.generation
  · rw [if_pos hg]
    by_contra hused
    have hlt := h.used hused
    have hpos := h.bound.1
    have hgen := hg.2
    rw [h.generation] at hgen
    have hunpack : e.unpack.generation = e.generation := rfl
    omega
  · rw [if_neg hg]

/-- At an age of 4096 the generation is that of the handle. -/
theorem Aged.full (h : Aged t e 4096)
    (he : e.generation < 4096) : t.generationAt e.index = e.generation := by
  rw [h.generation]
  omega

/-- Only destroying moves a generation on. -/
theorem generationAt_destroyed
    (ha : t.isAlive e = true) :
    (t.destroyEntity e).generationAt e.index = (t.generationAt e.index + 1) % 4096 := by
  rcases Ecs.World.isAlive_iff.mp ha with ⟨c, hc⟩
  have hlt := Ecs.World.slot_lt (Ecs.World.slot_of_get hc)
  have hgen := (Ecs.World.generation_of_get hc).2
  rw [Ecs.World.destroyEntity_of_alive ha, hgen]
  unfold Ecs.World.generationAt
  rw [List.getElem?_set, if_pos rfl, if_pos hlt]
  rfl

theorem newSlot_of_lt (hlt : i < t.records.length)
    (hnew : i = t.newSlot) : t.freeList.head? = some i := by
  cases hf : t.freeList with
  | nil =>
      rw [Ecs.World.newSlot_nil hf] at hnew
      omega
  | cons j rest =>
      rw [Ecs.World.newSlot_cons hf] at hnew
      rw [List.head?_cons, hnew]

variable [∀ c, Inhabited (T c)] {ops : List (Op T)} {log : List (Event T)}

/-- An operation adds to the age what it destroyed in the slot, unless it gives the slot out
    at the age of 4096. -/
theorem Aged.happened {t t' : Ecs.World (Row T)} {n : Nat}
    (h : Aged t e n) (ht : t.Sound) {ev : Event T} (hev : Happened t t' ev)
    (hnew : (∃ e', ev = .created e') → t.freeList.head? = some e.index → n < 4096) :
    Aged t' e (n + if destroyedAt e.index ev then 1 else 0) := by
  -- Changing a row changes no generation, and no slot from free to used.
  have hmodify (e' : Ecs.EntityHandle) (g : Row T → Row T) (ht' : t' = t.modify e' g) :
      Aged t' e n := by
    rw [ht']
    unfold Ecs.World.modify
    by_cases ha : t.isAlive e' = true
    · rw [if_pos ha]
      refine ⟨?_, ?_, h.bound, fun hused => h.used fun hslot => hused ?_⟩
      · unfold Ecs.World.modifyAt
        rw [List.length_modify]
        exact h.slot
      · rw [Ecs.World.generationAt_modifyAt]
        exact h.generation
      · rw [Ecs.World.slot_modifyAt, hslot, Option.map_none, ite_self]
    · rw [if_neg ha]
      exact h
  cases hev with
  | registered c ht' =>
      rw [ht']
      exact h
  | created e' he' ht' =>
      rw [ht']
      refine ⟨Nat.lt_of_lt_of_le h.slot (Ecs.World.createEntity_size t _), ?_, h.bound,
        fun hused => ?_⟩
      · rw [Ecs.World.generationAt_createEntity]
        exact h.generation
      · rw [ht.slot_createEntity] at hused
        by_cases hi : e.index = t.newSlot
        · exact hnew ⟨e', rfl⟩ (newSlot_of_lt h.slot hi)
        · rw [if_neg hi] at hused
          exact h.used hused
  | destroyed e' ha ht' =>
      have hunpack : e'.unpack.index = e'.index := rfl
      rw [ht']
      by_cases hi : e'.index = e.index
      · have hslot : t.slot e.index ≠ none := by
          rcases Ecs.World.isAlive_iff.mp ha with ⟨c, hc⟩
          have hslot := Ecs.World.slot_of_get hc
          rw [hunpack, hi] at hslot
          rw [hslot]
          simp only [ne_eq, reduceCtorEq, not_false_eq_true]
        have hlt := h.used hslot
        have hage : destroyedAt e.index (T := T) (.destroyed e') = true := decide_eq_true hi
        rw [if_pos hage]
        refine ⟨?_, ?_, by omega, fun hused => absurd ?_ hused⟩
        · rw [Ecs.World.destroyEntity_size]
          exact h.slot
        · have hgen := generationAt_destroyed ha
          rw [hunpack, hi, h.generation] at hgen
          rw [hgen]
          omega
        · rw [Ecs.World.slot_destroyEntity, if_pos ⟨ha, hi.symm⟩]
      · have hage : ¬ destroyedAt e.index (T := T) (.destroyed e') = true := by
          unfold destroyedAt
          rw [decide_eq_true_eq]
          exact hi
        rw [if_neg hage]
        refine ⟨?_, ?_, h.bound, fun hused => h.used ?_⟩
        · rw [Ecs.World.destroyEntity_size]
          exact h.slot
        · rw [Ecs.World.generationAt_destroyEntity fun heq => hi heq.symm]
          exact h.generation
        · rwa [Ecs.World.slot_destroyEntity, if_neg fun heq => hi heq.2.symm] at hused
  | ignored ht' =>
      rw [ht']
      exact h
  | added c e' _ ht' => exact hmodify _ _ ht'
  | removed c e' _ ht' => exact hmodify _ _ ht'
  | wrote c e' v _ ht' => exact hmodify _ _ ht'

/-! ## Runs -/

/-- The last operation of a run. -/
theorem run_concat {w w' : World T} {o : Op T}
    (h : w.run (ops ++ [o]) = some (log, w')) : ∃ log₁ w₁ ev, w.run ops = some (log₁, w₁) ∧
      w₁.exec o = some (ev, w') ∧ log = log₁ ++ [ev] := by
  induction ops generalizing w log with
  | nil =>
      rw [List.nil_append, World.run] at h
      cases hexec : w.exec o with
      | none =>
          rw [hexec] at h
          exact absurd h nofun
      | some r =>
          rw [hexec] at h
          simp only [World.run, Option.map_some, Option.some.injEq, Prod.mk.injEq] at h
          exact ⟨[], w, r.1, rfl, by rw [hexec, ← h.2], h.1.symm⟩
  | cons o' ops ih =>
      rw [List.cons_append, World.run] at h
      cases hexec : w.exec o' with
      | none =>
          rw [hexec] at h
          exact absurd h nofun
      | some r =>
          rw [hexec] at h
          rcases Option.map_eq_some_iff.mp h with ⟨⟨log₂, w₂⟩, hrest, heq⟩
          rw [Prod.mk.injEq] at heq
          rcases heq with ⟨rfl, rfl⟩
          rcases ih hrest with ⟨log₁, w₁, ev, hrun, hlast, rfl⟩
          refine ⟨r.1 :: log₁, w₁, ev, ?_, hlast, rfl⟩
          rw [World.run, hexec]
          simp only [hrun, Option.map_some]

theorem run_sound {w w' : World T} (hw : w.Sound)
    (h : w.run ops = some (log, w')) : w'.Sound := by
  induction ops using List.reverseRecOn generalizing w' log with
  | nil =>
      rw [World.run, Option.some.injEq, Prod.mk.injEq] at h
      exact h.2 ▸ hw
  | append_singleton ops o ih =>
      rcases run_concat h with ⟨log₁, w₁, ev, hrun, hlast, _⟩
      exact ((ih hrun).exec hlast).1

/-- Running on from a run. -/
theorem run_append {w w₁ w₂ : World T} {ops ops' : List (Op T)} {log log' : List (Event T)}
    (h : w.run ops = some (log, w₁)) (h' : w₁.run ops' = some (log', w₂)) :
    w.run (ops ++ ops') = some (log ++ log', w₂) := by
  induction ops generalizing w log with
  | nil =>
      rw [World.run, Option.some.injEq, Prod.mk.injEq] at h
      rcases h with ⟨rfl, rfl⟩
      exact h'
  | cons o ops ih =>
      rw [World.run] at h
      rw [List.cons_append, World.run]
      cases hexec : w.exec o with
      | none =>
          rw [hexec] at h
          exact absurd h nofun
      | some r =>
          rw [hexec] at h
          rcases Option.map_eq_some_iff.mp h with ⟨⟨log₂, w₃⟩, hrest, heq⟩
          rw [Prod.mk.injEq] at heq
          rcases heq with ⟨rfl, rfl⟩
          simp only [ih hrest, Option.map_some, List.cons_append]

/-- Along a run the age counts what is destroyed, as long as no step of it gives the slot
    out at the age of 4096. -/
theorem aged_run (hw : w.Sound) (h : Aged w.table e 1)
    (hnew : ∀ pre log w₁ w₂, pre ++ [.create] <+: ops → w.run pre = some (log, w₁) →
      w₁.createEntity = some w₂ → w₁.freeList.head? = some e.index →
      Aged w₁.table e (destroys e.index log + 1) → destroys e.index log + 1 < 4096)
    {w' : World T} (hrun : w.run ops = some (log, w')) :
    Aged w'.table e (destroys e.index log + 1) := by
  induction ops using List.reverseRecOn generalizing w' log with
  | nil =>
      rw [World.run, Option.some.injEq, Prod.mk.injEq] at hrun
      rcases hrun with ⟨rfl, rfl⟩
      exact h
  | append_singleton ops o ih =>
      rcases run_concat hrun with ⟨log₁, w₁, ev, hrun₁, hlast, rfl⟩
      have hbefore := ih (fun pre log w₁ w₂ hpre =>
        hnew pre log w₁ w₂ (hpre.trans (List.prefix_append ops [o]))) hrun₁
      have hsound := run_sound hw hrun₁
      have hstep := hbefore.happened hsound.table (hsound.exec hlast).2 (by
        rintro ⟨e', rfl⟩ hhead
        cases o with
        | create =>
            rcases Option.map_eq_some_iff.mp hlast with ⟨w₂, hcreate, _⟩
            exact hnew ops log₁ w₁ w₂ (List.prefix_refl _) hrun₁ hcreate hhead hbefore
        | destroy e =>
            rcases Option.map_eq_some_iff.mp hlast with ⟨w₂, _, heq⟩
            have hev := congrArg Prod.fst heq
            simp only [] at hev
            split at hev
            · exact absurd hev nofun
            · exact absurd hev nofun
        | register c | add c e | remove c e | write c e v =>
            rcases Option.map_eq_some_iff.mp hlast with ⟨w₂, _, heq⟩
            exact absurd (congrArg Prod.fst heq) nofun)
      have hcount : destroys e.index (log₁ ++ [ev]) =
          destroys e.index log₁ + if destroyedAt e.index ev then 1 else 0 := by
        unfold destroys
        rw [List.countP_append, List.countP_singleton]
      rw [hcount, Nat.add_right_comm]
      exact hstep

section

omit [∀ c, Inhabited (T c)]

/-- Right after an entity was destroyed its slot is of age one. -/
theorem Sound.aged {w w' : World T} (hw : w.Sound) {e : EntityHandle} (ha : w.isAlive e = true)
    (h : w.destroyEntity e = some w') : Aged w'.table e.unpack 1 ∧ e.generation < 4096 := by
  rcases (isAlive_iff w e).mp ha with ⟨_, r, hr, _, hgen⟩
  have htable := (hw.destroyEntity h).2
  have halive : w.table.isAlive e.unpack = true := (isAlive_eq w e).symm.trans ha
  have hat : w.table.generationAt e.unpack.index = e.generation := by
    refine (generationAt_table w e.index).trans ?_
    rw [hr]
    exact hgen
  refine ⟨⟨?_, ?_, by omega, fun _ => by omega⟩, hgen ▸ hw.generation _ r hr⟩
  · rw [htable, Ecs.World.destroyEntity_size, length_table]
    exact (List.getElem?_eq_some_iff.mp hr).1
  · rw [htable, generationAt_destroyed halive, hat]
    rfl

/-- Giving a free slot out again does not fail. -/
theorem Sound.createEntity_isSome (hw : w.Sound)
    (hhead : w.freeList.head? = some i) : w.createEntity.isSome = true := by
  have hmem : i ∈ w.freeList := List.mem_of_head? hhead
  rcases (hw.free i).mp hmem with ⟨_, r, hr, _⟩
  have hlt := (List.getElem?_eq_some_iff.mp hr).1
  unfold World.createEntity
  cases hf : w.freeList with
  | nil =>
      rw [hf] at hhead
      exact absurd hhead nofun
  | cons j rest =>
      rw [hf, List.head?_cons, Option.some.injEq] at hhead
      subst hhead
      simp only [hr, Option.isSome_map]
      exact EntityHandle.isSome_make (Nat.lt_of_lt_of_le hlt hw.size.2) (hw.generation j r hr)

/-- An entity that takes a slot with the generation of an old handle has the handle. -/
theorem revived_of_generation {w w' : World T} (hw : w.Sound) {e e' : EntityHandle}
    (hgen : w.table.generationAt e.index = e.generation)
    (hhead : w.freeList.head? = some e.index) (hcreate : w.createEntity = some (e', w')) :
    w'.isAlive e = true := by
  rcases hw.createEntity hcreate with ⟨_, hhandle, htable⟩
  cases hf : w.freeList with
  | nil =>
      rw [hf] at hhead
      exact absurd hhead nofun
  | cons i rest =>
      rw [hf, List.head?_cons, Option.some.injEq] at hhead
      subst hhead
      have hsame : e' = e := by
        rw [Ecs.World.createEntity_cons (w := w.table) hf] at hhandle
        rw [← EntityHandle.unpack_inj, hhandle]
        exact Ecs.World.handle_ext rfl hgen
      rw [isAlive_eq, htable, Ecs.World.isAlive, hw.table.get_createEntity, ← hsame, hhandle,
        if_pos rfl, Option.isSome_some]

end

/-- A handle is destroyed in a world that was reached by any operations. It leads to
    nothing in every state of a further run exactly if no entity of the run is created in
    its slot once the slot has been destroyed 4096 times, the handle's own time included. -/
theorem stays_dead_iff {before : List (Op T)} {log₀ : List (Event T)} {w₀ w : World T}
    {e : EntityHandle} (hbefore : World.fresh.run before = some (log₀, w₀))
    (ha : w₀.isAlive e = true) (hdestroy : w₀.destroyEntity e = some w) (ops : List (Op T)) :
    (∀ pre log w', pre <+: ops → w.run pre = some (log, w') → w'.Dead e) ↔
      ∀ pre log w', pre ++ [.create] <+: ops → w.run pre = some (log, w') →
        w'.freeList.head? = some e.index → destroys e.index log + 1 < 4096 := by
  have hw₀ := run_sound Sound.fresh hbefore
  have hw := (hw₀.destroyEntity hdestroy).1
  rcases hw₀.aged ha hdestroy with ⟨haged, hgen⟩
  constructor
  · intro hdead
    -- Were the slot given out at its full age, the handle would lead to the new entity.
    have hbound : ∀ pre log w₁ w₂, pre ++ [.create] <+: ops → w.run pre = some (log, w₁) →
        w₁.createEntity = some w₂ → w₁.freeList.head? = some e.index →
        Aged w₁.table e.unpack (destroys e.index log + 1) → destroys e.index log + 1 < 4096 := by
      intro pre log w₁ w₂ hpre hrun hcreate hhead hage
      refine Nat.lt_of_le_of_ne hage.bound.2 fun hfull => ?_
      rw [hfull] at hage
      have hrevived := revived_of_generation (run_sound hw hrun) (hage.full hgen) hhead hcreate
      have hlast : w₁.run [.create] = some ([.created w₂.1], w₂.2) := by
        rw [World.run, World.exec, hcreate]
        rfl
      have hnot := (hdead _ _ _ hpre (run_append hrun hlast)).1
      rw [hrevived] at hnot
      exact Bool.true_eq_false.mp hnot
    intro pre log w' hpre hrun hhead
    have hsound := run_sound hw hrun
    rcases Option.isSome_iff_exists.mp (hsound.createEntity_isSome hhead) with ⟨w₂, hcreate⟩
    refine hbound pre log w' w₂ hpre hrun hcreate hhead (aged_run hw haged ?_ hrun)
    intro pre' log' w₁ w₂ hpre'
    exact hbound pre' log' w₁ w₂ (hpre'.trans ((List.prefix_append _ _).trans hpre))
  · intro hcond pre log w' hpre hrun
    refine (aged_run hw haged (fun pre' log' w₁ w₂ hpre' hrun' _ hhead _ => ?_) hrun).dead
    exact hcond pre' log' w₁ (hpre'.trans hpre) hrun' hhead

/-- The slot of a handle that was destroyed is given out once, and the handle stays dead. -/
theorem stays_dead_once : ∃ (w₀ w : World fun _ => Nat),
    World.fresh.run [.create] = some ([.created ⟨1⟩], w₀) ∧ w₀.destroyEntity ⟨1⟩ = some w ∧
    ∀ pre log w', pre <+: [.create] → w.run pre = some (log, w') → w'.Dead ⟨1⟩ := by
  obtain ⟨w₀, hbefore, ha⟩ : ∃ w₀, (World.fresh : World fun _ => Nat).run [.create] =
      some ([.created ⟨1⟩], w₀) ∧ w₀.isAlive ⟨1⟩ = true := ⟨_, rfl, rfl⟩
  rcases (run_sound Sound.fresh hbefore).destroyEntity_eq ha with ⟨w, hdestroy, _⟩
  refine ⟨w₀, w, hbefore, hdestroy, (stays_dead_iff hbefore ha hdestroy [.create]).mpr ?_⟩
  intro pre log w' hpre hrun _
  have hnil : pre = [] := by
    have hlen := hpre.length_le
    rw [List.length_append, List.length_singleton] at hlen
    exact List.length_eq_zero_iff.mp (by omega)
  rw [hnil, World.run, Option.some.injEq, Prod.mk.injEq] at hrun
  rw [← hrun.1]
  decide

/-! ## Wearing a slot out -/

/-- A free slot is given out and freed, which moves its generation on. -/
theorem Sound.recycle (hw : w.Sound) {rest : List Nat}
    (hf : w.freeList = i :: rest) : ∃ e log w', w.run [.create, .destroy e] = some (log, w') ∧
      w'.Sound ∧ w'.freeList = i :: rest ∧
      w'.table.generationAt i = (w.table.generationAt i + 1) % 4096 := by
  have hhead : w.freeList.head? = some i := by rw [hf, List.head?_cons]
  rcases Option.isSome_iff_exists.mp (hw.createEntity_isSome hhead) with ⟨⟨e, w₁⟩, hcreate⟩
  rcases hw.createEntity hcreate with ⟨hw₁, hhandle, htable⟩
  have halive : w₁.table.isAlive e.unpack = true := by
    rw [htable, hhandle, Ecs.World.isAlive, hw.table.get_createEntity, if_pos rfl,
      Option.isSome_some]
  have hindex : e.index = i := by
    rw [Ecs.World.createEntity_cons (w := w.table) hf] at hhandle
    exact congrArg Ecs.EntityHandle.index hhandle
  have ha : w₁.isAlive e = true := (isAlive_eq w₁ e).trans halive
  rcases hw₁.destroyEntity_eq ha with ⟨w₂, hdestroy, hvacated⟩
  rcases hw₁.destroyEntity hdestroy with ⟨hw₂, htable₂⟩
  refine ⟨e, [.created e, .destroyed e], w₂, ?_, hw₂, ?_, ?_⟩
  · simp only [World.run, World.exec, hcreate, hdestroy, Option.map_some, ha, if_true]
  · have hfree₁ : w₁.freeList = rest := by
      refine (congrArg Ecs.World.freeList htable).trans ?_
      rw [Ecs.World.createEntity_cons (w := w.table) hf]
    rw [hvacated.freeList, hindex, hfree₁]
  · have hgen := generationAt_destroyed halive
    have hunpack : e.unpack.index = e.index := rfl
    rw [← htable₂, hunpack, hindex, htable, Ecs.World.generationAt_createEntity] at hgen
    exact hgen

omit [∀ c, Inhabited (T c)] in
theorem Sound.generationAt_lt (hw : w.Sound) (i : Nat) :
    w.table.generationAt i < 4096 := by
  rw [generationAt_table]
  cases hr : w.records[i]? with
  | none => exact Nat.zero_lt_succ _
  | some r => exact hw.generation i r hr

/-- Often enough, for any generation. -/
theorem Sound.wear (hw : w.Sound) {rest : List Nat}
    (hf : w.freeList = i :: rest) (n : Nat) : ∃ ops log w', w.run ops = some (log, w') ∧
      w'.Sound ∧ w'.freeList = i :: rest ∧
      w'.table.generationAt i = (w.table.generationAt i + n) % 4096 := by
  induction n with
  | zero => exact ⟨[], [], w, rfl, hw, hf, (Nat.mod_eq_of_lt (hw.generationAt_lt i)).symm⟩
  | succ n ih =>
      rcases ih with ⟨ops, log, w₁, hrun, hw₁, hf₁, hgen₁⟩
      rcases hw₁.recycle hf₁ with ⟨e, log', w₂, hrun', hw₂, hf₂, hgen₂⟩
      refine ⟨_, _, w₂, run_append hrun hrun', hw₂, hf₂, ?_⟩
      rw [hgen₂]
      omega

/-- A slot is given out and freed 4096 times, and then given out once more: the first handle
    leads to the last entity. -/
theorem handle_revives : ¬ ∀ (before : List (Op fun _ => Nat)) log₀ w₀ e w ops log w',
    World.fresh.run before = some (log₀, w₀) → w₀.isAlive e = true →
    w₀.destroyEntity e = some w → w.run ops = some (log, w') → w'.Dead e := by
  intro hclaim
  obtain ⟨⟨log₀, w₀⟩, hbefore, hcell⟩ : ∃ r, (World.fresh : World fun _ => Nat).run [.create] =
      some r ∧ r.2.isAlive ⟨1⟩ = true := ⟨_, rfl, rfl⟩
  have hw₀ := run_sound Sound.fresh hbefore
  rcases hw₀.destroyEntity_eq hcell with ⟨w, hdestroy, hvacated⟩
  have hw := (hw₀.destroyEntity hdestroy).1
  have hindex : (EntityHandle.mk 1).index = 1 := by decide
  have hzero : (EntityHandle.mk 1).generation = 0 := by decide
  have hf : w.freeList = 1 :: w₀.freeList := by rw [hvacated.freeList, hindex]
  have hgen : w.table.generationAt 1 = 1 := by
    have h := (hw₀.aged hcell hdestroy).1.generation
    have hunpack : (EntityHandle.mk 1).unpack = ⟨1, 0⟩ := by decide
    rw [hunpack] at h
    exact h
  rcases hw.wear hf 4095 with ⟨ops, log, w₁, hrun, hw₁, hf₁, hgen₁⟩
  have hhead : w₁.freeList.head? = some (EntityHandle.mk 1).index := by
    rw [hf₁, List.head?_cons, hindex]
  rcases Option.isSome_iff_exists.mp (hw₁.createEntity_isSome hhead) with ⟨⟨e, w₂⟩, hcreate⟩
  have hsame : w₁.table.generationAt (EntityHandle.mk 1).index = (EntityHandle.mk 1).generation := by
    rw [hindex, hzero, hgen₁, hgen]
  have hrevived := revived_of_generation hw₁ hsame hhead hcreate
  have hlast : w₁.run [.create] = some ([.created e], w₂) := by
    rw [World.run, World.exec, hcreate]
    rfl
  have hdead := hclaim _ _ _ _ _ _ _ _ hbefore hcell hdestroy (run_append hrun hlast)
  rw [Dead, hrevived] at hdead
  exact Bool.true_eq_false.mp hdead.1

end World

end EcsStorage

end EarthRise
