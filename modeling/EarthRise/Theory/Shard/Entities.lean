import EarthRise.Core.Shard
import EarthRise.Theory.Ecs

/-!
# Entities by Net Id

The entities of a universe as a table from net ids to components.

A sound entity store is such a table: every id in it leads to a living entity that has
the id, and every living entity is the one that its id leads to. Then spawning,
removing and changing are the operations of a table. The second half of soundness is
what breaks when an id is given out twice, since the entity that had it first is alive
and nothing leads to it.

## Main definitions

* `Entities.Sound`: The entities are the table of their net ids.
* `Entities.Evolves`: The same entities, changed.

## Theorems

* `Entities.Sound.find_insert`, `Entities.Sound.find_remove`, `Entities.Sound.find_modify`: The
  operations of the table.
* `Entities.Sound.insert`, `Entities.Sound.remove`, `Entities.Evolves.sound`: Soundness is
  kept.
* `Entities.visit_evolves`: A visit of every entity changes each one as the single visits do.
-/

namespace EarthRise

namespace Shard

open Ecs (World EntityHandle)

namespace Entities

variable {F : Type} {e e' e'' : Entities F} {n m : UInt32} {c c' : Components F}

/-- Every id leads to a living entity that has it, and every living entity is the one
    that its id leads to. -/
structure Sound (e : Entities F) : Prop where
  world : e.world.Sound
  distinct : (e.netIdToEntity.map Prod.fst).Nodup
  found : ∀ n h, e.entityOf n = some h → ∃ c, e.world.get h = some c ∧ c.netId = n
  listed : ∀ i c, e.world.slot i = some c →
    e.entityOf c.netId = some ⟨i, e.world.generationAt i⟩

theorem Sound.fresh : (Entities.fresh : Entities F).Sound where
  world := World.Sound.fresh
  distinct := List.nodup_nil
  found := fun _ _ h => absurd h (by simp only [entityOf, Entities.fresh, Assoc.lookup_nil,
    reduceCtorEq, not_false_eq_true])
  listed := by
    intro i c h
    have hlt : i < 1 := World.slot_lt h
    rw [Nat.lt_one_iff.mp hlt] at h
    exact absurd (h.symm.trans World.Sound.fresh.null)
      nofun

/-! ## Finding -/

theorem find_eq_some :
    e.find n = some c ↔ ∃ h, e.entityOf n = some h ∧ e.world.get h = some c := by
  simp only [find, Option.bind_eq_some_iff]

theorem find_of_entityOf {h : EntityHandle} (hn : e.entityOf n = some h) :
    e.find n = e.world.get h := by
  rw [find, hn, Option.bind_some]

theorem Sound.netId_of_find (he : e.Sound) (h : e.find n = some c) : c.netId = n := by
  rcases find_eq_some.mp h with ⟨hd, hn, hc⟩
  rcases he.found n hd hn with ⟨c', hc', hid⟩
  rw [hc] at hc'
  rw [Option.some.inj hc', hid]

theorem Sound.find_of_slot (he : e.Sound) {i : Nat} (h : e.world.slot i = some c) :
    e.find c.netId = some c := by
  rw [find_of_entityOf (he.listed i c h), he.world.get_slot h]

theorem mem_alive_of_find (h : e.find n = some c) : c ∈ e.world.alive := by
  rcases find_eq_some.mp h with ⟨hd, _, hc⟩
  exact World.mem_alive.mpr ⟨hd.index, World.slot_of_get hc⟩

theorem Sound.find_of_mem_alive (he : e.Sound) (h : c ∈ e.world.alive) :
    e.find c.netId = some c := by
  rcases World.mem_alive.mp h with ⟨i, hi⟩
  exact he.find_of_slot hi

/-- Two slots do not hold one id. -/
theorem Sound.slot_unique (he : e.Sound) {i j : Nat} (hi : e.world.slot i = some c)
    (hj : e.world.slot j = some c') (hid : c.netId = c'.netId) : i = j := by
  have h1 := he.listed i c hi
  have h2 := he.listed j c' hj
  rw [hid, h2, Option.some.injEq, EntityHandle.mk.injEq] at h1
  exact h1.1.symm

/-- Two ids do not lead to one entity. -/
theorem Sound.entityOf_unique (he : e.Sound) {h : EntityHandle} (hn : e.entityOf n = some h)
    (hm : e.entityOf m = some h) : n = m := by
  rcases he.found n h hn with ⟨c, hc, hid⟩
  rcases he.found m h hm with ⟨c', hc', hid'⟩
  rw [hc, Option.some.injEq] at hc'
  rw [← hid, ← hid', hc']

/-! ## The same entities, changed -/

/-- The same entities under the same ids, each one changed as `R` allows. -/
structure Evolves (R : Components F → Components F → Prop) (e e' : Entities F) : Prop where
  names : e'.netIdToEntity = e.netIdToEntity
  world : World.Evolves R e.world e'.world

section

variable {R : Components F → Components F → Prop} {f : Components F → Components F}

theorem Evolves.refl (hrefl : ∀ c, R c c) (e : Entities F) : Evolves R e e :=
  ⟨rfl, World.Evolves.refl hrefl e.world⟩

theorem Evolves.trans (htrans : ∀ a b c, R a b → R b c → R a c) (h : Evolves R e e')
    (h' : Evolves R e' e'') : Evolves R e e'' :=
  ⟨h'.names.trans h.names, h.world.trans htrans h'.world⟩

theorem Evolves.mono {S : Components F → Components F → Prop} (hRS : ∀ c c', R c c' → S c c')
    (h : Evolves R e e') : Evolves S e e' :=
  ⟨h.names, h.world.mono hRS⟩

theorem Evolves.entityOf (h : Evolves R e e') (n : UInt32) : e'.entityOf n = e.entityOf n := by
  unfold Entities.entityOf
  rw [h.names]

theorem Evolves.find (h : Evolves R e e') (n : UInt32) : Option.Rel R (e.find n) (e'.find n) := by
  unfold Entities.find
  rw [h.entityOf]
  cases e.entityOf n with
  | none => exact Option.Rel.none
  | some hd => exact h.world.get hd

/-- What an id leads to later was something before. -/
theorem Evolves.find_before (h : Evolves R e e') (hn : e'.find n = some c') :
    ∃ c, e.find n = some c ∧ R c c' := by
  have hrel := h.find n
  rw [hn] at hrel
  cases hc : e.find n with
  | none =>
      rw [hc] at hrel
      cases hrel
  | some c =>
      rw [hc] at hrel
      cases hrel with
      | some hr => exact ⟨c, rfl, hr⟩

theorem Evolves.find_after (h : Evolves R e e') (hn : e.find n = some c) :
    ∃ c', e'.find n = some c' ∧ R c c' := by
  have hrel := h.find n
  rw [hn] at hrel
  cases hc : e'.find n with
  | none =>
      rw [hc] at hrel
      cases hrel
  | some c' =>
      rw [hc] at hrel
      cases hrel with
      | some hr => exact ⟨c', rfl, hr⟩

/-- What a slot holds later it held before. -/
theorem Evolves.slot_before (h : Evolves R e e') {i : Nat} (hi : e'.world.slot i = some c') :
    ∃ c, e.world.slot i = some c ∧ R c c' := by
  have hrel := h.world.slots i
  rw [hi] at hrel
  cases hc : e.world.slot i with
  | none =>
      rw [hc] at hrel
      cases hrel
  | some c =>
      rw [hc] at hrel
      cases hrel with
      | some hr => exact ⟨c, rfl, hr⟩

/-- A store stays sound when nobody's id changes. -/
theorem Evolves.sound (hid : ∀ c c', R c c' → c'.netId = c.netId) (h : Evolves R e e')
    (he : e.Sound) : e'.Sound where
  world := h.world.sound he.world
  distinct := by rw [h.names]; exact he.distinct
  found := by
    intro n hd hn
    rw [h.entityOf] at hn
    rcases he.found n hd hn with ⟨c, hc, hcid⟩
    have hfind : e.find n = some c := by rw [find_of_entityOf hn, hc]
    rcases h.find_after hfind with ⟨c', hc', hr⟩
    refine ⟨c', ?_, (hid _ _ hr).trans hcid⟩
    rw [← hc', find_of_entityOf (by rw [h.entityOf]; exact hn)]
  listed := by
    intro i c' hi
    rcases h.slot_before hi with ⟨c, hc, hr⟩
    rw [hid _ _ hr, h.entityOf, h.world.generation]
    exact he.listed i c hc

theorem Evolves.modifyAt (hrefl : ∀ c, R c c) {i : Nat}
    (hf : ∀ c, e.world.slot i = some c → R c (f c)) : Evolves R e (e.modifyAt i f) :=
  ⟨rfl, World.Evolves.modifyAt hrefl hf⟩

theorem Evolves.modify (hrefl : ∀ c, R c c)
    (hf : ∀ c, e.find n = some c → R c (f c)) : Evolves R e (e.modify n f) := by
  unfold Entities.modify
  cases hn : e.entityOf n with
  | none => exact Evolves.refl hrefl e
  | some h =>
      refine ⟨rfl, World.Evolves.modify hrefl ?_⟩
      intro c hc
      exact hf c (by rw [find_of_entityOf hn, hc])

theorem Evolves.forEach
    (hf : ∀ c, c ∈ e.world.alive → R c (f c)) : Evolves R e (e.forEach f) :=
  ⟨rfl, World.Evolves.forEach fun i c hc => hf c (World.mem_alive.mpr ⟨i, hc⟩)⟩

/-- A visit changes every entity as the single visits do. -/
theorem visit_evolves {S : Type} (ents : S → Entities F) (hrefl : ∀ c, R c c)
    (htrans : ∀ a b c, R a b → R b c → R a c) {body : S → Nat → Components F → S}
    (hbody : ∀ s i c, (ents s).world.slot i = some c → Evolves R (ents s) (ents (body s i c)))
    (s : S) : Evolves R (ents s) (ents (Ecs.visit (fun s => (ents s).world) body s)) := by
  refine Ecs.visit_induct (P := fun s' => Evolves R (ents s) (ents s')) (Evolves.refl hrefl _) ?_
  intro s' i c hs' hc
  exact hs'.trans htrans (hbody s' i c hc)

end

/-! ## The operations of the table -/

theorem Sound.find_modify (he : e.Sound) (m : UInt32) (f : Components F → Components F)
    (n : UInt32) : (e.modify m f).find n = if n = m then (e.find n).map f else e.find n := by
  unfold Entities.modify
  cases hm : e.entityOf m with
  | none =>
      by_cases hn : n = m
      · rw [if_pos hn, hn, Entities.find, hm, Option.bind_none, Option.map_none]
      · rw [if_neg hn]
  | some h =>
      unfold Entities.find
      have hof : ({ e with world := e.world.modify h f } : Entities F).entityOf n = e.entityOf n :=
        rfl
      rw [hof]
      by_cases hn : n = m
      · rw [if_pos hn, hn, hm, Option.bind_some, Option.bind_some, World.get_modify, if_pos rfl]
      · rw [if_neg hn]
        cases hk : e.entityOf n with
        | none => rfl
        | some k =>
            have hne : k ≠ h := by
              rintro rfl
              exact hn (he.entityOf_unique hk hm)
            rw [Option.bind_some, Option.bind_some, World.get_modify, if_neg hne]

/-- A change of one entity leaves the slot of another one alone. -/
theorem slot_modify {i : Nat} (hn : e.find n = some c) (hi : e.world.slot i = some c')
    (hne : c ≠ c') (f : Components F → Components F) :
    (e.modify n f).world.slot i = some c' := by
  rcases find_eq_some.mp hn with ⟨h, hof, hget⟩
  have hother : i ≠ h.index := by
    rintro rfl
    rw [World.slot_of_get hget, Option.some.injEq] at hi
    exact hne hi
  unfold Entities.modify
  rw [hof]
  simp only [World.modify, if_pos (World.isAlive_iff.mpr ⟨c, hget⟩)]
  exact (World.slot_modifyAt e.world h.index f i).trans ((if_neg hother).trans hi)

theorem entityOf_insert (e : Entities F) (c : Components F) (n : UInt32) :
    (e.insert c).entityOf n =
      if n = c.netId then some (e.world.createEntity c).1 else e.entityOf n := by
  unfold Entities.entityOf Entities.insert
  rw [Assoc.lookup_cons, Assoc.lookup_erase]
  by_cases hn : n = c.netId
  · rw [if_pos hn.symm, if_pos hn]
  · rw [if_neg fun h => hn h.symm, if_neg hn, if_neg hn]

/-- A spawned entity is what its id leads to. -/
theorem Sound.find_insert (he : e.Sound) (c : Components F) (n : UInt32) :
    (e.insert c).find n = if n = c.netId then some c else e.find n := by
  unfold Entities.find
  rw [entityOf_insert]
  have hget := he.world.get_createEntity c
  by_cases hn : n = c.netId
  · rw [if_pos hn, if_pos hn, Option.bind_some]
    exact (hget _).trans (if_pos rfl)
  · rw [if_neg hn, if_neg hn]
    cases hk : e.entityOf n with
    | none => rfl
    | some k =>
        rw [Option.bind_some, Option.bind_some]
        refine (hget k).trans (if_neg ?_)
        -- The slot of the new entity was free.
        rintro rfl
        rcases he.found n _ hk with ⟨c', hc', _⟩
        have hslot := World.slot_of_get hc'
        rw [World.createEntity_index, he.world.newSlot_empty] at hslot
        exact absurd hslot nofun

theorem erase_distinct {l : List (UInt32 × EntityHandle)} (h : (l.map Prod.fst).Nodup)
    (n : UInt32) : ((Assoc.erase l n).map Prod.fst).Nodup :=
  h.sublist (List.Sublist.map _ List.filter_sublist)

theorem not_mem_erase (l : List (UInt32 × EntityHandle)) (n : UInt32) :
    n ∉ (Assoc.erase l n).map Prod.fst := by
  intro h
  rcases List.mem_map.mp h with ⟨x, hx, hxn⟩
  have hne := (List.mem_filter.mp hx).2
  simp only [hxn, ne_eq, not_true_eq_false, decide_false, Bool.false_eq_true] at hne

/-- Spawning under an id that nobody has keeps the store sound. -/
theorem Sound.insert (he : e.Sound) (hnew : e.find c.netId = none) : (e.insert c).Sound where
  world := he.world.createEntity c
  distinct := List.nodup_cons.mpr ⟨not_mem_erase _ _, erase_distinct he.distinct _⟩
  found := by
    intro n h hn
    rw [entityOf_insert] at hn
    by_cases hid : n = c.netId
    · rw [if_pos hid, Option.some.injEq] at hn
      exact ⟨c, (he.world.get_createEntity c h).trans (if_pos hn.symm), hid.symm⟩
    · rw [if_neg hid] at hn
      rcases he.found n h hn with ⟨c', hc', hid'⟩
      refine ⟨c', ?_, hid'⟩
      have hfind := he.find_insert c n
      rw [if_neg hid, find_of_entityOf hn, hc'] at hfind
      rw [← hfind, find_of_entityOf (by rw [entityOf_insert, if_neg hid, hn])]
  listed := by
    intro i c' hi
    have hslot := he.world.slot_createEntity c i
    rw [show (e.insert c).world = (e.world.createEntity c).2 from rfl] at hi ⊢
    rw [hslot] at hi
    rw [World.generationAt_createEntity, entityOf_insert]
    by_cases hin : i = e.world.newSlot
    · rw [if_pos hin, Option.some.injEq] at hi
      rw [if_pos (by rw [hi]), Option.some.injEq]
      refine World.handle_ext ?_ ?_
      · rw [World.createEntity_index, hin]
      · rw [World.createEntity_generation, hin]
    · rw [if_neg hin] at hi
      have hne : c'.netId ≠ c.netId := by
        intro hid
        have hfind := he.find_of_slot hi
        rw [hid, hnew] at hfind
        exact absurd hfind nofun
      rw [if_neg hne, he.listed i c' hi]

theorem entityOf_remove (e : Entities F) (m n : UInt32) :
    (e.remove m).entityOf n = if n = m then none else e.entityOf n := by
  unfold Entities.entityOf Entities.remove
  rw [Assoc.lookup_erase]

/-- A removed id leads to nothing, and the others to what they led to. -/
theorem Sound.find_remove (he : e.Sound) (m n : UInt32) :
    (e.remove m).find n = if n = m then none else e.find n := by
  unfold Entities.find
  rw [entityOf_remove]
  by_cases hn : n = m
  · rw [if_pos hn, if_pos hn, Option.bind_none]
  · rw [if_neg hn, if_neg hn]
    cases hk : e.entityOf n with
    | none => rfl
    | some k =>
        rw [Option.bind_some, Option.bind_some]
        unfold Entities.remove
        cases hm : e.entityOf m with
        | none => rfl
        | some h =>
            refine (World.get_destroyEntity e.world h k).trans (if_neg ?_)
            rintro rfl
            exact hn (he.entityOf_unique hk hm)

theorem Sound.remove (he : e.Sound) (m : UInt32) : (e.remove m).Sound where
  world := by
    unfold Entities.remove
    cases e.entityOf m with
    | none => exact he.world
    | some h => exact he.world.destroyEntity h
  distinct := erase_distinct he.distinct m
  found := by
    intro n h hn
    have hfind := he.find_remove m n
    rw [find_of_entityOf hn] at hfind
    rw [entityOf_remove] at hn
    by_cases hid : n = m
    · rw [if_pos hid] at hn
      exact absurd hn nofun
    · rw [if_neg hid] at hn hfind
      rcases he.found n h hn with ⟨c, hc, hcid⟩
      exact ⟨c, by rw [hfind, find_of_entityOf hn, hc], hcid⟩
  listed := by
    intro i c hi
    rw [entityOf_remove]
    unfold Entities.remove at hi ⊢
    cases hm : e.entityOf m with
    | none =>
        rw [hm] at hi
        have hlisted := he.listed i c hi
        have hne : c.netId ≠ m := by
          intro h
          rw [h, hm] at hlisted
          exact absurd hlisted nofun
        rw [if_neg hne]
        exact hlisted
    | some h =>
        rw [hm] at hi
        rcases he.found m h hm with ⟨d, hd, hdid⟩
        have halive : e.world.isAlive h = true := World.isAlive_iff.mpr ⟨d, hd⟩
        have hslot := World.slot_destroyEntity e.world h i
        rw [show e.world.destroyEntity h = (some h).elim e.world e.world.destroyEntity from rfl, hi]
          at hslot
        have hih : i ≠ h.index := by
          rintro rfl
          rw [if_pos ⟨halive, rfl⟩] at hslot
          exact absurd hslot nofun
        have hold : e.world.slot i = some c := by
          rw [hslot]
          exact (if_neg fun h' => hih h'.2).symm
        have hne : c.netId ≠ m := by
          intro hid
          exact hih (he.slot_unique hold (World.slot_of_get hd) (hid.trans hdid.symm))
        rw [if_neg hne, he.listed i c hold, Option.elim_some, World.generationAt_destroyEntity hih]

end Entities

end Shard

end EarthRise
