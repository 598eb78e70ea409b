import EarthRise.Theory.Shard.Calls

/-!
# A Restored Universe

Nothing is lost in a universe that was restored from the snapshot of another one.

Restoring destroys all that is there, so it starts from an empty table, and inserts one
entity for each base, ship and NPC of the snapshot. In a sound universe a base is no ship
and a ship that is captured is no NPC, so the ids of a snapshot are all different and
nobody's id is given out twice. With the calls this makes every universe that a host gets
to a sound one.

## Main definitions

* `PersistState.ids`: The ids of a snapshot.

## Theorems

* `wipe_sound`, `wipe_find`: The empty table.
* `insertAll_sound`, `find_insertAll`: Inserting entities with different ids.
* `captured_ids_nodup`: The ids of a snapshot are different.
* `restoreState_sound`: The restored universe is sound.
* `Reachable.sound`: So is every universe that a host gets to.
* `reachable_applyAll`: Calls lead a host on.
-/

namespace EarthRise

namespace Shard

open Ecs (World EntityHandle)
open Universe (UniversePos Vec3)

section

variable {F : Type} {e : Entities F}

/-! ## The empty table -/

/-- A handle that was destroyed leads to nothing, and the others to what they led to. -/
theorem get_destroyAll {C : Type} (l : List EntityHandle) (w : World C) (h : EntityHandle) :
    (l.foldl World.destroyEntity w).get h = if h ∈ l then none else w.get h := by
  induction l generalizing w with
  | nil => rw [List.foldl_nil, if_neg List.not_mem_nil]
  | cons k l ih =>
      rw [List.foldl_cons, ih, World.get_destroyEntity]
      by_cases hl : h ∈ l
      · rw [if_pos hl, if_pos (List.mem_cons_of_mem k hl)]
      · rw [if_neg hl]
        by_cases hk : h = k
        · rw [if_pos hk, if_pos (by rw [hk]; exact List.mem_cons_self)]
        · rw [if_neg hk, if_neg (by rw [List.mem_cons, not_or]; exact ⟨hk, hl⟩)]

theorem destroyAll_sound {C : Type} (l : List EntityHandle) {w : World C} (hw : w.Sound) :
    (l.foldl World.destroyEntity w).Sound := by
  induction l generalizing w with
  | nil => exact hw
  | cons k l ih => exact ih (hw.destroyEntity k)

/-- Every entity has been destroyed. -/
theorem wipe_slot (he : e.Sound) {order : List EntityHandle}
    (horder : order.Perm (e.netIdToEntity.map Prod.snd)) (i : Nat) :
    (ServerUniverse.wipe e order).world.slot i = none := by
  cases hslot : (ServerUniverse.wipe e order).world.slot i with
  | none => rfl
  | some c =>
      have hget := (destroyAll_sound order he.world).get_slot hslot
      rw [get_destroyAll] at hget
      by_cases hin : (⟨i, (order.foldl World.destroyEntity e.world).generationAt i⟩ : EntityHandle)
          ∈ order
      · rw [if_pos hin] at hget
        exact absurd hget nofun
      · rw [if_neg hin] at hget
        -- The handle is one that an id leads to.
        have hlisted := he.listed i c (World.slot_of_get hget)
        have hgen := (World.generation_of_get hget).2
        rw [show e.world.generationAt i = _ from hgen] at hlisted
        refine absurd (horder.mem_iff.mpr ?_) hin
        exact List.mem_map.mpr ⟨_, Assoc.mem_of_lookup hlisted, rfl⟩

theorem wipe_find (order : List EntityHandle) (n : UInt32) :
    (ServerUniverse.wipe e order).find n = none := rfl

theorem wipe_sound (he : e.Sound) {order : List EntityHandle}
    (horder : order.Perm (e.netIdToEntity.map Prod.snd)) :
    (ServerUniverse.wipe e order).Sound where
  world := destroyAll_sound order he.world
  distinct := List.nodup_nil
  found := fun _ _ h => absurd h (by simp only [Entities.entityOf, ServerUniverse.wipe,
    Assoc.lookup_nil, reduceCtorEq, not_false_eq_true])
  listed := by
    intro i c h
    rw [wipe_slot he horder] at h
    cases h

/-! ## Inserting entities -/

/-- Entities whose ids are different and nobody's are inserted as they are. -/
theorem insertAll_sound (l : List (Components F)) (he : e.Sound)
    (hnodup : (l.map Components.netId).Nodup) (hnew : ∀ c ∈ l, e.find c.netId = none) :
    (l.foldl Entities.insert e).Sound := by
  induction l generalizing e with
  | nil => exact he
  | cons c l ih =>
      rw [List.map_cons, List.nodup_cons] at hnodup
      refine ih (he.insert (hnew c List.mem_cons_self)) hnodup.2 ?_
      intro d hd
      rw [he.find_insert, if_neg, hnew d (List.mem_cons_of_mem c hd)]
      intro hid
      exact hnodup.1 (hid ▸ List.mem_map_of_mem hd)

theorem find_insertAll (l : List (Components F)) (he : e.Sound)
    (hnodup : (l.map Components.netId).Nodup) (hnew : ∀ c ∈ l, e.find c.netId = none)
    (n : UInt32) (c : Components F) : (l.foldl Entities.insert e).find n = some c ↔
      e.find n = some c ∨ (c ∈ l ∧ c.netId = n) := by
  induction l generalizing e with
  | nil =>
      rw [List.foldl_nil]
      exact ⟨Or.inl, fun h => h.resolve_right fun h => List.not_mem_nil h.1⟩
  | cons d l ih =>
      have hdistinct := List.nodup_cons.mp (List.map_cons ▸ hnodup)
      have hlater : ∀ c ∈ l, (e.insert d).find c.netId = none := by
        intro c hc
        rw [he.find_insert, if_neg, hnew c (List.mem_cons_of_mem d hc)]
        intro hid
        exact hdistinct.1 (hid ▸ List.mem_map_of_mem hc)
      rw [List.foldl_cons, ih (he.insert (hnew d List.mem_cons_self)) hdistinct.2 hlater,
        he.find_insert, List.mem_cons]
      by_cases hn : n = d.netId
      · rw [if_pos hn, Option.some.injEq]
        have hfree : e.find n = none := hn ▸ hnew d List.mem_cons_self
        rw [hfree]
        constructor
        · rintro (rfl | ⟨hc, hid⟩)
          · exact Or.inr ⟨Or.inl rfl, hn.symm⟩
          · exact Or.inr ⟨Or.inr hc, hid⟩
        · rintro (h | ⟨rfl | hc, hid⟩)
          · exact absurd h nofun
          · exact Or.inl rfl
          · exact Or.inr ⟨hc, hid⟩
      · rw [if_neg hn]
        constructor
        · rintro (h | ⟨hc, hid⟩)
          · exact Or.inl h
          · exact Or.inr ⟨Or.inr hc, hid⟩
        · rintro (h | ⟨rfl | hc, hid⟩)
          · exact Or.inl h
          · exact absurd hid.symm hn
          · exact Or.inr ⟨hc, hid⟩

/-- The living have different ids. -/
theorem alive_ids_nodup (he : e.Sound) : (e.world.alive.map Components.netId).Nodup := by
  unfold World.alive List.Nodup
  rw [List.pairwise_map, List.pairwise_filterMap, List.pairwise_iff_getElem]
  intro i j hi hj hij c hc c' hc' hid
  have hslot : e.world.slot i = some c :=
    World.slot_eq_some.mpr ⟨_, List.getElem?_eq_getElem hi, hc⟩
  have hslot' : e.world.slot j = some c' :=
    World.slot_eq_some.mpr ⟨_, List.getElem?_eq_getElem hj, hc'⟩
  exact Nat.ne_of_lt hij (he.slot_unique hslot hslot' hid)

end

section

variable {F D : Type} [Floating F] {u v : ServerUniverse F D} {c : Components F} {b : PersistBase F}

/-! ## The ids of a snapshot -/

/-- The ids of a snapshot, in the order in which they are restored. -/
def PersistState.ids (s : PersistState F) : List UInt32 :=
  s.bases.map PersistBase.netId ++ s.ships.map PersistShip.netId ++ s.npcs.map PersistNpc.netId

omit [Floating F] in
theorem part_of_alive (hu : u.Sound) (hc : c ∈ u.ents.world.alive)
    {α : Type} (f : Components F → Option α) : u.part c.netId f = f c := by
  unfold ServerUniverse.part
  rw [hu.ents.find_of_mem_alive hc, Option.bind_some]

/-- A base of the snapshot is a base of the universe. -/
theorem mem_captured_bases (hb : b ∈ u.captureState.bases) :
    ∃ c ∈ u.ents.world.alive, c.baseTag = true ∧ b = u.captureBase c := by
  rcases List.mem_map.mp hb with ⟨c, hc, rfl⟩
  rcases List.mem_filter.mp hc with ⟨hc, hbase⟩
  exact ⟨c, hc, hbase, rfl⟩

theorem captureShip_eq_some {s : PersistShip F}
    (h : u.captureShip c = some s) : c.shipTag.isSome = true ∧ s.netId = c.netId ∧
      (u.part c.netId Components.npcAi).isSome = false := by
  unfold ServerUniverse.captureShip at h
  split at h
  · exact absurd h nofun
  · rename_i shipType htype
    split at h
    · exact absurd h nofun
    · rename_i hnpc
      rw [Option.some.injEq] at h
      exact ⟨by rw [htype]; rfl, by rw [← h], (Bool.not_eq_true _).mp hnpc⟩

omit [Floating F] in
theorem captureNpc_eq_some {n : PersistNpc} (h : u.captureNpc c = some n) :
    c.npcAi.isSome = true ∧ n.netId = c.netId := by
  unfold ServerUniverse.captureNpc at h
  split at h
  · exact absurd h nofun
  · rename_i ai hai
    rw [Option.some.injEq] at h
    exact ⟨by rw [hai]; rfl, by rw [← h]⟩

theorem captured_bases_ids (u : ServerUniverse F D) :
    u.captureState.bases.map PersistBase.netId =
      (u.ents.world.alive.filter Components.baseTag).map Components.netId := by
  unfold ServerUniverse.captureState
  rw [List.map_map]
  rfl

/-- A part of a list, taken with a name, has the names of that part in order. -/
theorem names_sublist {α β : Type} {name : α → UInt32} {name' : β → UInt32} {f : α → Option β}
    (hf : ∀ a b, f a = some b → name' b = name a) (l : List α) :
    ((l.filterMap f).map name').Sublist (l.map name) := by
  induction l with
  | nil => exact List.Sublist.slnil
  | cons a l ih =>
      cases hfa : f a with
      | none =>
          rw [List.filterMap_cons_none hfa, List.map_cons]
          exact ih.cons _
      | some b =>
          rw [List.filterMap_cons_some hfa, List.map_cons, List.map_cons, hf a b hfa]
          exact ih.cons_cons _

theorem captured_ids_nodup (hu : u.Sound) : u.captureState.ids.Nodup := by
  have halive := alive_ids_nodup hu.ents
  have hsame : ∀ c ∈ u.ents.world.alive, ∀ c' ∈ u.ents.world.alive, c.netId = c'.netId → c = c' := by
    intro c hc c' hc' hid
    have hfind := hu.ents.find_of_mem_alive hc
    rw [hid, hu.ents.find_of_mem_alive hc', Option.some.injEq] at hfind
    exact hfind.symm
  have hshape : ∀ c ∈ u.ents.world.alive, Shaped c := fun c hc =>
    hu.shaped c.netId c (hu.ents.find_of_mem_alive hc)
  have hship : ∀ n ∈ u.captureState.ships.map PersistShip.netId, ∃ c ∈ u.ents.world.alive,
      c.netId = n ∧ c.shipTag.isSome = true ∧ c.npcAi.isSome = false := by
    intro n hn
    rcases List.mem_map.mp hn with ⟨s, hs, rfl⟩
    rcases List.mem_filterMap.mp hs with ⟨c, hc, hcap⟩
    rcases captureShip_eq_some hcap with ⟨htag, hid, hnpc⟩
    rw [part_of_alive hu hc] at hnpc
    exact ⟨c, hc, hid.symm, htag, hnpc⟩
  have hnpc : ∀ n ∈ u.captureState.npcs.map PersistNpc.netId, ∃ c ∈ u.ents.world.alive,
      c.netId = n ∧ c.npcAi.isSome = true := by
    intro n hn
    rcases List.mem_map.mp hn with ⟨p, hp, rfl⟩
    rcases List.mem_filterMap.mp hp with ⟨c, hc, hcap⟩
    rcases captureNpc_eq_some hcap with ⟨hai, hid⟩
    exact ⟨c, hc, hid.symm, hai⟩
  unfold PersistState.ids
  rw [captured_bases_ids, List.append_assoc, List.nodup_append, List.nodup_append]
  refine ⟨halive.sublist (List.Sublist.map _ List.filter_sublist), ⟨?_, ?_, ?_⟩, ?_⟩
  · exact halive.sublist (names_sublist (fun c s h => (captureShip_eq_some h).2.1) _)
  · exact halive.sublist (names_sublist (fun c n h => (captureNpc_eq_some h).2) _)
  · -- A ship of the snapshot is no NPC.
    rintro n hn m hm rfl
    rcases hship n hn with ⟨c, hc, hid, _, hno⟩
    rcases hnpc n hm with ⟨c', hc', hid', hai⟩
    rw [← hsame c hc c' hc' (hid.trans hid'.symm), hno] at hai
    exact absurd hai Bool.false_ne_true
  · -- A base is neither.
    rintro n hn m hm rfl
    rcases List.mem_map.mp hn with ⟨c, hc, hid⟩
    rcases List.mem_filter.mp hc with ⟨hc, hbase⟩
    rcases List.mem_append.mp hm with hm | hm
    · rcases hship n hm with ⟨c', hc', hid', htag, _⟩
      rw [← hsame c hc c' hc' (hid.trans hid'.symm), (hshape c hc).ship hbase] at htag
      exact absurd htag Bool.false_ne_true
    · rcases hnpc n hm with ⟨c', hc', hid', hai⟩
      rw [← hsame c hc c' hc' (hid.trans hid'.symm), (hshape c hc).npc hbase] at hai
      exact absurd hai Bool.false_ne_true

/-! ## The restored entities -/

theorem restoreBase_netId (v : ServerUniverse F D) (builds : List (PersistBuild F))
    (b : PersistBase F) : (v.restoreBase builds b).netId = b.netId := by
  unfold ServerUniverse.restoreBase
  simp only []
  exact installFitGetD_induct (P := fun c => c.netId = b.netId) rfl (fun _ _ => rfl) baseFit

theorem restoreShip_netId (v : ServerUniverse F D) (s : PersistShip F) :
    (v.restoreShip s).netId = s.netId := by
  unfold ServerUniverse.restoreShip
  simp only []
  exact installFitGetD_induct (P := fun c => c.netId = s.netId) rfl (fun _ _ => rfl) _

theorem restoreNpc_netId (v : ServerUniverse F D) (n : PersistNpc) :
    (v.restoreNpc n).netId = n.netId := by
  unfold ServerUniverse.restoreNpc
  simp only []
  exact installFitGetD_induct (P := fun c => c.netId = n.netId) rfl (fun _ _ => rfl) _

theorem restored_ids (v : ServerUniverse F D) (s : PersistState F) :
    (v.restored s).map Components.netId = s.ids := by
  unfold ServerUniverse.restored PersistState.ids
  rw [List.map_append, List.map_append, List.map_map, List.map_map, List.map_map]
  congr 1
  · congr 1
    · exact List.map_congr_left fun b _ => restoreBase_netId v s.builds b
    · exact List.map_congr_left fun sh _ => restoreShip_netId v sh
  · exact List.map_congr_left fun n _ => restoreNpc_netId v n

omit [Floating F] in
/-- New hit points leave an entity shaped as it was. -/
theorem shaped_health (h : Shaped c) (health : Option Health) :
    Shaped { c with health := health } :=
  ⟨h.owner, h.ship, h.npc, h.loot, h.shot, h.storage, h.queue⟩

/-- A base is restored as its own owner, which it was when it was captured. -/
theorem restoreBase_shaped (v : ServerUniverse F D) (builds : List (PersistBuild F))
    (hb : b.ownerAccount.toUInt32 = b.netId) :
    Shaped (v.restoreBase builds b) := by
  unfold ServerUniverse.restoreBase
  simp only []
  refine shaped_health ?_ _
  have hown : ∀ c : Components F, c.baseTag = true → c.ownerId = some b.ownerAccount.toUInt32 →
      c.netId = b.netId → c.shipTag = none → c.npcAi = none → c.loot = none →
      c.projectile = none → c.storage.isSome = true → Shaped c := by
    intro c hbase howner hid hship hnpc hloot hshot hstorage
    refine ⟨fun _ => ?_, fun _ => hship, fun _ => ?_, fun _ => ?_, fun _ => ?_, fun _ => hstorage,
      fun _ => hbase⟩
    · rw [howner, hb, hid]
    · rw [hnpc]
      rfl
    · rw [hloot]
      rfl
    · rw [hshot]
      rfl
  exact installFitGetD_induct (hown _ rfl rfl rfl rfl rfl rfl rfl rfl)
    (installFitDirect_shaped (hown _ rfl rfl rfl rfl rfl rfl rfl rfl)) baseFit

theorem restoreShip_shaped (v : ServerUniverse F D) (s : PersistShip F) :
    Shaped (v.restoreShip s) := by
  unfold ServerUniverse.restoreShip
  simp only []
  refine shaped_health ?_ _
  exact installFitGetD_induct (Shaped.of_not_base rfl rfl)
    (installFitDirect_shaped (Shaped.of_not_base rfl rfl)) _

theorem restoreNpc_shaped (v : ServerUniverse F D) (n : PersistNpc) : Shaped (v.restoreNpc n) := by
  unfold ServerUniverse.restoreNpc
  simp only []
  refine Shaped.of_not_base ?_ ?_
  · exact installFitGetD_induct (P := fun c => c.baseTag = false) rfl (fun _ _ => rfl) _
  · exact installFitGetD_induct (P := fun c => c.buildQueue = none) rfl (fun _ _ => rfl) _

theorem captured_owner (hu : u.Sound) (hb : b ∈ u.captureState.bases) :
    b.ownerAccount.toUInt32 = b.netId := by
  rcases mem_captured_bases hb with ⟨c, hc, hbase, rfl⟩
  have howner := (hu.shaped c.netId c (hu.ents.find_of_mem_alive hc)).owner hbase
  show ((u.part c.netId Components.ownerId).getD 0).toUInt64.toUInt32 = c.netId
  rw [part_of_alive hu hc, howner, Option.getD_some]
  exact UInt32.toUInt32_toUInt64 c.netId

/-- What holds of every base, ship and guardian that is restored. -/
theorem forall_restored {P : Components F → Prop} {s : PersistState F}
    (hbase : ∀ b ∈ s.bases, P (v.restoreBase s.builds b))
    (hship : ∀ sh ∈ s.ships, P (v.restoreShip sh)) (hnpc : ∀ n ∈ s.npcs, P (v.restoreNpc n)) :
    ∀ c ∈ v.restored s, P c := by
  unfold ServerUniverse.restored
  simp only [List.forall_mem_append, List.forall_mem_map]
  exact ⟨⟨hbase, hship⟩, hnpc⟩

theorem restored_shaped (hu : u.Sound) : ∀ c ∈ v.restored u.captureState, Shaped c :=
  forall_restored (fun _ hb => restoreBase_shaped v _ (captured_owner hu hb))
    (fun s _ => restoreShip_shaped v s) fun n _ => restoreNpc_shaped v n

/-! ## The restored universe -/

theorem le_max_of_le {n m k : UInt32} (h : n ≤ m ∨ n ≤ k) : n ≤ max m k := by
  have hmax : max m k = if m ≤ k then k else m := rfl
  rw [hmax]
  split
  · rename_i hmk
    exact h.elim (fun h => UInt32.le_trans h hmk) id
  · rename_i hmk
    exact h.elim id fun h => UInt32.le_trans h (UInt32.le_of_lt (UInt32.not_le.mp hmk))

theorem le_foldl_max (l : List UInt32) (m n : UInt32) (h : n ∈ l ∨ n ≤ m) : n ≤ l.foldl max m := by
  induction l generalizing m with
  | nil => exact h.resolve_left List.not_mem_nil
  | cons k l ih =>
      rw [List.foldl_cons]
      refine ih (max m k) ?_
      rcases h with h | h
      · rcases List.mem_cons.mp h with rfl | h
        · exact Or.inr (le_max_of_le (Or.inr (UInt32.le_refl n)))
        · exact Or.inl h
      · exact Or.inr (le_max_of_le (Or.inl h))

omit [Floating F] in
theorem le_maxNetId {s : PersistState F} {n : UInt32} (h : n ∈ s.ids) :
    n ≤ ServerUniverse.maxNetId s :=
  le_foldl_max s.ids 0 n (Or.inl h)

end

section

variable {F D : Type} [Floating F] [Floating D] {u v : ServerUniverse F D}

/-- What an id leads to after a restore. -/
theorem find_restoreState (hu : u.Sound) (hv : v.Sound) {order : List EntityHandle}
    (horder : order.Perm v.handles) (n : UInt32) (c : Components F) :
    (v.restoreState order u.captureState).ents.find n = some c ↔
      c ∈ v.restored u.captureState ∧ c.netId = n := by
  have hnodup : ((v.restored u.captureState).map Components.netId).Nodup := by
    rw [restored_ids]
    exact captured_ids_nodup hu
  have hfind := find_insertAll (v.restored u.captureState) (wipe_sound hv.ents horder) hnodup
    (fun c _ => wipe_find order c.netId) n c
  refine hfind.trans ?_
  rw [wipe_find]
  exact ⟨fun h => h.resolve_left nofun, Or.inr⟩

theorem restoreState_sound (hu : u.Sound) (hv : v.Sound) {order : List EntityHandle}
    (horder : order.Perm v.handles) : (v.restoreState order u.captureState).Sound where
  ents := by
    refine insertAll_sound (v.restored u.captureState) (wipe_sound hv.ents horder) ?_
      fun c _ => wipe_find order c.netId
    rw [restored_ids]
    exact captured_ids_nodup hu
  below := by
    intro n c hc
    rcases (find_restoreState hu hv horder n c).mp hc with ⟨hmem, rfl⟩
    have hid : c.netId ∈ (v.restored u.captureState).map Components.netId :=
      List.mem_map_of_mem hmem
    rw [restored_ids] at hid
    exact Nat.lt_succ_of_le (UInt32.le_iff_toNat_le.mp (le_maxNetId hid))
  shaped := by
    intro n c hc
    exact restored_shaped hu c ((find_restoreState hu hv horder n c).mp hc).1

theorem restoreState_noWrap (v : ServerUniverse F D) (order : List EntityHandle)
    (s : PersistState F) : (v.restoreState order s).NoWrap :=
  (ServerUniverse.maxNetId s).toNat_lt

theorem fresh_sound : (ServerUniverse.fresh : ServerUniverse F D).Sound where
  ents := Entities.Sound.fresh
  below := fun _ _ h => absurd h (by simp only [Entities.find, Entities.entityOf,
    ServerUniverse.fresh, Entities.fresh, Assoc.lookup_nil, Option.bind_none, reduceCtorEq,
    not_false_eq_true])
  shaped := fun _ _ h => absurd h (by simp only [Entities.find, Entities.entityOf,
    ServerUniverse.fresh, Entities.fresh, Assoc.lookup_nil, Option.bind_none, reduceCtorEq,
    not_false_eq_true])

end

section

variable {F D : Type} [Floating F] [Floating D] [Widens F D] {u : ServerUniverse F D}

/-- Nothing is lost in a universe that a host gets to. -/
theorem ServerUniverse.Reachable.sound (h : u.Reachable) : u.Sound := by
  induction h with
  | fresh => exact fresh_sound
  | apply o _ hw ih => exact apply_sound o ih hw
  | restore order _ _ horder ihu ihv => exact restoreState_sound ihu ihv horder

theorem applyAll_counter (ops : List (Op F)) (u : ServerUniverse F D) :
    u.nextNetId ≤ (ops.foldl ServerUniverse.apply u).nextNetId := by
  induction ops generalizing u with
  | nil => exact Nat.le_refl _
  | cons o ops ih => exact Nat.le_trans (apply_counter u o) (ih (u.apply o))

theorem reachable_applyAll (hu : u.Reachable) (ops : List (Op F))
    (hw : (ops.foldl ServerUniverse.apply u).NoWrap) :
    (ops.foldl ServerUniverse.apply u).Reachable := by
  induction ops generalizing u with
  | nil => exact hu
  | cons o ops ih => exact ih (hu.apply o (Nat.le_trans (applyAll_counter ops (u.apply o)) hw)) hw

end

end Shard

end EarthRise
