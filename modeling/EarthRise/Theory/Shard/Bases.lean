import EarthRise.Theory.Shard.Restore

/-!
# Bases Stay

A base is not destroyed by play, for as long as the net ids last.

No system of a step and no call but the host's own removal takes a base away, and none
takes away a part of it, because kills spare what has a base tag, a claim takes only what
is loot, and what expires is a shot. All of them go by net id, though. The counter of net
ids has 32 bits, and it is not looked at whether an id is in use: when it comes round, a
shot that is fired takes the id of a base, and with the shot the base's id is gone.

## Main definitions

* `Same`: An entity and what is left of it.

## Theorems

* `base_stays`: A base stays under its id, with all its parts, through every call.
* `base_shot_away`: A step in which two bases go, after the ids have come round.
-/

namespace EarthRise

namespace Shard

open Ecs (World EntityHandle)
open Universe (UniversePos Vec3)

section

variable {F D : Type}

/-- An entity and what is left of it: the same, with all its parts. -/
structure Same (c c' : Components F) : Prop where
  identity : c'.identity = c.identity
  harvest : c.harvestOrder.isSome = true → c'.harvestOrder.isSome = true

theorem Same.has {c c' : Components F} (h : Same c c') (t : ComponentType)
    (ht : c.has t = true) : c'.has t = true := by
  have hid := h.identity
  unfold Components.identity at hid
  simp only [Identity.mk.injEq, List.cons.injEq, and_true] at hid
  rcases hid with ⟨_, hbase, hship, howner, hnpc, hqueue, hstorage, hloot, hshot, hhull, hcargo,
    hparts⟩
  have hdefense : c'.defense.isSome = c.defense.isSome := by
    rw [← Option.isSome_map, hhull, Option.isSome_map]
  cases t
  case harvestOrder => exact h.harvest ht
  all_goals simp_all only [Components.has]

variable {u u' : ServerUniverse F D}

theorem Same.trans (a b c : Components F) (h : Same a b) (h' : Same b c) : Same a c :=
  ⟨h'.identity.trans h.identity, h'.harvest ∘ h.harvest⟩

end

section

variable {F D : Type} [Floating F] [Floating D] [Widens F D] {u : ServerUniverse F D}

theorem step_keeps (dt : F) (u : ServerUniverse F D) :
    Keeps Same (fun _ => True) u (u.step dt) := by
  refine Keeps.weaken (fun c c' hr => ⟨hr.identity, fun hs => ?_⟩) (fun _ _ => trivial)
    (step_advances dt u)
  have hdrive := congrArg (fun d => d.2.2) hr.drive
  simp only [Components.drive] at hdrive
  rw [hdrive, hs]

/-- Every call keeps a base under its id, except the one that removes it. -/
theorem apply_keeps_base (hu : u.Sound) (o : Op F) (hw : (u.apply o).NoWrap) {n : UInt32}
    {c : Components F} (hc : u.ents.find n = some c) (hbase : c.baseTag = true)
    (ho : o ≠ .despawnBase n) : (u.apply o).ents.entityOf n = u.ents.entityOf n ∧
      ∃ c', (u.apply o).ents.find n = some c' ∧ Same c c' := by
  by_cases hstep : ∃ dt, o = .step dt
  · rcases hstep with ⟨dt, rfl⟩
    exact (step_keeps dt u).bases hu hw n c hc hbase
  · by_cases hdespawn : ∃ m, o = .despawnBase m
    · rcases hdespawn with ⟨m, rfl⟩
      have hne : n ≠ m := fun h => ho (by rw [h])
      simp only [ServerUniverse.apply]
      unfold ServerUniverse.despawnBase
      split
      · exact ⟨rfl, c, hc, rfl, id⟩
      · refine ⟨?_, c, ?_, rfl, id⟩
        · exact (Entities.entityOf_remove _ m n).trans (if_neg hne)
        · exact (hu.ents.find_remove m n).trans ((if_neg hne).trans hc)
    · have hfollows := apply_follows u o (not_exists.mp hstep) (not_exists.mp hdespawn)
      rcases hfollows.bases hu hw n c hc hbase with ⟨hn, c', hc', hkin⟩
      exact ⟨hn, c', hc', hkin.identity, hkin.harvest⟩

/-- Through all calls until the ids run out, a base stays the same entity under the same id
    and keeps all its parts, unless the host removes it. -/
theorem base_stays (hu : u.Reachable) {n : UInt32} {c : Components F}
    (hc : u.ents.find n = some c) (hbase : c.baseTag = true) (ops : List (Op F))
    (hops : .despawnBase n ∉ ops) (hw : (ops.foldl ServerUniverse.apply u).NoWrap) :
    (ops.foldl ServerUniverse.apply u).ents.entityOf n = u.ents.entityOf n ∧
      ∃ c', (ops.foldl ServerUniverse.apply u).ents.find n = some c' ∧ c'.baseTag = true ∧
        ∀ t, c.has t = true → c'.has t = true := by
  have hsound := hu.sound
  clear hu
  have hkept : (ops.foldl ServerUniverse.apply u).ents.entityOf n = u.ents.entityOf n ∧
      ∃ c', (ops.foldl ServerUniverse.apply u).ents.find n = some c' ∧ Same c c' := by
    induction ops generalizing u c with
    | nil => exact ⟨rfl, c, hc, rfl, id⟩
    | cons o ops ih =>
        have hw' : (u.apply o).NoWrap := Nat.le_trans (applyAll_counter ops (u.apply o)) hw
        have hne : o ≠ .despawnBase n := fun h => hops (by rw [h]; exact List.mem_cons_self)
        rcases apply_keeps_base hsound o hw' hc hbase hne with ⟨hn, c', hc', hsame⟩
        have hbase' : c'.baseTag = true := hsame.has .baseTag hbase
        rcases ih hc' hbase' (fun h => hops (List.mem_cons_of_mem o h)) hw
          (apply_sound o hsound hw') with ⟨hn', c'', hc'', hsame'⟩
        exact ⟨hn'.trans hn, c'', hc'', hsame.trans _ _ _ hsame'⟩
  rcases hkept with ⟨hn, c', hc', hsame⟩
  exact ⟨hn, c', hc', hsame.has .baseTag hbase, hsame.has⟩

end

/-! ## When the ids come round -/

section

variable {F : Type}

/-- A slot that is freed right after it was given out. -/
theorem destroyEntity_created {w : World (Components F)} (hw : w.Sound) (c : Components F) :
    (w.createEntity c).2.destroyEntity (w.createEntity c).1 =
      { records := (w.createEntity c).2.records.set w.newSlot
          ⟨(w.generationAt w.newSlot + 1) % Ecs.generations, none⟩
        freeList := w.newSlot :: w.freeList.tail } := by
  have hget : (w.createEntity c).2.get (w.createEntity c).1 = some c := by
    rw [hw.get_createEntity, if_pos rfl]
  rw [World.destroyEntity_of_alive (World.isAlive_iff.mpr ⟨c, hget⟩), World.createEntity_index,
    World.createEntity_generation, World.createEntity_freeList]

/-- An id that came and went is gone, and the other ids are what they were. -/
theorem insert_remove {e : Entities F} {c : Components F}
    (hnew : c.netId ∉ e.netIdToEntity.map Prod.fst) : (e.insert c).remove c.netId =
      ⟨(e.world.createEntity c).2.destroyEntity (e.world.createEntity c).1, e.netIdToEntity⟩ := by
  have hout : Assoc.erase e.netIdToEntity c.netId = e.netIdToEntity := by
    refine List.filter_eq_self.mpr fun x hx => ?_
    simp only [ne_eq, decide_eq_true_eq]
    exact fun h => hnew (h ▸ List.mem_map_of_mem hx)
  unfold Entities.remove
  rw [Entities.entityOf_insert, if_pos rfl, Option.elim_some]
  have hnames : Assoc.erase (e.insert c).netIdToEntity c.netId = e.netIdToEntity := by
    unfold Entities.insert
    simp only [hout]
    unfold Assoc.erase at hout ⊢
    rw [List.filter_cons_of_neg (by simp only [ne_eq, not_true_eq_false, decide_false,
      Bool.false_eq_true, not_false_eq_true]), hout]
  rw [hnames]
  rfl

/-- A base that comes and goes leaves the other entities alone. -/
theorem Born.come_and_go {D : Type} {u : ServerUniverse F D} {mk : UInt32 → Components F}
    (hmk : Born mk) (hnew : u.nextId ∉ u.ents.netIdToEntity.map Prod.fst) :
    ((u.spawn mk).despawnBase u.nextId).2 = { u with
      ents := ⟨(u.ents.world.createEntity (mk u.nextId)).2.destroyEntity
        (u.ents.world.createEntity (mk u.nextId)).1, u.ents.netIdToEntity⟩
      nextNetId := u.nextNetId + 1 } := by
  have hid := hmk.netId u.nextId
  have hof : (u.spawn mk).ents.entityOf u.nextId =
      some (u.ents.world.createEntity (mk u.nextId)).1 :=
    (Entities.entityOf_insert _ _ _).trans (if_pos hid.symm)
  have hremove := insert_remove (e := u.ents) (c := mk u.nextId) (by rw [hid]; exact hnew)
  rw [hid] at hremove
  unfold ServerUniverse.despawnBase
  rw [hof]
  unfold ServerUniverse.spawn
  simp only []
  rw [hremove]

end

/-- Two players, a kilometre apart. -/
def twoBases : List (Op Float32) :=
  [.spawnBase ⟨0, 0, 0⟩ Vec3.zero, .spawnBase ⟨1000, 0, 0⟩ Vec3.zero]

/-- A third one, who comes and goes. -/
def visits (k : Nat) : List (Op Float32) :=
  (List.range k).flatMap fun i =>
    [.spawnBase ⟨0, 0, 0⟩ Vec3.zero, .despawnBase (UInt32.ofNat (3 + i))]

/-- The universe of the two players. -/
def duel : ServerUniverse Float32 Float := twoBases.foldl ServerUniverse.apply .fresh

/-- The same after a number of visits. -/
def laterDuel (k : Nat) : ServerUniverse Float32 Float :=
  { duel with
    ents := ⟨⟨duel.ents.world.records ++ [⟨k % Ecs.generations, none⟩], [3]⟩,
      duel.ents.netIdToEntity⟩
    nextNetId := 3 + k }

theorem duel_shape : duel.ents.world.records.length = 3 ∧ duel.ents.world.freeList = [] ∧
    duel.ents.netIdToEntity.map Prod.fst = [2, 1] ∧ duel.nextNetId = 3 := by
  decide +kernel

/-- The null slot and the slots of the two bases are in use, so a visitor gets the fourth. -/
theorem duel_sound : duel.ents.world.Sound := by
  have hreach : duel.Reachable := reachable_applyAll .fresh twoBases (by decide +kernel)
  exact hreach.sound.ents.world

theorem visit_first :
    (duel.apply (.spawnBase ⟨0, 0, 0⟩ Vec3.zero)).apply (.despawnBase (UInt32.ofNat 3)) =
      laterDuel 1 := by
  rcases duel_shape with ⟨hlen, hfree, hkeys, hnext⟩
  have hid : duel.nextId = UInt32.ofNat 3 := by
    unfold ServerUniverse.nextId
    rw [hnext]
  have hnew : duel.nextId ∉ duel.ents.netIdToEntity.map Prod.fst := by
    rw [hid, hkeys]
    decide
  have hgone := (base_born duel ⟨0, 0, 0⟩ Vec3.zero).come_and_go hnew
  rw [hid] at hgone
  refine hgone.trans ?_
  unfold laterDuel
  have hgen : duel.ents.world.generationAt 3 = 0 := by
    unfold World.generationAt
    rw [List.getElem?_eq_none (by rw [hlen])]
    rfl
  rw [destroyEntity_created duel_sound, World.newSlot_nil hfree, World.createEntity_nil hfree,
    hfree, hnext, hlen, hgen]
  congr 4

theorem laterDuel_slot (k : Nat) :
    (laterDuel k).ents.world.records[3]? = some ⟨k % Ecs.generations, none⟩ := by
  unfold laterDuel
  simp only []
  rw [List.getElem?_append_right (by rw [duel_shape.1]), duel_shape.1]
  rfl

theorem laterDuel_sound (k : Nat) : (laterDuel k).ents.world.Sound where
  null := by
    have hnull := duel_sound.null
    unfold laterDuel World.slot at *
    simp only []
    rw [List.getElem?_append_left (by rw [duel_shape.1]; decide)]
    exact hnull
  size := by
    unfold laterDuel
    rw [List.length_append]
    exact Nat.succ_pos _
  nodup := List.nodup_singleton 3
  free := by
    intro i hi
    rw [show i = 3 from List.mem_singleton.mp hi]
    refine ⟨by decide, (List.getElem?_eq_some_iff.mp (laterDuel_slot k)).1, ?_⟩
    unfold World.slot
    rw [laterDuel_slot, Option.bind_some]

theorem visit_again {k : Nat} (hk : UInt32.ofNat (3 + k) ∉ ([2, 1] : List UInt32)) :
    ((laterDuel k).apply (.spawnBase ⟨0, 0, 0⟩ Vec3.zero)).apply
      (.despawnBase (UInt32.ofNat (3 + k))) = laterDuel (k + 1) := by
  have hnew : (laterDuel k).nextId ∉ (laterDuel k).ents.netIdToEntity.map Prod.fst := by
    unfold laterDuel
    simp only [duel_shape.2.2.1]
    exact hk
  have hgone := (base_born (laterDuel k) ⟨0, 0, 0⟩ Vec3.zero).come_and_go hnew
  refine hgone.trans ?_
  have hfree : (laterDuel k).ents.world.freeList = 3 :: [] := rfl
  have hgen : (laterDuel k).ents.world.generationAt 3 = k % Ecs.generations := by
    unfold World.generationAt
    rw [laterDuel_slot, Option.elim_some]
  rw [destroyEntity_created (laterDuel_sound k), World.newSlot_cons hfree,
    World.createEntity_cons hfree, hfree, hgen]
  unfold laterDuel
  simp only []
  rw [List.set_set, List.set_append_right _ _ (by rw [duel_shape.1]), duel_shape.1,
    Nat.mod_add_mod]
  rfl

/-- The ids of the visitors are other ones than those of the bases until they come round. -/
theorem visits_duel {k : Nat} (hpos : 1 ≤ k) (hk : k + 2 ≤ 2 ^ 32) :
    (visits k).foldl ServerUniverse.apply duel = laterDuel k := by
  induction k, hpos using Nat.le_induction with
  | base => exact visit_first
  | succ k hpos ih =>
      have hfirst : (visits k).foldl ServerUniverse.apply duel = laterDuel k := ih (by omega)
      unfold visits at hfirst ⊢
      rw [List.range_succ, List.flatMap_append, List.foldl_append, hfirst]
      refine visit_again ?_
      intro hin
      have hval : (UInt32.ofNat (3 + k)).toNat = 1 ∨ (UInt32.ofNat (3 + k)).toNat = 2 := by
        rcases List.mem_cons.mp hin with h | h
        · exact Or.inr (by rw [h]; rfl)
        · exact Or.inl (by rw [List.mem_singleton.mp h]; rfl)
      rw [UInt32.toNat_ofNat'] at hval
      omega

/-- After as many visits as there are ids, the bases fire at each other. Their shots take the
    ids of the bases, and both are gone after a single step. -/
theorem base_shot_away :
    ((visits (2 ^ 32 - 2)).foldl ServerUniverse.apply duel).ents.isBase 1 = true ∧
      (((visits (2 ^ 32 - 2)).foldl ServerUniverse.apply duel).apply (.step 1.0)).ents.find 1 =
        none := by
  rw [visits_duel (by decide) (by decide)]
  exact ⟨by decide +kernel, Option.not_isSome_iff_eq_none.mp (by decide +kernel)⟩

/-- A claim on a base, and the fight, while there are ids. -/
theorem base_stays_duel :
    ∃ c, ([.claimLoot 2 1, .step 1.0, .step 1.0].foldl ServerUniverse.apply duel).ents.find 1 =
      some c ∧ c.baseTag = true := by
  have hbase : duel.ents.isBase 1 = true := by decide +kernel
  unfold Entities.isBase at hbase
  rcases (Option.any_eq_true_iff_get _ _).mp hbase with ⟨hsome, htag⟩
  rcases base_stays (reachable_applyAll .fresh twoBases (by decide +kernel))
    (Option.some_get hsome).symm htag [.claimLoot 2 1, .step 1.0, .step 1.0]
    (by simp only [List.mem_cons, reduceCtorEq, List.not_mem_nil, or_self, not_false_eq_true])
    (by decide +kernel) with ⟨_, c, hc, hbase, _⟩
  exact ⟨c, hc, hbase⟩

end Shard

end EarthRise
