import EarthRise.Theory.Shard.Acts
import EarthRise.Theory.Shard.Restore

/-!
# What Holds of Everyone

A property of what an entity is, shown once for the spawners, holds of all the living.

No act and no deed changes what an entity is, so a property of that holds of everyone for as
long as it holds of everyone that is spawned or restored. The living are those in the slots
and not those that a net id leads to, so it does not matter here whether the ids have come
round.

## Main definitions

* `Everyone`: A property of all the living.
* `Issued`: A property that the spawners give.
* `Innate`: A property of what an entity is, that the spawners give.
* `Reached`, `Within`: The universes that a host gets to, with ids to spare or not, and those
  of runs whose calls meet a condition.
* `Proper`: What the spawners do not put together.

## Theorems

* `Everyone.acts`, `Everyone.deeds`: What single acts and deeds keep.
* `Innate.acts`, `Innate.deeds`, `Innate.apply`: What an entity is is kept.
* `Reached.everyone`: It holds in every universe that a host gets to.
* `proper_innate`.
-/

namespace EarthRise

namespace Shard

open Ecs (World EntityHandle)
open Universe (UniversePos Vec3)
open Relation (ReflTransGen)

section

variable {F : Type} {e e' : Entities F} {c : Components F}

/-! ## The living -/

theorem mem_alive_insert (he : e.world.Sound) (c c' : Components F) :
    c' ∈ (e.insert c).world.alive ↔ c' = c ∨ c' ∈ e.world.alive := by
  have hslots : ∀ i, (e.insert c).world.slot i =
      if i = e.world.newSlot then some c else e.world.slot i := he.slot_createEntity c
  rw [World.mem_alive, World.mem_alive]
  constructor
  · rintro ⟨i, hi⟩
    rw [hslots] at hi
    by_cases hnew : i = e.world.newSlot
    · rw [if_pos hnew, Option.some.injEq] at hi
      exact .inl hi.symm
    · rw [if_neg hnew] at hi
      exact .inr ⟨i, hi⟩
  · rintro (rfl | ⟨i, hi⟩)
    · exact ⟨_, (hslots _).trans (if_pos rfl)⟩
    · refine ⟨i, (hslots i).trans ((if_neg ?_).trans hi)⟩
      rintro rfl
      rw [he.newSlot_empty] at hi
      exact absurd hi nofun

theorem mem_alive_destroyEntity {w : World (Components F)} (h : EntityHandle)
    (hc : c ∈ (w.destroyEntity h).alive) : c ∈ w.alive := by
  rcases World.mem_alive.mp hc with ⟨i, hi⟩
  rw [World.slot_destroyEntity] at hi
  split at hi
  · exact absurd hi nofun
  · exact World.mem_alive.mpr ⟨i, hi⟩

theorem mem_alive_remove (n : UInt32) (hc : c ∈ (e.remove n).world.alive) : c ∈ e.world.alive := by
  unfold Entities.remove at hc
  cases hn : e.entityOf n with
  | none =>
      rw [hn] at hc
      exact hc
  | some h =>
      rw [hn] at hc
      exact mem_alive_destroyEntity h hc

theorem remove_world_sound (he : e.world.Sound) (n : UInt32) : (e.remove n).world.Sound := by
  unfold Entities.remove
  cases e.entityOf n with
  | none => exact he
  | some h => exact he.destroyEntity h

theorem mem_alive_evolves {R : Components F → Components F → Prop}
    (h : Entities.Evolves R e e') {c' : Components F} (hc : c' ∈ e'.world.alive) :
    ∃ c ∈ e.world.alive, R c c' := by
  rcases World.mem_alive.mp hc with ⟨i, hi⟩
  rcases h.slot_before hi with ⟨c, hc, hr⟩
  exact ⟨c, World.mem_alive.mpr ⟨i, hc⟩, hr⟩

end

section

variable {F D : Type}

/-! ## A property of everyone -/

/-- A property of all the living, in a store whose slots are in order. -/
structure Everyone (P : Components F → Prop) (u : ServerUniverse F D) : Prop where
  world : u.ents.world.Sound
  every : ∀ c ∈ u.ents.world.alive, P c

variable {P : Components F → Prop} {u u' : ServerUniverse F D}

theorem Everyone.find (h : Everyone P u) {n : UInt32} {c : Components F}
    (hc : u.ents.find n = some c) : P c :=
  h.every c (Entities.mem_alive_of_find hc)

theorem Everyone.of_eq (h : Everyone P u) (hents : u'.ents = u.ents) : Everyone P u' :=
  ⟨hents ▸ h.world, hents ▸ h.every⟩

theorem Everyone.evolves {R : Components F → Components F → Prop}
    (hP : ∀ c c', R c c' → P c → P c') (h : Everyone P u)
    (hents : Entities.Evolves R u.ents u'.ents) : Everyone P u' := by
  refine ⟨hents.world.sound h.world, fun c' hc' => ?_⟩
  rcases mem_alive_evolves hents hc' with ⟨c, hc, hr⟩
  exact hP c c' hr (h.every c hc)

theorem Everyone.remove (h : Everyone P u) {n : UInt32} (hents : u'.ents = u.ents.remove n) :
    Everyone P u' := by
  refine ⟨hents ▸ remove_world_sound h.world n, fun c hc => h.every c ?_⟩
  rw [hents] at hc
  exact mem_alive_remove n hc

theorem Everyone.insert (h : Everyone P u) {c : Components F} (hc : P c)
    (hents : u'.ents = u.ents.insert c) : Everyone P u' := by
  refine ⟨hents ▸ h.world.createEntity c, fun c' hc' => ?_⟩
  rw [hents, mem_alive_insert h.world] at hc'
  rcases hc' with rfl | hc'
  · exact hc
  · exact h.every c' hc'

theorem Everyone.foldl {α : Type} {f : ServerUniverse F D → α → ServerUniverse F D}
    (hf : ∀ u a, Everyone P u → Everyone P (f u a)) (l : List α) (h : Everyone P u) :
    Everyone P (l.foldl f u) := by
  induction l generalizing u with
  | nil => exact h
  | cons a l ih => exact ih (hf u a h)

theorem Everyone.destroyUnit (h : Everyone P u) (n : UInt32) : Everyone P (u.destroyUnit n) :=
  h.remove (destroyUnit_ents u n)

end

section

variable {F D : Type} [Floating F] [Floating D] [Widens F D] {P : Components F → Prop}
  {u u' v : ServerUniverse F D} {x : Effect} {b d g : Bool}

/-- The spawners give a property. -/
def Issued (D : Type) [Floating D] [Widens F D] (P : Components F → Prop) : Prop :=
  ∀ (u : ServerUniverse F D) mk, Issue u mk → ∀ n, P (mk n)

namespace Everyone

theorem spawn (hP : Issued D P) (h : Everyone P u) {mk : UInt32 → Components F}
    (hmk : Issue u mk) : Everyone P (u.spawn mk) :=
  h.insert (hP u mk hmk _) rfl

omit [Floating F] [Floating D] [Widens F D] in
theorem modify (h : Everyone P u) {n : UInt32} {f : Components F → Components F}
    (hf : ∀ c, u.ents.find n = some c → P c → P (f c)) : Everyone P (u.modify n f) := by
  have hents : Entities.Evolves (fun c c' => P c → P c') u.ents (u.modify n f).ents :=
    Entities.Evolves.modify (R := fun c c' => P c → P c') (fun _ => id) hf
  exact h.evolves (fun _ _ hr => hr) hents

omit [Floating F] [Floating D] [Widens F D] in
theorem modifyAt (h : Everyone P u) {i : Nat} {f : Components F → Components F}
    (hf : ∀ c, u.ents.world.slot i = some c → P c → P (f c)) :
    Everyone P { u with ents := u.ents.modifyAt i f } := by
  have hents : Entities.Evolves (fun c c' => P c → P c') u.ents (u.ents.modifyAt i f) :=
    Entities.Evolves.modifyAt (R := fun c c' => P c → P c') (fun _ => id) hf
  exact h.evolves (fun _ _ hr => hr) hents

theorem spawnLoot (hP : Issued D P) (h : Everyone P u) (victim : UInt32) :
    Everyone P (u.spawnLoot victim) := by
  unfold ServerUniverse.spawnLoot
  split
  · exact h
  · exact (h.spawn hP (.loot _)).of_eq rfl

theorem processKill (hP : Issued D P) (h : Everyone P u) (k : Hit F) :
    Everyone P (u.processKill k) := by
  unfold ServerUniverse.processKill
  split
  · exact h
  · split
    · exact h
    · unfold ServerUniverse.onUnitKilled
      split
      · exact h
      · rename_i c hc
        split
        · exact h
        · have hrecorded : Everyone P (u.recordKill c k.victim k.killer) := h.of_eq rfl
          refine Everyone.destroyUnit ?_ _
          split
          · exact hrecorded.spawnLoot hP _
          · exact hrecorded

theorem deliver (hP : Issued D P) (h : Everyone P u) (done : UInt32 × UniversePos) :
    Everyone P (u.deliver done) := by
  have hship : Everyone P (u.spawnFleetShip done.1 shipShapeId done.2).2 := by
    unfold ServerUniverse.spawnFleetShip ServerUniverse.spawnFleetShipFit
    split
    · exact h
    · exact h.spawn hP (.ship _ _ _ _)
  unfold ServerUniverse.deliver
  simp only []
  split
  · exact hship.of_eq rfl
  · exact hship

/-- What is kept by systems with an effect is kept by their acts. -/
theorem act (hP : Issued D P) (hsteady : ∀ c c', Steady x c c' → P c → P c') (h : Everyone P u)
    (ha : Act x u u') : Everyone P u' := by
  cases ha with
  | change hents => exact h.evolves hsteady hents
  | shoot p _ => exact h.spawn hP (.shot p)
  | kill k _ => exact h.processKill hP k
  | expire l _ _ => exact Everyone.foldl (fun u n hu => hu.destroyUnit n) l h
  | deliver done _ => exact h.deliver hP done
  | record econ alerts time tick => exact h.of_eq rfl

theorem acts (hP : Issued D P) (hsteady : ∀ c c', Steady x c c' → P c → P c') (h : Everyone P u)
    (ha : Acts x u u') : Everyone P u' := by
  induction ha with
  | refl => exact h
  | tail _ hlast ih => exact ih.act hP hsteady hlast

omit [Floating D] [Widens F D] in
theorem claimLoot (hload : ∀ c cargo, c.cargo.isSome = true → P c → P { c with cargo := some cargo })
    (h : Everyone P u) (claimer container : UInt32) :
    Everyone P (u.claimLoot claimer container).2 := by
  unfold ServerUniverse.claimLoot
  split
  · rename_i lc cg hlc hcg
    simp only []
    have hloaded : Everyone P (u.modify claimer fun c =>
        { c with cargo := some (ServerUniverse.takeLoot ResourceType.all cg lc.items 0).1 }) := by
      refine h.modify fun c hc => hload c _ ?_
      rw [hc, Option.bind_some] at hcg
      rw [hcg, Option.isSome_some]
    exact (hloaded.destroyUnit container).of_eq rfl
  · exact h

/-- What orders and a change of cargo keep is kept by deeds. -/
theorem deed (hP : Issued D P) (htold : ∀ c c', Told d c c' → P c → P c')
    (hload : ∀ c cargo, c.cargo.isSome = true → P c → P { c with cargo := some cargo })
    (h : Everyone P u) (hd : Deed b d g u u') : Everyone P u' := by
  cases hd with
  | tell n hf => exact h.modify fun c hc => htold c _ (hf c hc)
  | configure hents _ _ _ _ _ _ => exact h.of_eq hents
  | drain => exact h.of_eq rfl
  | spawn hmk _ _ _ => exact h.spawn hP hmk
  | site center count radius fitName =>
      unfold ServerUniverse.spawnNpcSite
      simp only []
      refine Everyone.foldl (fun v i hv => hv.spawn hP (.guardian _ _ _)) _ ?_
      exact h.of_eq rfl
  | claim claimer container => exact h.claimLoot hload claimer container
  | despawn n =>
      unfold ServerUniverse.despawnBase
      split
      · exact h
      · exact h.remove rfl

theorem deeds (hP : Issued D P) (htold : ∀ c c', Told d c c' → P c → P c')
    (hload : ∀ c cargo, c.cargo.isSome = true → P c → P { c with cargo := some cargo })
    (h : Everyone P u) (hd : Deeds b d g u u') : Everyone P u' := by
  induction hd with
  | refl => exact h
  | tail _ hlast ih => exact ih.deed hP htold hload hlast

end Everyone

/-- A property of what an entity is, that the spawners give. -/
structure Innate (D : Type) [Floating D] [Widens F D] (P : Components F → Prop) : Prop where
  identity : ∀ c c' : Components F, c'.identity = c.identity → P c → P c'
  issue : Issued D P

namespace Innate

theorem acts (hP : Innate D P) (h : Everyone P u) (ha : Acts x u u') : Everyone P u' :=
  h.acts hP.issue (fun c c' hr => hP.identity c c' hr.identity) ha

theorem deeds (hP : Innate D P) (h : Everyone P u) (hd : Deeds b d g u u') : Everyone P u' := by
  refine h.deeds hP.issue (fun c c' hr => hP.identity c c' hr.identity) (fun c cargo hc => ?_) hd
  refine hP.identity c _ ?_
  unfold Components.identity
  rw [hc, Option.isSome_some]

theorem apply (hP : Innate D P) (h : Everyone P u) (o : Op F) : Everyone P (u.apply o) := by
  by_cases hstep : ∃ dt, o = .step dt
  · rcases hstep with ⟨dt, rfl⟩
    exact hP.acts h (step_acts dt u)
  · exact hP.deeds h (apply_deeds u o (not_exists.mp hstep))

end Innate

/-! ## Everyone in a universe that a host gets to -/

/-- The universes that a host gets to, whether or not the net ids have come round. -/
inductive Reached : ServerUniverse F D → Prop
  | fresh : Reached .fresh
  | apply {u : ServerUniverse F D} (o : Op F) : Reached u → Reached (u.apply o)
  | restore {u v : ServerUniverse F D} (order : List EntityHandle) :
      Reached u → Reached v → order.Perm v.handles →
        Reached (v.restoreState order u.captureState)

theorem Reached.applyAll (h : Reached u) (ops : List (Op F)) :
    Reached (ops.foldl ServerUniverse.apply u) := by
  induction ops generalizing u with
  | nil => exact h
  | cons o ops ih => exact ih (h.apply o)

omit [Floating F] [Floating D] [Widens F D] in
theorem wipe_everyone (h : Everyone P v) (order : List EntityHandle) :
    (ServerUniverse.wipe v.ents order).world.Sound ∧
      ∀ c ∈ (ServerUniverse.wipe v.ents order).world.alive, P c := by
  refine ⟨destroyAll_sound order h.world, ?_⟩
  have hall : ∀ (l : List EntityHandle) (w : World (Components F)), (∀ c ∈ w.alive, P c) →
      ∀ c ∈ (l.foldl World.destroyEntity w).alive, P c := by
    intro l
    induction l with
    | nil => exact fun w hw => hw
    | cons k l ih => exact fun w hw => ih _ fun c hc => hw c (mem_alive_destroyEntity k hc)
  exact hall order _ h.every

omit [Widens F D] in
theorem restoreState_everyone (h : Everyone P v) (order : List EntityHandle)
    {s : PersistState F} (hs : ∀ c ∈ v.restored s, P c) : Everyone P (v.restoreState order s) := by
  have hall : ∀ (l : List (Components F)) (e : Entities F), e.world.Sound →
      (∀ c ∈ e.world.alive, P c) → (∀ c ∈ l, P c) →
      (l.foldl Entities.insert e).world.Sound ∧
        ∀ c ∈ (l.foldl Entities.insert e).world.alive, P c := by
    intro l
    induction l with
    | nil => exact fun e he hP _ => ⟨he, hP⟩
    | cons c l ih =>
        intro e he hP hl
        refine ih (e.insert c) (he.createEntity c) ?_ fun d hd => hl d (List.mem_cons_of_mem c hd)
        intro c' hc'
        rcases (mem_alive_insert he c c').mp hc' with rfl | hc'
        · exact hl c' List.mem_cons_self
        · exact hP c' hc'
  rcases wipe_everyone h order with ⟨hworld, hevery⟩
  rcases hall (v.restored s) _ hworld hevery hs with ⟨hworld', hevery'⟩
  exact ⟨hworld', hevery'⟩

/-- The universes that a host gets to with calls that meet one condition and restarts that meet
    another. -/
inductive Within (G : ServerUniverse F D → Op F → Prop)
    (R : ServerUniverse F D → ServerUniverse F D → Prop) : ServerUniverse F D → Prop
  | fresh : Within G R .fresh
  | apply {u : ServerUniverse F D} (o : Op F) : Within G R u → G u o → Within G R (u.apply o)
  | restore {u v : ServerUniverse F D} (order : List EntityHandle) :
      Within G R u → Within G R v → R u v → order.Perm v.handles →
        Within G R (v.restoreState order u.captureState)

/-- An innate property that restored entities have holds of everyone. -/
theorem Reached.everyone (hP : Innate D P)
    (hrestored : ∀ (v : ServerUniverse F D) s, ∀ c ∈ v.restored s, P c) (h : Reached u) :
    Everyone P u := by
  induction h with
  | fresh =>
      refine ⟨World.Sound.fresh, fun c hc => ?_⟩
      exact absurd hc List.not_mem_nil
  | apply o _ ih => exact hP.apply ih o
  | restore order _ _ _ _ ihv => exact restoreState_everyone ihv order (hrestored _ _)

/-! ## What is not put together -/

/-- Loot is nobody's and has nothing else; a node, a ship's cargo and a base's storage are
    not together; and only an owner with a storage builds. -/
structure Proper (c : Components F) : Prop where
  loot : c.loot.isSome = true → c.ownerId = none ∧ c.cargo.isSome = false ∧
    c.storage.isSome = false ∧ c.resourceNode.isSome = false
  node : c.resourceNode.isSome = true → c.cargo.isSome = false ∧ c.storage.isSome = false
  cargo : c.cargo.isSome = true → c.storage.isSome = false
  queue : c.buildQueue.isSome = true → c.storage.isSome = true ∧ c.ownerId.isSome = true

omit [Floating F] in
theorem Proper.of_identity {c c' : Components F} (h : c'.identity = c.identity) (hc : Proper c) :
    Proper c' := by
  unfold Components.identity at h
  simp only [Identity.mk.injEq, List.cons.injEq, and_true] at h
  rcases h with ⟨_, _, _, howner, _, hqueue, hstorage, hloot, _, _, hcargo, _, hparts⟩
  rcases hparts with ⟨_, _, _, _, hnode, _⟩
  refine ⟨?_, ?_, ?_, ?_⟩
  · rw [hloot, howner, hcargo, hstorage, hnode]
    exact hc.loot
  · rw [hnode, hcargo, hstorage]
    exact hc.node
  · rw [hcargo, hstorage]
    exact hc.cargo
  · rw [hqueue, hstorage, howner]
    exact hc.queue

theorem proper_fit {c : Components F} (h : Proper c) (hull : HullClass F)
    (mods : List (ModuleDef F)) : Proper (installFitDirect c hull mods) :=
  ⟨h.loot, h.node, h.cargo, h.queue⟩

omit [Floating F] in
/-- What holds nothing and does not build. -/
theorem proper_of_empty {c : Components F} (hloot : c.loot = none) (hnode : c.resourceNode = none)
    (hcargo : c.cargo = none) (hqueue : c.buildQueue = none) : Proper c := by
  refine ⟨?_, ?_, ?_, ?_⟩
  · rw [hloot]
    exact fun h => absurd h Bool.false_ne_true
  · rw [hnode]
    exact fun h => absurd h Bool.false_ne_true
  · rw [hcargo]
    exact fun h => absurd h Bool.false_ne_true
  · rw [hqueue]
    exact fun h => absurd h Bool.false_ne_true

omit [Floating F] in
/-- A ship, with cargo and nothing else that holds. -/
theorem proper_of_cargo {c : Components F} (hloot : c.loot = none) (hnode : c.resourceNode = none)
    (hstorage : c.storage = none) (hqueue : c.buildQueue = none) : Proper c := by
  refine ⟨?_, ?_, fun _ => ?_, ?_⟩
  · rw [hloot]
    exact fun h => absurd h Bool.false_ne_true
  · rw [hnode]
    exact fun h => absurd h Bool.false_ne_true
  · rw [hstorage]
    rfl
  · rw [hqueue]
    exact fun h => absurd h Bool.false_ne_true

omit [Floating F] in
/-- A base, with a storage and nothing else that holds. -/
theorem proper_of_storage {c : Components F} (hloot : c.loot = none) (hnode : c.resourceNode = none)
    (hcargo : c.cargo = none) (hstorage : c.storage.isSome = true)
    (howner : c.ownerId.isSome = true) : Proper c := by
  refine ⟨?_, ?_, ?_, fun _ => ⟨hstorage, howner⟩⟩
  · rw [hloot]
    exact fun h => absurd h Bool.false_ne_true
  · rw [hnode]
    exact fun h => absurd h Bool.false_ne_true
  · rw [hcargo]
    exact fun h => absurd h Bool.false_ne_true

omit [Floating D] in
theorem proper_issue {mk : UInt32 → Components F} (h : Issue u mk) (n : UInt32) :
    Proper (mk n) := by
  cases h with
  | prop shapeId pos => exact proper_of_empty rfl rfl rfl rfl
  | node type yield pos =>
      exact ⟨fun h => absurd h Bool.false_ne_true, fun _ => ⟨rfl, rfl⟩,
        fun h => absurd h Bool.false_ne_true, fun h => absurd h Bool.false_ne_true⟩
  | beacon bi pos => exact proper_of_empty rfl rfl rfl rfl
  | base start vel =>
      have hbase : Proper (u.baseComponents start vel n) := proper_of_storage rfl rfl rfl rfl rfl
      exact installFitGetD_induct hbase (proper_fit hbase) _
  | ship player shapeId pos fitName =>
      have hship : Proper (u.shipComponents player shapeId pos n) :=
        proper_of_cargo rfl rfl rfl rfl
      exact installFitOr_induct hship (proper_fit hship) _ _
  | guardian pos siteId fitName =>
      have hnpc : Proper (ServerUniverse.npcComponents (F := F) pos n) :=
        proper_of_empty rfl rfl rfl rfl
      have hfitted : Proper (installFitOr u.combat (ServerUniverse.npcComponents pos n) fitName
          npcFit) := installFitOr_induct hnpc (proper_fit hnpc) fitName npcFit
      exact ⟨hfitted.loot, hfitted.node, hfitted.cargo, hfitted.queue⟩
  | shot p => exact proper_of_empty rfl rfl rfl rfl
  | loot c =>
      exact ⟨fun _ => ⟨rfl, rfl, rfl, rfl⟩, fun h => absurd h Bool.false_ne_true,
        fun h => absurd h Bool.false_ne_true, fun h => absurd h Bool.false_ne_true⟩

theorem proper_innate : Innate D (Proper (F := F)) :=
  ⟨fun _ _ h => Proper.of_identity h, fun _ _ h n => proper_issue h n⟩

omit [Floating D] [Widens F D] in
/-- What is restored is put together as what was captured. -/
theorem restored_proper (v : ServerUniverse F D) (s : PersistState F) :
    ∀ c ∈ v.restored s, Proper c := by
  have hhealth : ∀ (c : Components F) health, Proper c → Proper { c with health := health } :=
    fun c health h => ⟨h.loot, h.node, h.cargo, h.queue⟩
  refine forall_restored (fun b _ => ?_) (fun sh _ => ?_) fun p _ => ?_
  · unfold ServerUniverse.restoreBase
    simp only []
    refine hhealth _ _ (installFitGetD_induct ?_ (fun _ _ => proper_fit ?_ _ _) _)
    · exact proper_of_storage rfl rfl rfl rfl rfl
    · exact proper_of_storage rfl rfl rfl rfl rfl
  · unfold ServerUniverse.restoreShip
    simp only []
    refine hhealth _ _ (installFitGetD_induct ?_ (fun _ _ => proper_fit ?_ _ _) _)
    · exact proper_of_cargo rfl rfl rfl rfl
    · exact proper_of_cargo rfl rfl rfl rfl
  · have hnpc : Proper (ServerUniverse.npcComponents (F := F) p.pos p.netId) :=
      proper_of_empty rfl rfl rfl rfl
    have hfitted : Proper ((installFit v.combat (ServerUniverse.npcComponents p.pos p.netId)
        npcFit).getD (ServerUniverse.npcComponents p.pos p.netId)) :=
      installFitGetD_induct hnpc (proper_fit hnpc) npcFit
    exact ⟨hfitted.loot, hfitted.node, hfitted.cargo, hfitted.queue⟩

theorem Reached.proper (h : Reached u) : Everyone Proper u :=
  h.everyone proper_innate restored_proper

end

end Shard

end EarthRise
