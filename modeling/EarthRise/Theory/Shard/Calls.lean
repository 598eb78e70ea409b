import EarthRise.Theory.Shard.Step

/-!
# The Calls of a Host

What becomes of a universe when its host spawns, commands, takes what happened out and
removes bases.

A call between two steps leaves every entity what it is: it gives orders, sets journeys
and builds going and moves loot into ships, and it takes no hull points. What it adds was
not there before. What it removes is a loot container that was claimed, and a base where
the host asks for that; there is no other way for a base to go.

## Main definitions

* `Kin`: An entity and what a call makes of it.
* `Follows`: A universe and what a call makes of it.

## Theorems

* `claimLoot_follows`, `applyFleetCommand_follows`, `loadUniverse_follows` and others: One
  for each call that is not a step.
* `apply_sound`, `apply_counter`: A call keeps a universe sound, and the counter only goes up.
-/

namespace EarthRise

namespace Shard

open Universe (UniversePos Vec3)

section

variable {F D : Type}

/-- An entity and what a call makes of it. -/
structure Kin (c c' : Components F) : Prop where
  identity : c'.identity = c.identity
  standing : c.Standing → c'.Standing
  harvest : c.harvestOrder.isSome = true → c'.harvestOrder.isSome = true

theorem Kin.refl (c : Components F) : Kin c c := ⟨rfl, id, id⟩

theorem kin_lawful : Lawful (F := F) Kin Components.Standing where
  refl := Kin.refl
  trans := fun _ _ _ h h' =>
    ⟨h'.identity.trans h.identity, h'.standing ∘ h.standing, h'.harvest ∘ h.harvest⟩
  identity := fun _ _ h => h.identity
  new := fun _ _ hs h => h.standing hs
  standing := fun _ h => h

/-- A universe and what a call makes of it. -/
abbrev Follows (u u' : ServerUniverse F D) : Prop := Keeps Kin Components.Standing u u'

variable {u u' u'' : ServerUniverse F D}

theorem Follows.refl (u : ServerUniverse F D) : Follows u u := kin_lawful.keeps_of_eq rfl rfl

theorem Follows.trans (h : Follows u u') (h' : Follows u' u'') : Follows u u'' :=
  Keeps.trans kin_lawful h h'

theorem modify_follows {n : UInt32} {f : Components F → Components F}
    (hf : ∀ c, u.ents.find n = some c → Kin c (f c)) : Follows u (u.modify n f) :=
  kin_lawful.keeps_of_evolves (Entities.Evolves.modify Kin.refl hf) rfl

theorem follows_of_eq (hents : u'.ents = u.ents) (hcount : u'.nextNetId = u.nextNetId) :
    Follows u u' :=
  kin_lawful.keeps_of_eq hents hcount

theorem follows_foldl {α : Type} {f : ServerUniverse F D → α → ServerUniverse F D}
    (hf : ∀ u a, Follows u (f u a)) (l : List α) (u : ServerUniverse F D) :
    Follows u (l.foldl f u) :=
  kin_lawful.keeps_foldl hf l u

theorem destroyUnit_follows (u : ServerUniverse F D) (n : UInt32)
    (hbase : u.Sound → ∀ c, u.ents.find n = some c → c.baseTag = false) :
    Follows u (u.destroyUnit n) :=
  kin_lawful.destroyUnit_keeps u n hbase

/-- Systems that take no hull points leave kin. -/
theorem Advances.follows {x : Effect} (hx : x.harms = false) (h : Advances x u u') :
    Follows u u' := by
  refine Keeps.weaken (fun c c' hr => ⟨hr.identity, hr.hull hx, fun hs => ?_⟩) (fun _ hs => hs hx) h
  have hdrive := congrArg (fun d => d.2.2) hr.drive
  simp only [Components.drive] at hdrive
  rw [hdrive, hs]

theorem kin_of_parts {c c' : Components F} (hid : c'.identity = c.identity)
    (hdefense : c'.defense = c.defense)
    (hharvest : c'.harvestOrder.isSome = c.harvestOrder.isSome) : Kin c c' := by
  refine ⟨hid, ?_, fun h => hharvest.trans h⟩
  unfold Components.Standing
  rw [hdefense]
  exact id

end

section

variable {F D : Type} [Floating F]

/-! ## Spawning -/

theorem spawnResourceNode_follows (u : ServerUniverse F D) (type : ResourceType) (yield : F)
    (pos : UniversePos) : Follows u (u.spawnResourceNode type yield pos) :=
  Born.spawn_keeps (thing_born (fun _ => rfl) (fun _ => rfl) (fun _ => rfl) fun _ => rfl)
    kin_lawful u

theorem spawnProp_follows (u : ServerUniverse F D) (shapeId : UInt16) (pos : UniversePos) :
    Follows u (u.spawnProp shapeId pos) :=
  Born.spawn_keeps (thing_born (fun _ => rfl) (fun _ => rfl) (fun _ => rfl) fun _ => rfl)
    kin_lawful u

theorem spawnBeacon_follows (u : ServerUniverse F D) (bi : UInt16) (b : BeaconDef) :
    Follows u (u.spawnBeacon bi b) := by
  have hborn : Born fun netId => { Components.bare (F := F) netId b.pos
      ⟨beaconShapeId, .structure'⟩ with beaconTag := some bi } :=
    thing_born (fun _ => rfl) (fun _ => rfl) (fun _ => rfl) fun _ => rfl
  exact (hborn.spawn_keeps kin_lawful u).trans kin_lawful (follows_of_eq rfl rfl)

/-! ## Orders -/

omit [Floating F] in
theorem orderHarvest_follows (u : ServerUniverse F D) (ship node : UInt32) :
    Follows u (u.orderHarvest ship node).2 := by
  unfold ServerUniverse.orderHarvest
  split
  · exact Follows.refl u
  · split
    · exact Follows.refl u
    · split
      · exact modify_follows fun c _ => ⟨rfl, id, fun _ => rfl⟩
      · exact Follows.refl u

theorem stopMotion_kin (c : Components F) : Kin c (ServerUniverse.stopMotion c) := by
  refine kin_of_parts ?_ rfl rfl
  unfold Components.identity ServerUniverse.stopMotion
  rw [Option.isSome_map]

omit [Floating F] in
theorem idleHarvest_kin (c : Components F) : Kin c (ServerUniverse.idleHarvest c) := by
  refine kin_of_parts rfl rfl ?_
  unfold ServerUniverse.idleHarvest
  rw [Option.isSome_map]

omit [Floating F] in
/-- A journey may be set where there is one. -/
theorem navState_kin {c : Components F} (nav : NavState F) (h : c.navState.isSome = true) :
    Kin c { c with navState := some nav } := by
  refine kin_of_parts ?_ rfl rfl
  unfold Components.identity
  rw [h, Option.isSome_some]

omit [Floating F] in
theorem fleetOrder_kin {c : Components F} (fo : FleetOrder F) (h : c.fleetOrder.isSome = true) :
    Kin c { c with fleetOrder := some fo } := by
  refine kin_of_parts ?_ rfl rfl
  unfold Components.identity
  rw [h, Option.isSome_some]

/-- A warp is refused and nothing changes, or an idle unit sets out. -/
theorem beginWarpTo_cases (u : ServerUniverse F D) (n : UInt32) (dest : UniversePos) :
    u.beginWarpTo n dest = (false, u) ∨ ∃ c nav speed, u.ents.find n = some c ∧
      c.navState = some nav ∧ nav.phase = .idle ∧ u.beginWarpTo n dest = (true, u.modify n fun c =>
        { ServerUniverse.stopMotion c with
          navState := some (beginWarp nav dest speed u.nav.warpAlignSeconds) }) := by
  unfold ServerUniverse.beginWarpTo
  split
  · exact Or.inl rfl
  · rename_i nav hnav
    split
    · exact Or.inl rfl
    · rename_i hidle
      rcases Option.bind_eq_some_iff.mp hnav with ⟨c, hc, hn⟩
      exact Or.inr ⟨c, nav, _, hc, hn, Decidable.not_not.mp hidle, rfl⟩

theorem beginWarpTo_follows (u : ServerUniverse F D) (netId : UInt32) (dest : UniversePos) :
    Follows u (u.beginWarpTo netId dest).2 := by
  rcases beginWarpTo_cases u netId dest with h | ⟨c, nav, speed, hc, hnav, _, h⟩
  · rw [h]
    exact Follows.refl u
  · rw [h]
    refine modify_follows fun c' hc' => ?_
    rw [hc, Option.some.injEq] at hc'
    rw [← hc']
    refine kin_lawful.trans _ _ _ (stopMotion_kin c) (navState_kin _ ?_)
    unfold ServerUniverse.stopMotion
    rw [hnav, Option.isSome_some]

omit [Floating F] in
theorem interdict_follows (u : ServerUniverse F D) (netId : UInt32) :
    Follows u (u.interdict netId) := by
  refine modify_follows fun c _ => kin_of_parts ?_ rfl rfl
  unfold Components.identity
  rw [Option.isSome_map]

theorem enqueueBuild_follows (u : ServerUniverse F D) (netId : UInt32) :
    Follows u (u.enqueueBuild netId).2 := by
  unfold ServerUniverse.enqueueBuild
  split
  · exact Follows.refl u
  · rename_i q hq
    split
    · exact Follows.refl u
    · refine modify_follows fun c hc => kin_of_parts ?_ rfl rfl
      rw [hc, Option.bind_some] at hq
      unfold Components.identity
      rw [hq, Option.isSome_some, Option.isSome_some]

omit [Floating F] in
theorem pushOrder_follows (u : ServerUniverse F D) (unitNet : UInt32) (entry : FleetOrderEntry F)
    (queue : Bool) : Follows u (u.pushOrder unitNet entry queue).2 := by
  unfold ServerUniverse.pushOrder
  split
  · exact Follows.refl u
  · rename_i fo hfo
    have hsome : ∀ c, u.ents.find unitNet = some c → c.fleetOrder.isSome = true := by
      intro c hc
      rw [hc, Option.bind_some] at hfo
      rw [hfo, Option.isSome_some]
    split
    · exact modify_follows fun c hc => fleetOrder_kin _ (hsome c hc)
    · exact modify_follows fun c hc =>
        kin_lawful.trans _ _ _ (idleHarvest_kin c) (fleetOrder_kin _ (hsome c hc))

theorem clearOrders_follows (u : ServerUniverse F D) (unitNet : UInt32) :
    Follows u (u.clearOrders unitNet) := by
  have hfleet : ∀ c : Components F, Kin c { c with fleetOrder := c.fleetOrder.map fun _ => .initial } := by
    intro c
    refine kin_of_parts ?_ rfl rfl
    unfold Components.identity
    rw [Option.isSome_map]
  exact modify_follows fun c _ => kin_lawful.trans _ _ _ (idleHarvest_kin c)
    (kin_lawful.trans _ _ _ (stopMotion_kin _) (hfleet _))

omit [Floating F] in
theorem pushStance_follows (u : ServerUniverse F D) (unitNet : UInt32) (type : OrderType)
    (cmd : FleetCommand F) : Follows u (u.pushStance unitNet type cmd).2 := by
  unfold ServerUniverse.pushStance
  split
  · exact Follows.refl u
  · exact pushOrder_follows u _ _ _

/-! ## Loot -/

/-- A container is no base, so claiming it removes none. -/
theorem claimLoot_follows (u : ServerUniverse F D) (claimer container : UInt32) :
    Follows u (u.claimLoot claimer container).2 := by
  unfold ServerUniverse.claimLoot
  split
  · rename_i lc cg hlc hcg
    simp only []
    have hload : ∀ c, u.ents.find claimer = some c → Kin c
        { c with cargo := some (ServerUniverse.takeLoot ResourceType.all cg lc.items 0).1 } := by
      intro c hc
      refine kin_of_parts ?_ rfl rfl
      rw [hc, Option.bind_some] at hcg
      unfold Components.identity
      rw [hcg, Option.isSome_some, Option.isSome_some]
    have hclaimed : Follows u ((u.modify claimer fun c =>
        { c with cargo := some (ServerUniverse.takeLoot ResourceType.all cg lc.items 0).1 }).destroyUnit
          container) := by
      refine (modify_follows hload).trans (destroyUnit_follows _ _ fun hv c hc => ?_)
      cases hbase : c.baseTag with
      | false => rfl
      | true =>
          -- The container was one before its loot went into the ship.
          have hnot := (hv.shaped _ c hc).loot hbase
          rcases (Entities.Evolves.modify Kin.refl hload).find_before hc with ⟨c₀, hc₀, hkin⟩
          have hloot := congrArg Identity.isLoot hkin.identity
          simp only [Components.identity] at hloot
          rw [hc₀, Option.bind_some] at hlc
          rw [hnot, hlc, Option.isSome_some] at hloot
          exact absurd hloot Bool.false_ne_true
    exact hclaimed.trans (follows_of_eq rfl rfl)
  · exact Follows.refl u

end

section

variable {F D : Type} [Floating F] [Floating D] [Widens F D]

/-! ## Sites, maps and jumps -/

theorem spawnNpcSite_follows (u : ServerUniverse F D) (center : UniversePos) (count : Int)
    (radius : F) (fitName : String) : Follows u (u.spawnNpcSite center count radius fitName) := by
  unfold ServerUniverse.spawnNpcSite
  simp only []
  refine Follows.trans ?_ (follows_foldl ?_ _ _)
  · exact follows_of_eq rfl rfl
  intro v i
  exact (npc_born v.combat _ _ fitName).spawn_keeps kin_lawful v

theorem spawnField_follows (u : ServerUniverse F D) (f : ResourceFieldDef F) :
    Follows u (u.spawnField f) := by
  unfold ServerUniverse.spawnField
  refine follows_foldl ?_ _ _
  intro v i
  exact spawnResourceNode_follows v _ _ _

theorem loadUniverse_follows (u : ServerUniverse F D) (data : UniverseDataset F) :
    Follows u (u.loadUniverse data) := by
  unfold ServerUniverse.loadUniverse
  simp only []
  refine Follows.trans (Follows.trans ?_ (follows_foldl ?_ _ _)) (follows_foldl ?_ _ _)
  · exact follows_of_eq rfl rfl
  · intro v b
    exact spawnBeacon_follows v _ _
  · intro v f
    exact spawnField_follows v f

omit [Floating D] [Widens F D] in
/-- A jump is granted to an idle unit. -/
theorem idle_of_ready {nav : NavState F} {fuel : Fuel F} {cost : F}
    (h : checkJumpReady nav fuel cost = .accepted) : nav.phase = .idle := by
  unfold checkJumpReady at h
  split at h
  · exact absurd h nofun
  · rename_i hidle
    exact Decidable.not_not.mp hidle

/-- A jump is refused and nothing changes, or an idle unit spools for the place of the beacon. -/
theorem beginJumpTo_cases (u : ServerUniverse F D) (n : UInt32) (dest : String) :
    ((u.beginJumpTo n dest).1 ≠ .accepted ∧ (u.beginJumpTo n dest).2 = u) ∨
    ∃ c nav fuel i b cost spool, u.ents.find n = some c ∧ c.navState = some nav ∧
      c.fuel = some fuel ∧ nav.phase = .idle ∧ Assoc.lookup u.beaconName dest = some i ∧
      u.dataset.beacons[i.toNat]? = some b ∧
      u.beginJumpTo n dest = (.accepted, u.modify n fun c =>
        { ServerUniverse.stopMotion c with
          fuel := some { fuel with current := fuel.current - cost }
          navState := some (beginJump nav b.pos i spool) }) := by
  have hrefused : ∀ reject, reject ≠ JumpReject.accepted →
      ((reject, u) : JumpReject × ServerUniverse F D).1 ≠ .accepted ∧
        ((reject, u) : JumpReject × ServerUniverse F D).2 = u := fun _ h => ⟨h, rfl⟩
  unfold ServerUniverse.beginJumpTo
  split
  · exact Or.inl (hrefused _ (by decide))
  · rename_i c hc
    split
    · rename_i nav fuel hnav hfuel
      split
      · exact Or.inl (hrefused _ (by decide))
      · rename_i i hi
        split
        · exact Or.inl (hrefused _ (by decide))
        · split
          · rename_i src b hsrc hb
            split
            · exact Or.inl (hrefused _ (by decide))
            · simp only []
              generalize (if c.baseTag = true then u.nav.jumpFuelBase else u.nav.jumpFuelShip) = cost
              split
              · rename_i hready
                exact Or.inl (hrefused _ hready)
              · rename_i hready
                exact Or.inr ⟨c, nav, fuel, i, b, cost, _, hc, hnav, hfuel,
                  idle_of_ready (Decidable.not_not.mp hready), hi, hb, rfl⟩
          · exact Or.inl (hrefused _ (by decide))
    · exact Or.inl (hrefused _ (by decide))

theorem beginJumpTo_follows (u : ServerUniverse F D) (netId : UInt32) (destBeacon : String) :
    Follows u (u.beginJumpTo netId destBeacon).2 := by
  rcases beginJumpTo_cases u netId destBeacon with
    ⟨_, h⟩ | ⟨c, nav, fuel, i, b, cost, spool, hc, hnav, hfuel, _, _, _, h⟩
  · rw [h]
    exact Follows.refl u
  · rw [h]
    refine modify_follows fun c' hc' => ?_
    rw [hc, Option.some.injEq] at hc'
    rw [← hc']
    refine kin_lawful.trans _ _ _ (stopMotion_kin c) (kin_of_parts ?_ rfl rfl)
    unfold Components.identity ServerUniverse.stopMotion
    rw [hnav, hfuel]
    rfl

/-! ## Commands -/

theorem applyIntentToUnit_follows (u : ServerUniverse F D) (unitNet : UInt32)
    (cmd : FleetCommand F) : Follows u (u.applyIntentToUnit unitNet cmd).2 := by
  unfold ServerUniverse.applyIntentToUnit
  split
  · exact clearOrders_follows u _
  · exact orderHarvest_follows u _ _
  · exact beginWarpTo_follows u _ _
  · exact beginJumpTo_follows u _ _
  · exact enqueueBuild_follows u _
  · exact claimLoot_follows u _ _
  · exact pushOrder_follows u _ _ _
  · -- A retreat is a move to the owner's base.
    split
    · exact Follows.refl u
    · split
      · exact Follows.refl u
      · exact pushOrder_follows u _ _ _
  · exact pushStance_follows u _ _ _
  · exact pushStance_follows u _ _ _
  · exact pushStance_follows u _ _ _
  · exact pushStance_follows u _ _ _
  · exact Follows.refl u

/-- What an intent keeps, a command keeps. -/
theorem applyFleetCommand_keeps {P : ServerUniverse F D → Prop} (player : UInt32)
    (cmd : FleetCommand F) (hintent : ∀ v n, P v → P (v.applyIntentToUnit n cmd).2)
    (u : ServerUniverse F D) (hu : P u) : P (u.applyFleetCommand player cmd).2 := by
  unfold ServerUniverse.applyFleetCommand
  refine List.foldlRecOn (motive := fun r : Nat × ServerUniverse F D => P r.2) cmd.units _ hu
    fun r hr n _ => ?_
  split
  · exact hintent r.2 n hr
  · exact hr

theorem applyFleetCommand_follows (u : ServerUniverse F D) (player : UInt32)
    (cmd : FleetCommand F) : Follows u (u.applyFleetCommand player cmd).2 :=
  applyFleetCommand_keeps player cmd
    (fun v n hv => hv.trans (applyIntentToUnit_follows v n cmd)) u (Follows.refl u)

/-- Every call but a step and the removal of a base. -/
theorem apply_follows (u : ServerUniverse F D) (o : Op F) (hstep : ∀ dt, o ≠ .step dt)
    (hdespawn : ∀ n, o ≠ .despawnBase n) : Follows u (u.apply o) := by
  cases o with
  | spawnBase start vel => exact (base_born u start vel).spawn_keeps kin_lawful u
  | spawnProp shapeId pos => exact spawnProp_follows u shapeId pos
  | spawnResourceNode type yield pos => exact spawnResourceNode_follows u type yield pos
  | spawnFleetShip player shapeId pos fitName =>
      exact Advances.follows rfl (spawnFleetShipFit_advances .none u player shapeId pos fitName)
  | spawnNpcSite center count radius fitName => exact spawnNpcSite_follows u _ _ _ _
  | loadUniverse data => exact loadUniverse_follows u data
  | loadCombat catalog => exact follows_of_eq rfl rfl
  | setProjectileSubSteps n => exact follows_of_eq rfl rfl
  | setBaseRetreatHullFrac f => exact follows_of_eq rfl rfl
  | setBaseRetreatSeconds s => exact follows_of_eq rfl rfl
  | setCombatEnabled on => exact follows_of_eq rfl rfl
  | beginWarpTo netId dest => exact beginWarpTo_follows u netId dest
  | beginJumpTo netId beacon => exact beginJumpTo_follows u netId beacon
  | interdict netId => exact interdict_follows u netId
  | enqueueBuild netId => exact enqueueBuild_follows u netId
  | orderHarvest ship node => exact orderHarvest_follows u ship node
  | applyFleetCommand player cmd => exact applyFleetCommand_follows u player cmd
  | claimLoot claimer container => exact claimLoot_follows u claimer container
  | despawnBase n => exact absurd rfl (hdespawn n)
  | drain feed => cases feed <;> exact follows_of_eq rfl rfl
  | step dt => exact absurd rfl (hstep dt)

/-! ## Any call -/

omit [Floating F] [Floating D] [Widens F D] in
/-- The removal of a base leaves the others alone. -/
theorem despawnBase_grows (u : ServerUniverse F D) (n : UInt32) :
    Grows Kin Components.Standing u (u.despawnBase n).2 := by
  unfold ServerUniverse.despawnBase
  split
  · exact (Follows.refl u).toGrows
  · exact grows_of_remove Kin.refl rfl rfl

theorem apply_counter (u : ServerUniverse F D) (o : Op F) : u.nextNetId ≤ (u.apply o).nextNetId := by
  by_cases hstep : ∃ dt, o = .step dt
  · rcases hstep with ⟨dt, rfl⟩
    exact (step_advances dt u).counter
  · by_cases hdespawn : ∃ n, o = .despawnBase n
    · rcases hdespawn with ⟨n, rfl⟩
      exact (despawnBase_grows u n).counter
    · exact (apply_follows u o (not_exists.mp hstep) (not_exists.mp hdespawn)).counter

theorem apply_sound {u : ServerUniverse F D} (o : Op F) (hu : u.Sound) (hw : (u.apply o).NoWrap) :
    (u.apply o).Sound := by
  by_cases hstep : ∃ dt, o = .step dt
  · rcases hstep with ⟨dt, rfl⟩
    exact (step_advances dt u).sound hu hw
  · by_cases hdespawn : ∃ n, o = .despawnBase n
    · rcases hdespawn with ⟨n, rfl⟩
      exact (despawnBase_grows u n).sound hu hw
    · exact (apply_follows u o (not_exists.mp hstep) (not_exists.mp hdespawn)).sound hu hw

end

end Shard

end EarthRise
