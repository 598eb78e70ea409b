import EarthRise.Theory.Shard.Entities

/-!
# What a Step Leaves Alone

The systems of a step, each with what it may change about an entity.

Nobody's identity changes in a step: the id, the tags, the owner and which parts it has.
Nor does what drives it: its velocity, whether it takes orders and whether it harvests.
The rest is granted system by system. Only weapons take hull points, only electronic
warfare interdicts a journey and only navigation goes on with one, only the build system
touches a build queue; only the economy and a retreat touch what an entity holds; and a unit
that has no order, no harvest and is no shot is moved by its velocity and its journey alone.

`Steady` is the relation between an entity before and after, with an `Effect` that says
what is granted. It composes, so every system is settled once, one entity at a time.

## Main definitions

* `Identity`, `Components.identity`: What never changes.
* `Components.Standing`, `Components.Unsteered`.
* `Effect`, `Steady`: What a system may change.
* `Warfare`: What holds across electronic warfare.

## Theorems

* `aiSystem_steady`, `ewarLogiSystem_steady`, `fleetOrderSystem_steady`, `volleys_steady`,
  `barrage_steady`, `regenSystem_steady`, `harvestSystem_steady` and others: One for each
  system.
-/

namespace EarthRise

namespace Shard

open Universe (UniversePos Vec3)

section

variable {F : Type}

/-! ## Identity -/

/-- What never changes about an entity. -/
structure Identity where
  netId : UInt32
  baseTag : Bool
  shipTag : Option UInt8
  ownerId : Option UInt32
  isNpc : Bool
  hasQueue : Bool
  hasStorage : Bool
  isLoot : Bool
  isShot : Bool
  hullMax : Option Int
  hasCargo : Bool
  site : Option UInt16
  /-- Which of the other parts it has. -/
  parts : List Bool

def Components.identity (c : Components F) : Identity where
  netId := c.netId
  baseTag := c.baseTag
  shipTag := c.shipTag
  ownerId := c.ownerId
  isNpc := c.npcAi.isSome
  hasQueue := c.buildQueue.isSome
  hasStorage := c.storage.isSome
  isLoot := c.loot.isSome
  isShot := c.projectile.isSome
  hullMax := c.defense.map fun d => d.hull.max
  hasCargo := c.cargo.isSome
  site := c.npcAi.map NpcAi.siteId
  parts := [c.health.isSome, c.fuel.isSome, c.navState.isSome, c.beaconTag.isSome,
    c.resourceNode.isSome, c.fleetMember.isSome, c.sensor.isSome, c.weapon.isSome,
    c.resists.isSome, c.fitting.isSome, c.ewar.isSome, c.baseCombat.isSome, c.hullInfo.isSome,
    c.velocity.isSome, c.fleetOrder.isSome]

/-- What moves an entity besides journeys: its velocity, and whether it takes orders or
    harvests. -/
def Components.drive (c : Components F) : Option (Vec3 F) × Bool × Bool :=
  (c.velocity, c.fleetOrder.isSome, c.harvestOrder.isSome)

/-- A unit that can have hull points has some. -/
def Components.Standing (c : Components F) : Prop :=
  ∀ d, c.defense = some d → 0 < d.hull.max → 0 < d.hull.cur

/-- Nothing but its velocity and its journey moves the entity. -/
def Components.Unsteered (c : Components F) : Prop :=
  c.fleetOrder = none ∧ c.harvestOrder = none ∧ c.projectile = none

/-- What an entity holds: resources to mine, cargo, a storage or loot. -/
structure Goods (F : Type) where
  node : Option (ResourceNodeTag F)
  cargo : Option (Hold F)
  storage : Option (Hold F)
  loot : Option (LootContainer F)

def Components.goods (c : Components F) : Goods F := ⟨c.resourceNode, c.cargo, c.storage, c.loot⟩

/-- A journey, interrupted or not. -/
def Components.journey (c : Components F) : Option (NavState F) :=
  c.navState.map fun nav => { nav with interdicted := false }

theorem unsteered_iff (c : Components F) :
    c.Unsteered ↔ c.drive.2 = (false, false) ∧ c.identity.isShot = false := by
  unfold Components.Unsteered Components.drive Components.identity
  rw [Prod.mk.injEq, Option.isSome_eq_false_iff, Option.isSome_eq_false_iff,
    Option.isSome_eq_false_iff, Option.isNone_iff_eq_none, Option.isNone_iff_eq_none,
    Option.isNone_iff_eq_none, and_assoc]

/-! ## Effects -/

/-- What a system does to an entity besides what every system may do. -/
structure Effect where
  /-- It takes hull points. -/
  harms : Bool
  /-- It interdicts journeys. -/
  interdicts : Bool
  /-- It moves what nobody steers, and goes on with journeys. -/
  travels : Bool
  /-- It goes on with builds. -/
  builds : Bool
  /-- It changes what entities hold. -/
  trades : Bool
  /-- It lets time pass for what electronic warfare does. -/
  decays : Bool

/-- Nothing in particular. -/
def Effect.none : Effect := ⟨false, false, false, false, false, false⟩

/-- Anything. -/
def Effect.all : Effect := ⟨true, true, true, true, true, true⟩

/-- An entity before and after a system with an effect. -/
structure Steady (x : Effect) (c c' : Components F) : Prop where
  identity : c'.identity = c.identity
  drive : c'.drive = c.drive
  hull : x.harms = false → c.Standing → c'.Standing
  navState : x.interdicts = false → x.travels = false → c'.navState = c.navState
  journey : x.travels = false → c'.journey = c.journey
  parked : x.travels = false → c.Unsteered → c'.transform = c.transform
  queue : x.builds = false → c'.buildQueue = c.buildQueue
  goods : x.trades = false → c'.goods = c.goods
  ewar : x.interdicts = false → x.decays = false → c'.ewar = c.ewar

variable {x y : Effect} {e : Entities F} {f : Components F → Components F} {n : UInt32}

theorem Steady.refl (x : Effect) (c : Components F) : Steady x c c :=
  ⟨rfl, rfl, fun _ => id, fun _ _ => rfl, fun _ => rfl, fun _ _ => rfl, fun _ => rfl,
    fun _ => rfl, fun _ _ => rfl⟩

theorem Steady.unsteered {c c' : Components F} (h : Steady x c c') : c'.Unsteered ↔ c.Unsteered := by
  rw [unsteered_iff, unsteered_iff, h.identity, h.drive]

theorem Steady.trans (a b c : Components F) (h : Steady x a b) (h' : Steady x b c) :
    Steady x a c where
  identity := h'.identity.trans h.identity
  drive := h'.drive.trans h.drive
  hull := fun hx hs => h'.hull hx (h.hull hx hs)
  navState := fun hx hx' => (h'.navState hx hx').trans (h.navState hx hx')
  journey := fun hx => (h'.journey hx).trans (h.journey hx)
  parked := fun hx hu => (h'.parked hx (h.unsteered.mpr hu)).trans (h.parked hx hu)
  queue := fun hx => (h'.queue hx).trans (h.queue hx)
  goods := fun hx => (h'.goods hx).trans (h.goods hx)
  ewar := fun hx hx' => (h'.ewar hx hx').trans (h.ewar hx hx')

/-- An effect is part of another one. -/
def Effect.within (x y : Effect) : Prop :=
  (y.harms = false → x.harms = false) ∧ (y.interdicts = false → x.interdicts = false) ∧
    (y.travels = false → x.travels = false) ∧ (y.builds = false → x.builds = false) ∧
    (y.trades = false → x.trades = false) ∧ (y.decays = false → x.decays = false)

instance (x y : Effect) : Decidable (x.within y) := inferInstanceAs (Decidable (_ ∧ _))

theorem Steady.mono (hxy : x.within y) (c c' : Components F) (h : Steady x c c') :
    Steady y c c' where
  identity := h.identity
  drive := h.drive
  hull := fun hy => h.hull (hxy.1 hy)
  navState := fun hi ht => h.navState (hxy.2.1 hi) (hxy.2.2.1 ht)
  journey := fun ht => h.journey (hxy.2.2.1 ht)
  parked := fun ht => h.parked (hxy.2.2.1 ht)
  queue := fun hb => h.queue (hxy.2.2.2.1 hb)
  goods := fun ht => h.goods (hxy.2.2.2.2.1 ht)
  ewar := fun hi hd => h.ewar (hxy.2.1 hi) (hxy.2.2.2.2.2 hd)

/-- The entities before and after a system with an effect. -/
abbrev Entities.Steady (x : Effect) (e e' : Entities F) : Prop :=
  Entities.Evolves (Shard.Steady x) e e'

theorem Entities.Steady.refl (x : Effect) (e : Entities F) : Entities.Steady x e e :=
  Entities.Evolves.refl (Shard.Steady.refl x) e

theorem Entities.Steady.trans {e e' e'' : Entities F} (h : Entities.Steady x e e')
    (h' : Entities.Steady x e' e'') : Entities.Steady x e e'' :=
  Entities.Evolves.trans Shard.Steady.trans h h'

theorem Entities.Steady.mono {e e' : Entities F} (hxy : x.within y) (h : Entities.Steady x e e') :
    Entities.Steady y e e' :=
  Entities.Evolves.mono (Shard.Steady.mono hxy) h

theorem Entities.Steady.sound {e e' : Entities F} (h : Entities.Steady x e e') (he : e.Sound) :
    e'.Sound :=
  Entities.Evolves.sound (fun _ _ hr => congrArg Identity.netId hr.identity) h he

theorem modify_steady
    (hf : ∀ c, e.find n = some c → Steady x c (f c)) : e.Steady x (e.modify n f) :=
  Entities.Evolves.modify (Steady.refl x) hf

theorem modifyAt_steady {i : Nat}
    (hf : ∀ c, e.world.slot i = some c → Steady x c (f c)) : e.Steady x (e.modifyAt i f) :=
  Entities.Evolves.modifyAt (Steady.refl x) hf

theorem visit_steady {S : Type} (ents : S → Entities F) {body : S → Nat → Components F → S}
    (hbody : ∀ s i c, (ents s).world.slot i = some c → (ents s).Steady x (ents (body s i c)))
    (s : S) : (ents s).Steady x (ents (Ecs.visit (fun s => (ents s).world) body s)) :=
  Entities.visit_evolves _ (Steady.refl x) Steady.trans hbody s

theorem forEach_steady
    (hf : ∀ c, c ∈ e.world.alive → Steady x c (f c)) : e.Steady x (e.forEach f) :=
  Entities.Evolves.forEach hf

/-! ## Parts that a system may set -/

theorem steady_fitting (x : Effect) (c : Components F) (f : Fitting F → Fitting F) :
    Steady x c { c with fitting := c.fitting.map f } := by
  refine ⟨?_, rfl, fun _ => id, fun _ _ => rfl, fun _ => rfl, fun _ _ => rfl, fun _ => rfl,
    fun _ => rfl, fun _ _ => rfl⟩
  unfold Components.identity
  rw [Option.isSome_map]

theorem steady_ewar (x : Effect) (c : Components F) (f : EwarStatus F → EwarStatus F)
    (hx : x.interdicts = true ∨ x.decays = true) : Steady x c { c with ewar := c.ewar.map f } := by
  refine ⟨?_, rfl, fun _ => id, fun _ _ => rfl, fun _ => rfl, fun _ _ => rfl, fun _ => rfl,
    fun _ => rfl, fun hi hd => ?_⟩
  swap
  · rw [hi, hd] at hx
    exact absurd hx (by decide)
  unfold Components.identity
  rw [Option.isSome_map]

/-- New layers, with the hull that the unit can have. -/
theorem steady_defense (x : Effect) (c : Components F) (d : Option (DefenseLayers F))
    (hmax : d.map (fun d => d.hull.max) = c.defense.map fun d => d.hull.max)
    (hcur : x.harms = false → c.Standing → ∀ d', d = some d' → 0 < d'.hull.max → 0 < d'.hull.cur) :
    Steady x c { c with defense := d } where
  identity := by
    unfold Components.identity
    rw [hmax]
  drive := rfl
  hull := hcur
  navState := fun _ _ => rfl
  journey := fun _ => rfl
  parked := fun _ _ => rfl
  queue := fun _ => rfl
  goods := fun _ => rfl
  ewar := fun _ _ => rfl

/-- What is steered may be moved. -/
theorem steady_transform (x : Effect) (c : Components F) (tr : Transform F) (h : ¬ c.Unsteered) :
    Steady x c { c with transform := tr } :=
  ⟨rfl, rfl, fun _ => id, fun _ _ => rfl, fun _ => rfl, fun _ hu => absurd hu h, fun _ => rfl,
    fun _ => rfl, fun _ _ => rfl⟩

/-- A unit that takes orders may be moved and given another one. -/
theorem steady_order (x : Effect) (c : Components F) (tr : Transform F) (fo : FleetOrder F)
    (h : c.fleetOrder.isSome) :
    Steady x c { c with transform := tr, fleetOrder := some fo } where
  identity := by
    unfold Components.identity
    rw [h, Option.isSome_some]
  drive := by
    unfold Components.drive
    rw [h, Option.isSome_some]
  hull := fun _ => id
  navState := fun _ _ => rfl
  journey := fun _ => rfl
  parked := by
    intro _ hu
    rw [hu.1] at h
    exact absurd h Bool.false_ne_true
  queue := fun _ => rfl
  goods := fun _ => rfl
  ewar := fun _ _ => rfl

/-- A harvester may be moved, be given another phase and have other cargo. -/
theorem steady_harvest (x : Effect) (c : Components F) (tr : Transform F)
    (ord : HarvestOrder) (cargo : Option (Hold F)) (h : c.harvestOrder.isSome)
    (hcargo : cargo.isSome = c.cargo.isSome) (hx : x.trades = true) :
    Steady x c { c with transform := tr, harvestOrder := some ord, cargo := cargo } where
  identity := by
    unfold Components.identity
    rw [hcargo]
  drive := by
    unfold Components.drive
    rw [h, Option.isSome_some]
  hull := fun _ => id
  navState := fun _ _ => rfl
  journey := fun _ => rfl
  parked := by
    intro _ hu
    rw [hu.2.1] at h
    exact absurd h Bool.false_ne_true
  queue := fun _ => rfl
  goods := fun hx' => absurd (hx.symm.trans hx') (by decide)
  ewar := fun _ _ => rfl

/-- A shot flies. -/
theorem steady_projectile (x : Effect) (c : Components F) (tr : Transform F) (pr : Projectile F)
    (h : c.projectile.isSome) :
    Steady x c { c with transform := tr, projectile := some pr } where
  identity := by
    unfold Components.identity
    rw [h, Option.isSome_some]
  drive := rfl
  hull := fun _ => id
  navState := fun _ _ => rfl
  journey := fun _ => rfl
  parked := by
    intro _ hu
    rw [hu.2.2] at h
    exact absurd h Bool.false_ne_true
  queue := fun _ => rfl
  goods := fun _ => rfl
  ewar := fun _ _ => rfl

/-- The effect of a fight. -/
def Effect.fight : Effect := ⟨true, false, false, false, false, false⟩

/-- Layers may be replaced by others of the same hull. -/
theorem setDefense_steady {d : DefenseLayers F}
    (hmax : ∀ c, e.find n = some c → (c.defense.map fun d => d.hull.max) = some d.hull.max) :
    e.Steady .fight (e.modify n fun c => { c with defense := some d }) := by
  refine modify_steady fun c hc => steady_defense _ c _ ?_ fun h => absurd h (by decide)
  rw [Option.map_some, hmax c hc]

/-- The effect of moving resources. -/
def Effect.haul : Effect := ⟨false, false, false, false, true, false⟩

theorem storage_steady {s : Hold F}
    (h : ((e.find n).bind Components.storage).isSome) :
    e.Steady .haul (e.modify n fun c => { c with storage := some s }) := by
  refine modify_steady fun c hc => ?_
  rw [hc, Option.bind_some] at h
  refine ⟨?_, rfl, fun _ => id, fun _ _ => rfl, fun _ => rfl, fun _ _ => rfl, fun _ => rfl,
    fun h => absurd h (by decide), fun _ _ => rfl⟩
  unfold Components.identity
  rw [h, Option.isSome_some]

theorem resourceNode_steady {node : ResourceNodeTag F}
    (h : ((e.find n).bind Components.resourceNode).isSome) :
    e.Steady .haul (e.modify n fun c => { c with resourceNode := some node }) := by
  refine modify_steady fun c hc => ?_
  rw [hc, Option.bind_some] at h
  refine ⟨?_, rfl, fun _ => id, fun _ _ => rfl, fun _ => rfl, fun _ _ => rfl, fun _ => rfl,
    fun h => absurd h (by decide), fun _ _ => rfl⟩
  unfold Components.identity
  rw [h, Option.isSome_some]

/-! ## Repair -/

/-- The effect of electronic warfare. -/
def Effect.ewar : Effect := ⟨false, true, false, false, false, false⟩

theorem remoteRep_hull_max (d : DefenseLayers F) (layer : DefenseLayer) (amount : Int) :
    (remoteRep d layer amount).2.hull.max = d.hull.max := by
  unfold remoteRep
  simp only []
  split
  · rfl
  · cases layer <;> rfl

/-- Repair takes no hull points. -/
theorem remoteRep_hull_cur (d : DefenseLayers F) (layer : DefenseLayer) (amount : Int)
    (h : 0 < d.hull.cur) : 0 < (remoteRep d layer amount).2.hull.cur := by
  unfold remoteRep
  simp only []
  split
  · exact h
  · rename_i hnot
    cases layer with
    | shield => exact h
    | armor => exact h
    | hull =>
        simp only [DefenseLayers.get, DefenseLayers.set] at hnot ⊢
        omega

theorem repair_steady (layer : DefenseLayer) (amount : Int) (c : Components F) :
    Steady .ewar c (repair layer amount c) := by
  refine steady_defense _ c _ ?_ ?_
  · cases c.defense with
    | none => rfl
    | some d => simp only [Option.map_some, remoteRep_hull_max]
  · intro _ hs d' hd'
    rcases Option.map_eq_some_iff.mp hd' with ⟨d, hd, rfl⟩
    rw [remoteRep_hull_max]
    intro hmax
    exact remoteRep_hull_cur d layer amount (hs d hd hmax)

end

section

variable {F D : Type} [Floating F] [Floating D] [Widens F D]

/-! ## The AI -/

theorem aiDecide_steady (targets : List AiTarget) (c : Components F) :
    Steady .none c (aiDecide (D := D) targets c) := by
  unfold aiDecide
  split
  · rename_i ai d fo hai hd hfo
    refine ⟨?_, ?_, fun _ => id, fun _ _ => rfl, fun _ => rfl, fun _ _ => rfl, fun _ => rfl,
      fun _ => rfl, fun _ _ => rfl⟩
    · unfold Components.identity
      rw [hai, hfo, Option.isSome_some, Option.isSome_some, Option.isSome_some,
        Option.isSome_some, Option.map_some, Option.map_some]
    · unfold Components.drive
      rw [hfo, Option.isSome_some, Option.isSome_some]
  · exact Steady.refl _ c

theorem aiSystem_steady (e : Entities F) : e.Steady .none (aiSystem (D := D) e) :=
  forEach_steady fun c _ => aiDecide_steady _ c

/-! ## Electronic warfare and repair -/

theorem applyEwar_steady (m : ModuleDef F) (c : Components F) :
    Steady .ewar c (applyEwar m c) := by
  unfold applyEwar
  split
  · exact steady_ewar _ c _ (.inl rfl)
  · exact steady_ewar _ c _ (.inl rfl)
  · -- A disruptor leaves the journey itself as it is.
    refine Steady.trans _ _ _ (steady_ewar _ c (fun s => s.applyTackle m.duration)
      (.inl rfl)) ?_
    refine ⟨?_, rfl, fun _ => id, fun h => absurd h (by decide), fun _ => ?_, fun _ _ => rfl,
      fun _ => rfl, fun _ => rfl, fun _ _ => rfl⟩
    · unfold Components.identity
      rw [Option.isSome_map]
    · unfold Components.journey
      rw [Option.map_map]
      rfl
  · exact steady_ewar _ c _ (.inl rfl)
  · exact Steady.refl _ c

/-- A relation that holds across everything that electronic warfare and repair do to an
    entity. -/
structure Warfare (R : Components F → Components F → Prop) : Prop where
  refl : ∀ c, R c c
  trans : ∀ a b c, R a b → R b c → R a c
  repair : ∀ layer amount c, R c (repair layer amount c)
  apply : ∀ m c, R c (applyEwar m c)
  modules : ∀ ms c, R c (setModules ms c)

section

variable {R : Components F → Components F → Prop}

theorem runModule_evolves (hR : Warfare R) (self : Components F) (owner attackTarget : UInt32)
    (dt : F) (e : Entities F) (mi : ModuleInstance F) :
    Entities.Evolves R e (runModule self owner attackTarget dt e mi).1 := by
  have hsame := Entities.Evolves.refl hR.refl e
  unfold runModule
  simp only []
  split
  · split
    · exact hsame
    · split
      · exact Entities.Evolves.modify hR.refl fun c _ => hR.repair _ _ c
      · exact hsame
  · split
    · split
      · exact hsame
      · split
        · exact hsame
        · split
          · exact hsame
          · exact Entities.Evolves.modify hR.refl fun c _ => hR.apply _ c
    · exact hsame

theorem runModules_evolves (hR : Warfare R) (self : Components F) (owner attackTarget : UInt32)
    (dt : F) (modules : List (ModuleInstance F)) (e : Entities F) :
    Entities.Evolves R e (runModules self owner attackTarget dt modules e).1 := by
  induction modules generalizing e with
  | nil => exact Entities.Evolves.refl hR.refl e
  | cons mi rest ih =>
      exact (runModule_evolves hR self owner attackTarget dt e mi).trans hR.trans (ih _)

theorem ewarLogiUnit_evolves (hR : Warfare R) (dt : F) (e : Entities F) (i : Nat)
    (c : Components F) : Entities.Evolves R e (ewarLogiUnit dt e i c) := by
  unfold ewarLogiUnit
  split
  · split
    · exact Entities.Evolves.refl hR.refl e
    · exact (runModules_evolves hR c _ _ dt _ e).trans hR.trans
        (Entities.Evolves.modifyAt hR.refl fun c' _ => hR.modules _ c')
  · exact Entities.Evolves.refl hR.refl e

theorem ewarLogiSystem_evolves (hR : Warfare R) (dt : F) (e : Entities F) :
    Entities.Evolves R e (ewarLogiSystem dt e) :=
  Entities.visit_evolves id hR.refl hR.trans
    (fun e i c _ => ewarLogiUnit_evolves hR dt e i c) e

end

theorem ewarLogiSystem_steady (dt : F) (e : Entities F) :
    e.Steady .ewar (ewarLogiSystem dt e) :=
  ewarLogiSystem_evolves ⟨Steady.refl _, Steady.trans, repair_steady, applyEwar_steady,
    fun _ c => steady_fitting _ c _⟩ dt e

/-! ## Steering -/

theorem steer_steady (dt : F) (e : Entities F) (i : Nat) (c : Components F)
    (hc : e.world.slot i = some c) : e.Steady .none (steer (D := D) dt e i c) := by
  have hslot : ∀ c', e.world.slot i = some c' → c = c' := fun c' h => Option.some.inj (hc.symm.trans h)
  unfold steer
  split
  · exact Entities.Steady.refl _ e
  · rename_i fo hfo
    have hsome : c.fleetOrder.isSome := by rw [hfo]; rfl
    simp only []
    split
    · exact Entities.Steady.refl _ e
    · refine modifyAt_steady fun c' h => ?_
      exact hslot c' h ▸ steady_order _ c _ _ hsome
    · refine modifyAt_steady fun c' h => ?_
      exact hslot c' h ▸ steady_order _ c _ _ hsome
    all_goals
      split
      · refine modifyAt_steady fun c' h => ?_
        exact hslot c' h ▸ steady_order _ c c.transform _ hsome
      · refine modifyAt_steady fun c' h => ?_
        refine hslot c' h ▸ steady_transform _ c _ fun hu => ?_
        rw [hu.1] at hsome
        exact absurd hsome Bool.false_ne_true

theorem fleetOrderSystem_steady (dt : F) (e : Entities F) :
    e.Steady .none (fleetOrderSystem (D := D) dt e) :=
  visit_steady id (fun e i c hc => steer_steady dt e i c hc) e

/-! ## Blows -/

theorem hitLayer_max (l : LayerHp) (resist raw : F) : (hitLayer l resist raw).layer.max = l.max := by
  unfold hitLayer
  simp only []
  split
  · rfl
  · split <;> rfl

theorem meet_hull_max (resist : ResistProfile F) (type : DamageType) (b : Blow F)
    (layer : DefenseLayer) : (b.meet resist type layer).layers.hull.max = b.layers.hull.max := by
  unfold Blow.meet
  split
  · cases layer with
    | shield => rfl
    | armor => rfl
    | hull => exact hitLayer_max _ _ _
  · rfl

theorem damageLayers_hull_max (resist : ResistProfile F) (type : DamageType)
    (layers : List DefenseLayer) (b : Blow F) :
    (damageLayers resist type layers b).layers.hull.max = b.layers.hull.max := by
  unfold damageLayers
  induction layers generalizing b with
  | nil => rfl
  | cons layer layers ih =>
      rw [List.foldl_cons, ih]
      exact meet_hull_max resist type b layer

/-- A blow does not change what hull a unit can have. -/
theorem applyTypedDamage_hull_max (d : DefenseLayers F) (resist : ResistProfile F)
    (type : DamageType) (effective : F) :
    (applyTypedDamage d resist type effective).2.hull.max = d.hull.max := by
  unfold applyTypedDamage
  split
  · rfl
  · exact damageLayers_hull_max resist type _ _

theorem fireModule_hull_max (a : Aim F D) (dt : F) (v : Volley F) (mi : ModuleInstance F) :
    (fireModule a dt v mi).layers.hull.max = v.layers.hull.max := by
  unfold fireModule
  simp only []
  split
  · rfl
  · split
    · rfl
    · split
      · exact applyTypedDamage_hull_max _ _ _ _
      · rfl

theorem fireModules_hull_max (a : Aim F D) (dt : F) (modules : List (ModuleInstance F))
    (v : Volley F) : (modules.foldl (fireModule a dt) v).layers.hull.max = v.layers.hull.max := by
  induction modules generalizing v with
  | nil => rfl
  | cons mi rest ih => rw [List.foldl_cons, ih, fireModule_hull_max]

/-! ## Weapons -/

theorem tickWeaponCooldowns_steady (e : Entities F) (n : UInt32) (dt : F) :
    e.Steady .fight (tickWeaponCooldowns e n dt) :=
  modify_steady fun c _ => steady_fitting _ c _

theorem fireWeapons_steady (b : Battle F) (selfNetId : UInt32) (selfPos : UniversePos)
    (targetNetId : UInt32) (dt : F) :
    b.ents.Steady .fight (fireWeapons (D := D) b selfNetId selfPos targetNetId dt).ents := by
  unfold fireWeapons
  split
  · exact Entities.Steady.refl _ _
  · simp only []
    split
    · exact tickWeaponCooldowns_steady _ _ _
    · rename_i t ht
      split
      · rename_i td trp htd htrp
        have hself : ∀ modules, b.ents.Steady .fight (b.ents.modify selfNetId (setModules modules)) :=
          fun modules => modify_steady fun c _ => steady_fitting _ c _
        refine (hself _).trans (setDefense_steady fun c hc => ?_)
        rcases (hself _).find_before hc with ⟨c₀, hc₀, hsame⟩
        rw [ht, Option.some.injEq] at hc₀
        have hmax := congrArg Identity.hullMax hsame.identity
        simp only [Components.identity, ← hc₀, htd, Option.map_some] at hmax
        rw [hmax, fireModules_hull_max]
      · exact tickWeaponCooldowns_steady _ _ _

theorem fleetFires_steady (dt : F) (b : Battle F) (i : Nat) (c : Components F) :
    b.ents.Steady .fight (fleetFires (D := D) dt b i c).ents := by
  unfold fleetFires
  split
  · split
    · exact Entities.Steady.refl _ _
    · split
      · exact tickWeaponCooldowns_steady _ _ _
      · exact fireWeapons_steady _ _ _ _ _
  · exact Entities.Steady.refl _ _

theorem baseFires_steady (dt : F) (b : Battle F) (i : Nat) (c : Components F) :
    b.ents.Steady .fight (baseFires (D := D) dt b i c).ents := by
  unfold baseFires
  split
  · split
    · exact tickWeaponCooldowns_steady _ _ _
    · simp only []
      split
      · exact fireWeapons_steady _ _ _ _ _
      · exact tickWeaponCooldowns_steady _ _ _
  · exact Entities.Steady.refl _ _

theorem volleys_steady (dt : F) (e : Entities F) :
    e.Steady .fight (volleys (D := D) dt e).ents := by
  unfold volleys
  have hfleet : e.Steady .fight
      (Ecs.visit (fun b => b.ents.world) (fleetFires (D := D) dt) ⟨e, [], []⟩).ents :=
    visit_steady Battle.ents (fun b i c _ => fleetFires_steady dt b i c) ⟨e, [], []⟩
  exact hfleet.trans (visit_steady Battle.ents (fun b i c _ => baseFires_steady dt b i c) _)

/-! ## Projectiles -/

theorem flyProjectile_steady (subSteps : Nat) (dt : F) (b : Barrage F) (i : Nat)
    (c : Components F) (hc : b.ents.world.slot i = some c) :
    b.ents.Steady .fight (flyProjectile subSteps dt b i c).ents := by
  unfold flyProjectile
  split
  · exact Entities.Steady.refl _ _
  · rename_i pr hpr
    have hflown : ∀ (tr : Components F → Transform F) (pr' : Projectile F),
        b.ents.Steady .fight (b.ents.modifyAt i fun c =>
          { c with transform := tr c, projectile := some pr' }) := by
      intro tr pr'
      refine modifyAt_steady fun c' h => steady_projectile _ c' _ _ ?_
      rw [hc, Option.some.injEq] at h
      rw [← h, hpr, Option.isSome_some]
    simp only []
    split
    · exact hflown _ _
    · rename_i t td trp htarget
      split
      · refine (hflown _ _).trans (setDefense_steady fun c' hc' => ?_)
        rcases (hflown _ _).find_before hc' with ⟨c₀, hc₀, hsame⟩
        have hmax := congrArg Identity.hullMax hsame.identity
        rw [hc₀, Option.bind_some] at htarget
        rcases Option.bind_eq_some_iff.mp htarget with ⟨td', htd', hrest⟩
        rcases Option.map_eq_some_iff.mp hrest with ⟨trp', _, heq⟩
        rw [Prod.mk.injEq, Prod.mk.injEq] at heq
        simp only [Components.identity, htd', Option.map_some, heq.2.1] at hmax
        rw [hmax, applyTypedDamage_hull_max]
      · exact hflown _ _

theorem barrage_steady (subSteps : Nat) (dt : F) (e : Entities F) :
    e.Steady .fight (barrage subSteps dt e).ents :=
  visit_steady Barrage.ents (fun b i c hc => flyProjectile_steady subSteps dt b i c hc)
    ⟨e, [], []⟩

/-! ## Regeneration -/

theorem regenDefenses_hull (d : DefenseLayers F) (dt : F) : (regenDefenses d dt).hull = d.hull := by
  unfold regenDefenses
  simp only []
  split
  · rfl
  · split
    · rfl
    · split <;> rfl

/-- The effect of the time that passes. -/
def Effect.rest : Effect := ⟨false, false, false, false, false, true⟩

theorem regenUnit_steady (dt : F) (c : Components F) : Steady .rest c (regenUnit dt c) := by
  refine Steady.trans _ _ _ (steady_defense _ c (c.defense.map fun d => regenDefenses d dt) ?_ ?_)
    (steady_ewar _ _ _ (.inr rfl))
  · cases c.defense with
    | none => rfl
    | some d => rw [Option.map_some, Option.map_some, Option.map_some, regenDefenses_hull]
  · intro _ hs d' hd'
    rcases Option.map_eq_some_iff.mp hd' with ⟨d, hd, rfl⟩
    rw [regenDefenses_hull]
    exact hs d hd

theorem regenSystem_steady (dt : F) (e : Entities F) : e.Steady .rest (regenSystem dt e) :=
  forEach_steady fun c _ => regenUnit_steady dt c

/-! ## Movement and travel -/

/-- The effect of movement. -/
def Effect.travel : Effect := ⟨false, false, true, false, false, false⟩

theorem moveUnit_steady (dt : F) (c : Components F) : Steady .travel c (moveUnit dt c) := by
  unfold moveUnit
  split
  · exact Steady.refl _ c
  · exact ⟨rfl, rfl, fun _ => id, fun _ _ => rfl, fun _ => rfl, fun h => absurd h (by decide),
      fun _ => rfl, fun _ => rfl, fun _ _ => rfl⟩

theorem movementSystem_steady (dt : F) (e : Entities F) : e.Steady .travel (movementSystem dt e) :=
  forEach_steady fun c _ => moveUnit_steady dt c

theorem navigateUnit_steady (tuning : NavTuning F) (dt : F) (c : Components F) :
    Steady .travel c (navigateUnit tuning dt c) := by
  unfold navigateUnit
  split
  · exact Steady.refl _ c
  · rename_i nav hnav
    refine ⟨?_, rfl, fun _ => id, fun _ h => absurd h (by decide), fun h => absurd h (by decide),
      fun h => absurd h (by decide), fun _ => rfl, fun _ => rfl, fun _ _ => rfl⟩
    unfold Components.identity
    rw [hnav]
    rfl

theorem navigationSystem_steady (tuning : NavTuning F) (dt : F) (e : Entities F) :
    e.Steady .travel (navigationSystem tuning dt e) :=
  forEach_steady fun c _ => navigateUnit_steady tuning dt c

/-! ## The economy -/

theorem harvestUnit_steady (economy : EconomyTuning F) (dt : F) (e : Entities F) (i : Nat)
    (c : Components F) (hc : e.world.slot i = some c) :
    e.Steady .haul (harvestUnit (D := D) economy dt e i c) := by
  unfold harvestUnit
  split
  · rename_i ord cargo hord hcargo
    have hsome : c.harvestOrder.isSome := by rw [hord]; rfl
    have hslot : ∀ c', e.world.slot i = some c' → c = c' :=
      fun c' h => Option.some.inj (hc.symm.trans h)
    have hphase : ∀ phase, e.Steady .haul (e.modifyAt i (setHarvestPhase ord phase)) := by
      intro phase
      refine modifyAt_steady fun c' h => ?_
      exact hslot c' h ▸ steady_harvest _ c c.transform _ c.cargo hsome rfl rfl
    have hload : ∀ e' : Entities F, e.Steady .haul e' → ∀ ord' cargo',
        e'.Steady .haul (e'.modifyAt i fun c =>
          { c with harvestOrder := some ord', cargo := some cargo' }) := by
      intro e' he' ord' cargo'
      refine modifyAt_steady fun c' h => ?_
      rcases he'.slot_before h with ⟨c₀, hc₀, hsame⟩
      have hdrive := congrArg (fun d => d.2.2) hsame.drive
      have hhold := congrArg Identity.hasCargo hsame.identity
      simp only [Components.drive] at hdrive
      simp only [Components.identity] at hhold
      refine steady_harvest _ c' c'.transform ord' (some cargo') ?_ ?_ rfl
      · rw [hdrive, ← hslot c₀ hc₀, hsome]
      · rw [hhold, ← hslot c₀ hc₀, hcargo, Option.isSome_some, Option.isSome_some]
    have hmove : ∀ tr : Components F → Transform F,
        e.Steady .haul (e.modifyAt i fun c => { c with transform := tr c }) := by
      intro tr
      refine modifyAt_steady fun c' h => steady_transform _ c' _ fun hu => ?_
      rw [hslot c' h, hu.2.1] at hsome
      exact absurd hsome Bool.false_ne_true
    simp only []
    split
    · exact Entities.Steady.refl _ e
    · -- To the node.
      split
      · split
        · exact hphase _
        · exact hmove _
      · exact hphase _
    · -- At the node.
      split
      · exact hphase _
      · rename_i n hn
        have hmined : e.Steady .haul (e.modify ord.nodeNetId fun c =>
            { c with resourceNode := some (harvestStep n cargo economy.harvestRate dt).2.1 }) := by
          refine resourceNode_steady ?_
          rw [show (e.find ord.nodeNetId).bind Components.resourceNode = some n from
            (Option.filter_eq_some_iff.mp hn).1, Option.isSome_some]
        exact hmined.trans (hload _ hmined _ _)
    · -- To the base.
      split
      · split
        · exact hphase _
        · exact hmove _
      · exact hphase _
    · -- At the base.
      split
      · exact hphase _
      · rename_i st hst
        have hstored : e.Steady .haul (e.modify ord.baseNetId fun c =>
            { c with storage := some (depositAll cargo st).2.2 }) :=
          storage_steady (by rw [hst]; rfl)
        exact hstored.trans (hload _ hstored _ _)
  · exact Entities.Steady.refl _ e

theorem harvestSystem_steady (economy : EconomyTuning F) (dt : F) (e : Entities F) :
    e.Steady .haul (harvestSystem (D := D) economy dt e) :=
  visit_steady id (fun e i c hc => harvestUnit_steady economy dt e i c hc) e

/-- The effect of building. -/
def Effect.building : Effect := ⟨false, false, false, true, true, false⟩

theorem buildUnit_steady (economy : EconomyTuning F) (dt : F) (c : Components F) :
    Steady .building c (buildUnit economy dt c).2 := by
  unfold buildUnit
  split
  · rename_i q s o hq hs ho
    refine ⟨?_, rfl, fun _ => id, fun _ _ => rfl, fun _ => rfl, fun _ _ => rfl,
      fun h => absurd h (by decide), fun h => absurd h (by decide), fun _ _ => rfl⟩
    unfold Components.identity
    rw [hq, hs, Option.isSome_some, Option.isSome_some, Option.isSome_some, Option.isSome_some]
  · exact Steady.refl _ c

omit [Floating F] in
theorem syncHealth_steady (c : Components F) : Steady .none c (syncHealth c) := by
  unfold syncHealth
  split
  · rename_i d h hd hh
    refine ⟨?_, rfl, fun _ => id, fun _ _ => rfl, fun _ => rfl, fun _ _ => rfl, fun _ => rfl,
      fun _ => rfl, fun _ _ => rfl⟩
    unfold Components.identity
    rw [hh]
    rfl
  · exact Steady.refl _ c

omit [Floating F] in
theorem syncHealthMirror_steady (e : Entities F) : e.Steady .none (syncHealthMirror e) :=
  forEach_steady fun c _ => syncHealth_steady c

/-! ## Retreat -/

omit [Floating D] in
theorem retreatUnit_steady (u : ServerUniverse F D) (c : Components F) :
    Steady .haul c (u.retreatUnit c) := by
  unfold ServerUniverse.retreatUnit
  split
  · rename_i bc d st hr hbc hd hst
    refine ⟨?_, rfl, ?_, fun _ _ => rfl, fun _ => rfl, fun _ _ => rfl, fun _ => rfl,
      fun h => absurd h (by decide), fun _ _ => rfl⟩
    · unfold Components.identity
      rw [hd, hst, hbc]
      rfl
    · -- The hull keeps what it has, or gets a quarter of what it can have.
      intro _ hs d' hd' hmax
      rw [Option.some.injEq] at hd'
      have hcur := hs d hd
      rw [← hd'] at hmax ⊢
      exact lt_max_of_lt_left (hcur hmax)
  · rename_i bc hr hbc
    refine ⟨?_, rfl, fun _ => id, fun _ _ => rfl, fun _ => rfl, fun _ _ => rfl, fun _ => rfl,
      fun _ => rfl, fun _ _ => rfl⟩
    unfold Components.identity
    rw [hbc]
    rfl
  · exact Steady.refl _ c

omit [Floating D] in
theorem baseRetreatSystem_steady (u : ServerUniverse F D) :
    u.ents.Steady .haul u.baseRetreatSystem.ents :=
  forEach_steady fun c _ => retreatUnit_steady u c

end

end Shard

end EarthRise
