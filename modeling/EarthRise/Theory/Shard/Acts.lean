import EarthRise.Theory.Shard.Calls
import Mathlib.Logic.Relation

/-!
# One Thing at a Time

A step and the other calls as sequences of single acts.

`Advances` and `Follows` say what becomes of an entity that a net id leads to, and they ask
for ids that are not used twice. What is said of all the living together, how much they
hold or how many there are of a kind, needs no ids: it is settled for a single act and then
holds along any sequence of them.

An act changes the entities in place, fires a shot, kills, removes shots that are done, or
delivers a ship. A deed of the host orders a unit about, configures, spawns, claims loot or
removes what it is asked to remove.

## Main definitions

* `Issue`: What the spawners make.
* `Act`, `Acts`: What a step does.
* `Told`: A unit and what an order makes of it.
* `Deed`, `Deeds`: What the other calls do.

## Theorems

* `combatSystem_acts`, `projectileSystem_acts`, `buildSystem_acts` and others: The systems.
* `step_acts`: A step.
* `apply_deeds`: Every other call.
-/

namespace EarthRise

namespace Shard

open Ecs (World EntityHandle)
open Universe (UniversePos Vec3)
open Relation (ReflTransGen)

section

variable {F D : Type} [Floating F] [Floating D] [Widens F D]

/-! ## Acts -/

/-- What the spawners of a universe make of an id. -/
inductive Issue (u : ServerUniverse F D) : (UInt32 → Components F) → Prop
  | prop (shapeId : UInt16) (pos : UniversePos) :
      Issue u fun n =>
        .bare n pos ⟨shapeId, ((shapeById shapeId).map ShapeCategory.kind).getD .unknown⟩
  | node (type : ResourceType) (yield : F) (pos : UniversePos) :
      Issue u fun n => { Components.bare n pos ⟨nodeShapeId type, ⟨4⟩⟩ with
        resourceNode := some ⟨type, yield⟩ }
  | beacon (bi : UInt16) (pos : UniversePos) :
      Issue u fun n => { Components.bare n pos ⟨beaconShapeId, .structure'⟩ with
        beaconTag := some bi }
  | base (start : UniversePos) (vel : Vec3 F) :
      Issue u fun n => (installFit u.combat (u.baseComponents start vel n) baseFit).getD
        (u.baseComponents start vel n)
  | ship (player : UInt32) (shapeId : UInt16) (pos : UniversePos) (fitName : String) :
      Issue u fun n => installFitOr u.combat (u.shipComponents player shapeId pos n) fitName
        defaultShipFit
  | guardian (pos : UniversePos) (siteId : UInt16) (fitName : String) :
      Issue u fun n =>
        { installFitOr u.combat (ServerUniverse.npcComponents pos n) fitName npcFit with
          npcAi := some ⟨.defend, pos, ServerUniverse.npcAggroRange,
            ServerUniverse.npcFleeHpFrac, 0, siteId⟩ }
  | shot (p : PendingProjectile F) : Issue u (ServerUniverse.projectileEntity p)
  | loot (c : Components F) : Issue u (u.lootContainer c)

/-- The shots of a list of ids: each one is the id of a shot that is alive. -/
def Shots (e : Entities F) (l : List UInt32) : Prop :=
  ∀ n ∈ l, ∃ i c, e.world.slot i = some c ∧ c.netId = n ∧ c.projectile.isSome = true

/-- One thing that a step with an effect does. -/
inductive Act (x : Effect) : ServerUniverse F D → ServerUniverse F D → Prop
  | change {u : ServerUniverse F D} {e : Entities F} (h : u.ents.Steady x e) :
      Act x u { u with ents := e }
  | shoot (u : ServerUniverse F D) (p : PendingProjectile F) (hx : x.harms = true) :
      Act x u (u.spawnProjectileEntity p)
  | kill (u : ServerUniverse F D) (k : Hit F) (hx : x.harms = true) : Act x u (u.processKill k)
  | expire (u : ServerUniverse F D) (l : List UInt32) (hx : x.harms = true)
      (h : Shots u.ents l) : Act x u (l.foldl ServerUniverse.destroyUnit u)
  | deliver (u : ServerUniverse F D) (done : UInt32 × UniversePos) (hx : x.builds = true) :
      Act x u (u.deliver done)
  | record (u : ServerUniverse F D) (econEvents : List Persist.EconEvent)
      (lowHullAlerts : List UInt32) (simTime : D) (tick : UInt32) :
      Act x u { u with
        econEvents := econEvents, lowHullAlerts := lowHullAlerts, simTime := simTime
        tick := tick }

/-- What a step with an effect does. -/
abbrev Acts (x : Effect) : ServerUniverse F D → ServerUniverse F D → Prop := ReflTransGen (Act x)

variable {u u' u'' : ServerUniverse F D} {x y : Effect}

section

omit [Floating D]

theorem Act.mono (hxy : x.within y) (h : Act x u u') : Act y u u' := by
  have hharms : x.harms = true → y.harms = true := by
    intro hx
    cases hy : y.harms with
    | true => rfl
    | false => exact absurd (hx.symm.trans (hxy.1 hy)) (by decide)
  have hbuilds : x.builds = true → y.builds = true := by
    intro hx
    cases hy : y.builds with
    | true => rfl
    | false => exact absurd (hx.symm.trans (hxy.2.2.2.1 hy)) (by decide)
  cases h with
  | change h => exact .change (h.mono hxy)
  | shoot p hx => exact .shoot u p (hharms hx)
  | kill k hx => exact .kill u k (hharms hx)
  | expire l hx h => exact .expire u l (hharms hx) h
  | deliver done hx => exact .deliver u done (hbuilds hx)
  | record econ alerts time tick => exact .record u econ alerts time tick

theorem Acts.mono (hxy : x.within y) (h : Acts x u u') : Acts y u u' :=
  ReflTransGen.mono (fun _ _ => Act.mono hxy) _ _ h

theorem acts_foldl {α : Type} {f : ServerUniverse F D → α → ServerUniverse F D}
    (hf : ∀ u a, Act x u (f u a)) (l : List α) (u : ServerUniverse F D) :
    Acts x u (l.foldl f u) := by
  induction l generalizing u with
  | nil => exact .refl
  | cons a l ih => exact .head (hf u a) (ih (f u a))

theorem onEnts_acts {f : Entities F → Entities F} (hf : u.ents.Steady x (f u.ents)) :
    Acts x u (u.onEnts f) :=
  .single (.change hf)

end

/-! ## The systems -/

theorem combatSystem_acts (dt : F) (u : ServerUniverse F D) :
    Acts .fight u (u.combatSystem dt) := by
  unfold ServerUniverse.combatSystem
  have hfired : Acts .fight u { u with ents := (volleys (D := D) dt u.ents).ents } :=
    .single (.change (volleys_steady dt u.ents))
  refine hfired.trans ?_
  exact (acts_foldl (fun u p => .shoot u p rfl) _ _).trans (acts_foldl (fun u k => .kill u k rfl) _ _)

/-- What a barrage lists as done are shots. -/
theorem barrage_shots (subSteps : Nat) (dt : F) (e : Entities F) :
    Shots (barrage (D := D) subSteps dt e).ents (barrage (D := D) subSteps dt e).expired := by
  refine Ecs.visit_induct (P := fun b : Barrage F => Shots b.ents b.expired)
    (fun n hn => absurd hn List.not_mem_nil) ?_
  intro b i c hb hc n hn
  have hents := flyProjectile_steady (D := D) subSteps dt b i c hc
  -- a shot is still one after the visit
  have hlater : ∀ j c₀, b.ents.world.slot j = some c₀ → c₀.netId = n →
      c₀.projectile.isSome = true →
      ∃ i' c', (flyProjectile subSteps dt b i c).ents.world.slot i' = some c' ∧ c'.netId = n ∧
        c'.projectile.isSome = true := by
    intro j c₀ hj hid hshot
    have hrel := hents.world.slots j
    rw [hj] at hrel
    cases hslot : (flyProjectile (D := D) subSteps dt b i c).ents.world.slot j with
    | none =>
        rw [hslot] at hrel
        cases hrel
    | some c' =>
        rw [hslot] at hrel
        cases hrel with
        | some hr =>
            have hidentity := hr.identity
            unfold Components.identity at hidentity
            rw [Identity.mk.injEq] at hidentity
            rcases hidentity with ⟨hid', _, _, _, _, _, _, _, hshot', _⟩
            exact ⟨j, c', hslot, hid'.trans hid, hshot'.trans hshot⟩
  rcases flyProjectile_expired subSteps dt b i c n hn with hn | ⟨hn, hshot⟩
  · rcases hb n hn with ⟨j, c₀, hj, hid, hshot⟩
    exact hlater j c₀ hj hid hshot
  · exact hlater i c hc hn.symm hshot

theorem projectileSystem_acts (dt : F) (u : ServerUniverse F D) :
    Acts .fight u (u.projectileSystem dt) := by
  unfold ServerUniverse.projectileSystem
  simp only []
  have hflown : Acts .fight u
      { u with ents := (barrage (D := D) u.projectileSubSteps dt u.ents).ents } :=
    .single (.change (barrage_steady _ dt u.ents))
  refine (hflown.tail (.expire _ _ rfl ?_)).trans (acts_foldl (fun u k => .kill u k rfl) _ _)
  exact barrage_shots u.projectileSubSteps dt u.ents

omit [Floating D] in
theorem buildSystem_acts (dt : F) (u : ServerUniverse F D) :
    Acts .building u (u.buildSystem dt) := by
  unfold ServerUniverse.buildSystem
  have hbuilt : Acts .building u
      { u with ents := u.ents.forEach fun c => (buildUnit u.economy dt c).2 } :=
    .single (.change (forEach_steady fun c _ => buildUnit_steady _ dt c))
  exact hbuilt.trans (acts_foldl (fun u done => .deliver u done rfl) _ _)

omit [Floating D] in
theorem baseRetreatSystem_acts (u : ServerUniverse F D) : Acts .haul u u.baseRetreatSystem := by
  have hrecorded : Acts .haul u { u with
      econEvents := u.econEvents ++ u.ents.world.alive.filterMap u.retreatEvent
      lowHullAlerts := u.lowHullAlerts ++ u.ents.world.alive.filterMap u.retreatAlert } :=
    .single (.record u _ _ u.simTime u.tick)
  exact hrecorded.tail (.change (baseRetreatSystem_steady u))

/-! ## The step -/

theorem beforeCombat_acts (dt : F) (u : ServerUniverse F D) :
    Acts .ewar u (u.beforeCombat dt) := by
  refine onEnts_acts ?_
  refine ((aiSystem_steady (D := D) u.ents).mono (by decide)).trans ?_
  exact (ewarLogiSystem_steady dt _).trans ((fleetOrderSystem_steady dt _).mono (by decide))

/-- A step up to its travel. -/
def beforeTravel (dt : F) (u : ServerUniverse F D) : ServerUniverse F D :=
  if u.combatEnabled then
    ((((u.beforeCombat dt).combatSystem dt).projectileSystem dt).onEnts
      (regenSystem dt)).baseRetreatSystem
  else u.onEnts fun e => fleetOrderSystem (D := D) dt (aiSystem (D := D) e)

theorem step_eq (dt : F) (u : ServerUniverse F D) :
    u.step dt = (beforeTravel dt u).afterCombat dt := by
  unfold ServerUniverse.step beforeTravel
  split
  · rfl
  · rfl

/-- What a step does before anybody travels. -/
def Effect.battle : Effect := ⟨true, true, false, false, true, true⟩

theorem beforeTravel_acts (dt : F) (u : ServerUniverse F D) :
    Acts .battle u (beforeTravel dt u) := by
  unfold beforeTravel
  split
  · refine ReflTransGen.trans ?_ ((baseRetreatSystem_acts _).mono (by decide))
    refine ReflTransGen.trans ?_ ((onEnts_acts (regenSystem_steady dt _)).mono (by decide))
    refine ReflTransGen.trans ?_ ((projectileSystem_acts dt _).mono (by decide))
    exact ((beforeCombat_acts dt u).mono (by decide)).trans
      ((combatSystem_acts dt _).mono (by decide))
  · refine onEnts_acts ?_
    exact ((aiSystem_steady (D := D) u.ents).mono (by decide)).trans
      ((fleetOrderSystem_steady dt _).mono (by decide))

/-- The travel and the harvest of a step. -/
def roam (dt : F) (u : ServerUniverse F D) : ServerUniverse F D :=
  u.onEnts fun e =>
    harvestSystem (D := D) u.economy dt (navigationSystem u.nav dt (movementSystem dt e))

/-- What units do between the fight and the builds. -/
def Effect.roaming : Effect := ⟨false, false, true, false, true, false⟩

theorem roam_acts (dt : F) (u : ServerUniverse F D) : Acts .roaming u (roam dt u) := by
  refine onEnts_acts ?_
  refine ((movementSystem_steady dt u.ents).mono (by decide)).trans ?_
  refine ((navigationSystem_steady u.nav dt _).mono (by decide)).trans ?_
  exact (harvestSystem_steady u.economy dt _).mono (by decide)

theorem afterCombat_acts (dt : F) (u : ServerUniverse F D) :
    Acts .trade u (u.afterCombat dt) := by
  have hmoved : Acts .trade u (roam dt u) := (roam_acts dt u).mono (by decide)
  have hbuilt := hmoved.trans ((buildSystem_acts dt (roam dt u)).mono (by decide))
  have hsynced : Acts .trade _ _ :=
    hbuilt.trans (onEnts_acts ((syncHealthMirror_steady _).mono (by decide)))
  exact hsynced.tail (.record _ _ _ _ _)

theorem step_acts (dt : F) (u : ServerUniverse F D) : Acts .all u (u.step dt) := by
  rw [step_eq]
  exact ((beforeTravel_acts dt u).mono (by decide)).trans
    ((afterCombat_acts dt _).mono (by decide))

/-! ## Deeds -/

/-- A unit and what an order makes of it: it keeps what it is, what it holds and what protects
    it. Only an idle unit sets out, where `departs` is set, and only an idle queue is given a
    build. -/
structure Told (departs : Bool) (c c' : Components F) : Prop where
  identity : c'.identity = c.identity
  goods : c'.goods = c.goods
  defense : c'.defense = c.defense
  ewar : c'.ewar = c.ewar
  queue : c'.buildQueue = c.buildQueue ∨ ∃ q recipe, c.buildQueue = some q ∧ q.active = false ∧
    c'.buildQueue = some ⟨true, false, recipe, 0⟩
  navState : c'.navState = c.navState ∨
    c'.navState = (c.navState.map fun nav => { nav with interdicted := true }) ∨
    departs = true ∧ ∃ nav, c.navState = some nav ∧ nav.phase = .idle

/-- One thing that a call does besides stepping; nodes may be spawned where `maps` is set, units
    set out where `departs` is, and sites change by more than a death where `guards` is. -/
inductive Deed (maps departs guards : Bool) : ServerUniverse F D → ServerUniverse F D → Prop
  | tell {u : ServerUniverse F D} (n : UInt32) {f : Components F → Components F}
      (h : ∀ c, u.ents.find n = some c → Told departs c (f c)) :
      Deed maps departs guards u (u.modify n f)
  | configure {u u' : ServerUniverse F D} (hents : u'.ents = u.ents)
      (hcount : u'.nextNetId = u.nextNetId) (heconomy : maps = false → u'.economy = u.economy)
      (hshare : u'.lootFraction = u.lootFraction)
      (halive : u'.siteAlive = u.siteAlive) (hcleared : u'.clearedSites = u.clearedSites)
      (hsite : u'.nextSiteId = u.nextSiteId) : Deed maps departs guards u u'
  | drain (u : ServerUniverse F D) (hguards : guards = true) :
      Deed maps departs guards u (u.drain .clearedSites)
  | spawn (u : ServerUniverse F D) {mk : UInt32 → Components F} (h : Issue u mk)
      (hnode : maps = false → ∀ n, (mk n).resourceNode = none)
      (hnpc : ∀ n, (mk n).npcAi = none) (hloot : ∀ n, (mk n).loot = none) :
      Deed maps departs guards u (u.spawn mk)
  | site (u : ServerUniverse F D) (center : UniversePos) (count : Int) (radius : F)
      (fitName : String) (hguards : guards = true) :
      Deed maps departs guards u (u.spawnNpcSite center count radius fitName)
  | claim (u : ServerUniverse F D) (claimer container : UInt32) :
      Deed maps departs guards u (u.claimLoot claimer container).2
  | despawn (u : ServerUniverse F D) (n : UInt32) (hguards : guards = true) :
      Deed maps departs guards u (u.despawnBase n).2

/-- The call spawns nodes or brings another balance. -/
def Op.maps : Op F → Bool
  | .spawnResourceNode .. | .loadUniverse .. => true
  | _ => false

/-- The call may make units set out. -/
def Op.departs : Op F → Bool
  | .beginWarpTo .. | .beginJumpTo .. => true
  | .applyFleetCommand _ cmd => cmd.intent = .warp ∨ cmd.intent = .jump
  | _ => false

/-- The call opens a site, takes its clearing out or removes an entity unasked who it is. -/
def Op.guards : Op F → Bool
  | .spawnNpcSite .. | .despawnBase .. | .drain .clearedSites => true
  | _ => false

/-- What the calls do besides stepping. -/
abbrev Deeds (maps departs guards : Bool) : ServerUniverse F D → ServerUniverse F D → Prop :=
  ReflTransGen (Deed maps departs guards)

variable {b d g : Bool}

/-- An order about movement and targets. -/
theorem told_of_parts {c c' : Components F} (hid : c'.identity = c.identity)
    (hgoods : c'.goods = c.goods) (hdefense : c'.defense = c.defense) (hewar : c'.ewar = c.ewar)
    (hqueue : c'.buildQueue = c.buildQueue) (hnav : c'.navState = c.navState) : Told d c c' :=
  ⟨hid, hgoods, hdefense, hewar, .inl hqueue, .inl hnav⟩

theorem clearOrders_deeds (u : ServerUniverse F D) (n : UInt32) :
    Deeds b d g u (u.clearOrders n) := by
  refine .single (.tell n fun c _ => told_of_parts ?_ rfl rfl rfl rfl rfl)
  unfold Components.identity ServerUniverse.stopMotion ServerUniverse.idleHarvest
  rw [Option.isSome_map, Option.isSome_map]

theorem orderHarvest_deeds (u : ServerUniverse F D) (ship node : UInt32) :
    Deeds b d g u (u.orderHarvest ship node).2 := by
  unfold ServerUniverse.orderHarvest
  split
  · exact .refl
  · split
    · exact .refl
    · split
      · exact .single (.tell ship fun c _ => told_of_parts rfl rfl rfl rfl rfl rfl)
      · exact .refl

theorem pushOrder_deeds (u : ServerUniverse F D) (n : UInt32) (entry : FleetOrderEntry F)
    (queue : Bool) : Deeds b d g u (u.pushOrder n entry queue).2 := by
  unfold ServerUniverse.pushOrder
  split
  · exact .refl
  · rename_i fo hfo
    have hid : ∀ c, u.ents.find n = some c → ∀ fo' : FleetOrder F,
        ({ c with fleetOrder := some fo' } : Components F).identity = c.identity := by
      intro c hc fo'
      rw [hc, Option.bind_some] at hfo
      unfold Components.identity
      rw [hfo, Option.isSome_some, Option.isSome_some]
    split
    · exact .single (.tell n fun c hc => told_of_parts (hid c hc _) rfl rfl rfl rfl rfl)
    · exact .single (.tell n fun c hc => told_of_parts (hid c hc _) rfl rfl rfl rfl rfl)

theorem pushStance_deeds (u : ServerUniverse F D) (n : UInt32) (type : OrderType)
    (cmd : FleetCommand F) : Deeds b d g u (u.pushStance n type cmd).2 := by
  unfold ServerUniverse.pushStance
  split
  · exact .refl
  · exact pushOrder_deeds u _ _ _

theorem interdict_deeds (u : ServerUniverse F D) (n : UInt32) : Deeds b d g u (u.interdict n) := by
  refine .single (.tell n fun c _ => ⟨?_, rfl, rfl, rfl, .inl rfl, .inr (.inl rfl)⟩)
  unfold Components.identity
  rw [Option.isSome_map]

theorem enqueueBuild_deeds (u : ServerUniverse F D) (n : UInt32) :
    Deeds b d g u (u.enqueueBuild n).2 := by
  unfold ServerUniverse.enqueueBuild
  split
  · exact .refl
  · rename_i q hq
    split
    · exact .refl
    · rename_i hidle
      refine .single (.tell n fun c hc => ?_)
      rw [hc, Option.bind_some] at hq
      refine ⟨?_, rfl, rfl, rfl, .inr ⟨q, _, hq, (Bool.not_eq_true _).mp hidle, rfl⟩, .inl rfl⟩
      unfold Components.identity
      rw [hq, Option.isSome_some, Option.isSome_some]

theorem beginWarpTo_deeds (u : ServerUniverse F D) (n : UInt32) (dest : UniversePos) :
    Deeds b true g u (u.beginWarpTo n dest).2 := by
  rcases beginWarpTo_cases u n dest with h | ⟨c, nav, speed, hc, hnav, hidle, h⟩
  · rw [h]
  · rw [h]
    refine .single (.tell n fun c' hc' => ?_)
    rw [hc, Option.some.injEq] at hc'
    rw [← hc']
    refine ⟨?_, rfl, rfl, rfl, .inl rfl, .inr (.inr ⟨rfl, nav, hnav, hidle⟩)⟩
    unfold Components.identity ServerUniverse.stopMotion
    rw [hnav, Option.isSome_map, Option.isSome_some, Option.isSome_some]

theorem beginJumpTo_deeds (u : ServerUniverse F D) (n : UInt32) (destBeacon : String) :
    Deeds b true g u (u.beginJumpTo n destBeacon).2 := by
  rcases beginJumpTo_cases u n destBeacon with
    ⟨_, h⟩ | ⟨c, nav, fuel, i, bd, cost, spool, hc, hnav, hfuel, hidle, _, _, h⟩
  · rw [h]
  · rw [h]
    refine .single (.tell n fun c' hc' => ?_)
    rw [hc, Option.some.injEq] at hc'
    rw [← hc']
    refine ⟨?_, rfl, rfl, rfl, .inl rfl, .inr (.inr ⟨rfl, nav, hnav, hidle⟩)⟩
    unfold Components.identity ServerUniverse.stopMotion
    rw [hnav, hfuel, Option.isSome_map]
    rfl

theorem applyIntentToUnit_deeds (u : ServerUniverse F D) (n : UInt32) (cmd : FleetCommand F) :
    Deeds b (decide (cmd.intent = .warp ∨ cmd.intent = .jump)) g u
      (u.applyIntentToUnit n cmd).2 := by
  unfold ServerUniverse.applyIntentToUnit
  split
  · exact clearOrders_deeds u n
  · exact orderHarvest_deeds u n _
  · rename_i hwarp
    rw [decide_eq_true (Or.inl hwarp)]
    exact beginWarpTo_deeds u n _
  · rename_i hjump
    rw [decide_eq_true (Or.inr hjump)]
    exact beginJumpTo_deeds u n _
  · exact enqueueBuild_deeds u n
  · exact .single (.claim u n _)
  · exact pushOrder_deeds u n _ _
  · split
    · exact .refl
    · split
      · exact .refl
      · exact pushOrder_deeds u n _ _
  · exact pushStance_deeds u n _ _
  · exact pushStance_deeds u n _ _
  · exact pushStance_deeds u n _ _
  · exact pushStance_deeds u n _ _
  · exact .refl

theorem applyFleetCommand_deeds (u : ServerUniverse F D) (player : UInt32)
    (cmd : FleetCommand F) :
    Deeds b (decide (cmd.intent = .warp ∨ cmd.intent = .jump)) g u
      (u.applyFleetCommand player cmd).2 :=
  applyFleetCommand_keeps player cmd
    (fun v n hv => hv.trans (applyIntentToUnit_deeds v n cmd)) u .refl

theorem deeds_foldl {α : Type} {f : ServerUniverse F D → α → ServerUniverse F D}
    (hf : ∀ u a, Deeds b d g u (f u a)) (l : List α) (u : ServerUniverse F D) :
    Deeds b d g u (l.foldl f u) := by
  induction l generalizing u with
  | nil => exact .refl
  | cons a l ih => exact (hf u a).trans (ih (f u a))

theorem spawnResourceNode_deeds (u : ServerUniverse F D) (type : ResourceType) (yield : F)
    (pos : UniversePos) : Deeds true d g u (u.spawnResourceNode type yield pos) :=
  .single (.spawn u (.node type yield pos) (fun h => absurd h (by decide)) (fun _ => rfl) fun _ => rfl)

theorem spawnBeacon_deeds (u : ServerUniverse F D) (bi : UInt16) (bd : BeaconDef) :
    Deeds b d g u (u.spawnBeacon bi bd) := by
  have hspawned : Deeds b d g u (u.spawn fun netId => { Components.bare (F := F) netId bd.pos
      ⟨beaconShapeId, .structure'⟩ with beaconTag := some bi }) :=
    .single (.spawn u (.beacon bi bd.pos) (fun _ _ => rfl) (fun _ => rfl) fun _ => rfl)
  exact hspawned.tail (.configure rfl rfl (fun _ => rfl) rfl rfl rfl rfl)

theorem spawnField_deeds (u : ServerUniverse F D) (f : ResourceFieldDef F) :
    Deeds true d g u (u.spawnField f) := by
  unfold ServerUniverse.spawnField
  exact deeds_foldl (fun v i => spawnResourceNode_deeds v _ _ _) _ u

theorem loadUniverse_deeds (u : ServerUniverse F D) (data : UniverseDataset F) :
    Deeds true d g u (u.loadUniverse data) := by
  unfold ServerUniverse.loadUniverse
  simp only []
  have hloaded : Deeds true d g u { u with dataset := data, nav := data.nav, economy := data.economy } :=
    .single (.configure rfl rfl (fun h => absurd h (by decide)) rfl rfl rfl rfl)
  have hbeacons : ∀ (v : ServerUniverse F D) (b : BeaconDef × Nat),
      Deeds true d g v (v.spawnBeacon (UInt16.ofNat b.2) b.1) := fun v b => spawnBeacon_deeds v _ _
  exact (hloaded.trans (deeds_foldl hbeacons _ _)).trans (deeds_foldl spawnField_deeds _ _)

/-! ## Any other call -/

/-- Every call but a step. -/
theorem apply_deeds (u : ServerUniverse F D) (o : Op F) (hstep : ∀ dt, o ≠ .step dt) :
    Deeds o.maps o.departs o.guards u (u.apply o) := by
  cases o with
  | spawnBase start vel =>
      refine .single (.spawn u (.base start vel) (fun _ n => ?_) (fun n => ?_) fun n => ?_)
      · exact installFitGetD_induct (P := fun c => c.resourceNode = none) rfl (fun _ _ => rfl) _
      · exact installFitGetD_induct (P := fun c => c.npcAi = none) rfl (fun _ _ => rfl) _
      · exact installFitGetD_induct (P := fun c => c.loot = none) rfl (fun _ _ => rfl) _
  | spawnProp shapeId pos =>
      exact .single (.spawn u (.prop shapeId pos) (fun _ _ => rfl) (fun _ => rfl) fun _ => rfl)
  | spawnResourceNode type yield pos => exact spawnResourceNode_deeds u type yield pos
  | spawnFleetShip player shapeId pos fitName =>
      simp only [ServerUniverse.apply, ServerUniverse.spawnFleetShipFit]
      split
      · exact .refl
      · refine .single
          (.spawn u (.ship player shapeId pos fitName) (fun _ n => ?_) (fun n => ?_) fun n => ?_)
        · exact installFitOr_induct (P := fun c => c.resourceNode = none) rfl (fun _ _ => rfl) _ _
        · exact installFitOr_induct (P := fun c => c.npcAi = none) rfl (fun _ _ => rfl) _ _
        · exact installFitOr_induct (P := fun c => c.loot = none) rfl (fun _ _ => rfl) _ _
  | spawnNpcSite center count radius fitName => exact .single (.site u center count radius fitName rfl)
  | loadUniverse data => exact loadUniverse_deeds u data
  | beginWarpTo netId dest => exact beginWarpTo_deeds u netId dest
  | beginJumpTo netId beacon => exact beginJumpTo_deeds u netId beacon
  | interdict netId => exact interdict_deeds u netId
  | enqueueBuild netId => exact enqueueBuild_deeds u netId
  | orderHarvest ship node => exact orderHarvest_deeds u ship node
  | applyFleetCommand player cmd => exact applyFleetCommand_deeds u player cmd
  | claimLoot claimer container => exact .single (.claim u claimer container)
  | despawnBase n => exact .single (.despawn u n rfl)
  | drain feed =>
      cases feed with
      | clearedSites => exact .single (.drain u rfl)
      | _ => exact .single (.configure rfl rfl (fun _ => rfl) rfl rfl rfl rfl)
  | step dt => exact absurd rfl (hstep dt)
  | _ => exact .single (.configure rfl rfl (fun _ => rfl) rfl rfl rfl rfl)

end

end Shard

end EarthRise
