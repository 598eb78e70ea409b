import EarthRise.Core.SimUniverse

/-!
# The Simulation Step

One fixed step of the universe, system after system.

The AI gives the NPCs their orders; electronic warfare and repair follow; the units
steer; the weapons fire and the projectiles fly; shields come back and bases retreat;
then movement, travel, harvest and building go on, and the hit points that the clients
see are brought up to date. A system visits the entities in the order of their slots.
One that only changes the entity it visits is a change of every entity; the others see
what the visits before have done.

A hit is recorded with what it met. The code keeps only those that kill.

## Main definitions

* `aiSystem`, `ewarLogiSystem`, `fleetOrderSystem`: Orders.
* `fireWeapons`, `combatSystem`, `projectileSystem`, `processKills`: Combat.
* `baseRetreatSystem`: What happens to a base instead of its destruction.
* `harvestSystem`, `buildSystem`: The economy.
* `step`: The step.
-/

namespace EarthRise

namespace Shard

open Universe (Vec3 UniversePos)
open Persist (EconEvent)

section

variable {F D : Type} [Floating F] [Floating D] [Widens F D]

/-- NPCs are one faction and players are each their own. -/
def hostile (oa ob : UInt32) : Prop :=
  ¬ (oa = 0 ∧ ob = 0) ∧ (oa = 0 ∨ ob = 0 ∨ oa ≠ ob)

instance (oa ob : UInt32) : Decidable (hostile oa ob) := inferInstanceAs (Decidable (_ ∧ _))

def ally (oa ob : UInt32) : Prop := oa = ob

instance (oa ob : UInt32) : Decidable (ally oa ob) := inferInstanceAs (Decidable (_ = _))

/-! ## The AI -/

structure AiTarget where
  netId : UInt32
  pos : UniversePos
  prio : Int

/-- Repair ships come first, then electronic warfare. -/
def targetCombatPriority (fitting : Option (Fitting F)) : Int :=
  match fitting with
  | none => 0
  | some f =>
      if f.modules.any fun mi => mi.info.kind = .remoteRep then 2
      else if f.modules.any fun mi =>
        mi.info.kind ∈ [.jammer, .web, .warpDisruptor, .sensorDamp] then 1
      else 0

/-- The units of players that are not wrecks. -/
def aiTargets (e : Entities F) : List AiTarget :=
  e.world.alive.filterMap fun c =>
    match c.ownerId, c.defense with
    | some player, some d =>
        if player ≠ 0 ∧ 0 < d.hull.cur then
          some ⟨c.netId, c.transform.pos,
            targetCombatPriority ((e.find c.netId).bind Components.fitting)⟩
        else none
    | _, _ => none

/-- What an NPC has picked so far; zero stands for no target. -/
structure AiPick (D : Type) where
  nearestId : UInt32
  nearestDist : D
  primaryId : UInt32
  primaryPrio : Int
  primaryDist : D

def AiPick.consider (pos : UniversePos) (aggroRange : F) (p : AiPick D) (t : AiTarget) :
    AiPick D :=
  let dd : D := universeDistance pos t.pos
  let p := if p.nearestId = 0 ∨ dd < p.nearestDist then
      { p with nearestId := t.netId, nearestDist := dd } else p
  if dd ≤ widen aggroRange ∧ (p.primaryPrio < t.prio ∨
      (t.prio = p.primaryPrio ∧ (p.primaryId = 0 ∨ dd < p.primaryDist))) then
    { p with primaryId := t.netId, primaryPrio := t.prio, primaryDist := dd }
  else p

/-- An NPC decides. -/
def aiDecide (targets : List AiTarget) (c : Components F) : Components F :=
  match c.npcAi, c.defense, c.fleetOrder with
  | some ai, some d, some fo =>
      let p : AiPick D := targets.foldl (AiPick.consider c.transform.pos ai.aggroRange)
        ⟨0, 0, 0, -1, 0⟩
      let state := nextAiState ai (p.nearestId ≠ 0) (p.primaryId ≠ 0) d.hullFrac
      let order : FleetOrderEntry F :=
        if state = .aggro then ⟨.attack, p.primaryId, ⟨0, 0, 0⟩, 0⟩
        else ⟨.move, 0, ai.home, 0⟩
      { c with
        npcAi := some { ai with state := state, targetNetId := p.primaryId }
        fleetOrder := some { fo with current := order } }
  | _, _, _ => c

def aiSystem (e : Entities F) : Entities F := e.forEach (aiDecide (D := D) (aiTargets e))

/-! ## Electronic warfare and repair -/

/-- The closest hostile unit within a range, zero where there is none. -/
def nearestHostileInRange (e : Entities F) (selfNetId : UInt32) (pos : UniversePos)
    (selfOwner : UInt32) (range : D) : UInt32 :=
  (e.world.alive.foldl
    (fun (best : UInt32 × D) c =>
      match c.defense, c.ownerId with
      | some dl, some owner =>
          if c.netId = selfNetId ∨ dl.hull.cur ≤ 0 ∨ ¬ hostile selfOwner owner then best
          else
            let dd : D := universeDistance pos c.transform.pos
            if range < dd then best
            else if best.1 = 0 ∨ dd < best.2 ∨ (dd ≤ best.2 ∧ best.2 ≤ dd ∧ c.netId < best.1) then
              (c.netId, dd)
            else best
      | _, _ => best)
    (0, 0)).1

/-- The ally in range whose layer is down the most, zero where there is none. -/
def findRepTarget (e : Entities F) (selfNetId selfOwner : UInt32) (pos : UniversePos) (range : D)
    (layer : DefenseLayer) : UInt32 :=
  (e.world.alive.foldl
    (fun (best : UInt32 × F) c =>
      match c.defense, c.ownerId with
      | some dl, some owner =>
          let l := dl.get layer
          if c.netId = selfNetId ∨ ¬ ally selfOwner owner ∨ dl.hull.cur ≤ 0 ∨ l.max ≤ 0 ∨
              l.max ≤ l.cur ∨ range < (universeDistance pos c.transform.pos : D) then best
          else
            let frac : F := ofInt l.cur / ofInt l.max
            if best.1 = 0 ∨ frac < best.2 ∨
                (frac ≤ best.2 ∧ best.2 ≤ frac ∧ c.netId < best.1) then
              (c.netId, frac)
            else best
      | _, _ => best)
    (0, 2.0)).1

/-- The target of a unit's attack order, zero where it has none. -/
def attackTargetOf (e : Entities F) (netId : UInt32) : UInt32 :=
  match (e.find netId).bind Components.fleetOrder with
  | none => 0
  | some fo => if fo.current.type = .attack then fo.current.targetNetId else 0

/-- Repair a unit's layer. -/
def repair (layer : DefenseLayer) (amount : Int) (c : Components F) : Components F :=
  { c with defense := c.defense.map fun d => (remoteRep d layer amount).2 }

/-- What a module does to its target. -/
def applyEwar (m : ModuleDef F) (c : Components F) : Components F :=
  match m.kind with
  | .jammer => { c with ewar := c.ewar.map fun s => s.applyJam m.duration }
  | .web => { c with ewar := c.ewar.map fun s => s.applyWeb m.strength m.duration }
  | .warpDisruptor =>
      { c with
        ewar := c.ewar.map fun s => s.applyTackle m.duration
        navState := c.navState.map fun nav => { nav with interdicted := true } }
  | .sensorDamp => { c with ewar := c.ewar.map fun s => s.applySensorDamp m.strength m.duration }
  | _ => c

/-- The target of a unit's electronic warfare: what it attacks, or for a base what is
    closest. Zero stands for none. -/
def ewarTarget (e : Entities F) (self : Components F) (attackTarget : UInt32) (owner : UInt32)
    (range : F) : UInt32 :=
  if attackTarget ≠ 0 ∧ hostile owner (e.ownerOf attackTarget) then attackTarget
  else if e.isBase self.netId then
    nearestHostileInRange e self.netId self.transform.pos owner (widen range)
  else 0

/-- A module of a unit acts. -/
def runModule (self : Components F) (owner attackTarget : UInt32) (dt : F) (e : Entities F)
    (mi : ModuleInstance F) : Entities F × ModuleInstance F :=
  let m := mi.info
  if m.kind = .remoteRep then
    let target := findRepTarget e self.netId owner self.transform.pos (widen m.range) m.effectLayer
    if target = 0 then (e, mi)
    else
      let pending := mi.pending + m.strength * dt
      if 1 ≤ pending then
        let amount := trunc pending
        (e.modify target (repair m.effectLayer amount),
          { mi with pending := pending - ofInt amount })
      else (e, { mi with pending := pending })
  else if m.kind ∈ [.jammer, .web, .warpDisruptor, .sensorDamp] then
    let target := ewarTarget e self attackTarget owner m.range
    if target = 0 then (e, mi)
    else
      match e.find target with
      | none => (e, mi)
      | some t =>
          if t.ewar = none ∨
              widen m.range < (universeDistance self.transform.pos t.transform.pos : D) then (e, mi)
          else (e.modify target (applyEwar m), mi)
  else (e, mi)

/-- All modules of a unit, one after the other. -/
def runModules (self : Components F) (owner attackTarget : UInt32) (dt : F) :
    List (ModuleInstance F) → Entities F → Entities F × List (ModuleInstance F)
  | [], e => (e, [])
  | mi :: rest, e =>
      let (e, mi) := runModule self owner attackTarget dt e mi
      let (e, rest) := runModules self owner attackTarget dt rest e
      (e, mi :: rest)

/-- Set the modules of a unit. -/
def setModules (modules : List (ModuleInstance F)) (c : Components F) : Components F :=
  { c with fitting := c.fitting.map fun f => { f with modules := modules } }

/-- The modules of a unit that is not jammed. -/
def ewarLogiUnit (dt : F) (e : Entities F) (i : Nat) (c : Components F) : Entities F :=
  match c.fitting, c.ownerId with
  | some fit, some owner =>
      if ((e.find c.netId).bind Components.ewar).any fun s => decide s.isJammed then e
      else
        let r := runModules c owner (attackTargetOf e c.netId) dt fit.modules e
        r.1.modifyAt i (setModules r.2)
  | _, _ => e

def ewarLogiSystem (dt : F) (e : Entities F) : Entities F :=
  Ecs.visit Entities.world (ewarLogiUnit dt) e

/-! ## Steering -/

def fleetMoveSpeed : F := 2000.0

/-- Go on to the next order. -/
def FleetOrder.next (fo : FleetOrder F) : FleetOrder F :=
  match fo.queue with
  | [] => { fo with current := .initial }
  | entry :: rest => ⟨entry, rest⟩

/-- How close an attacker goes. -/
def attackStandoff (weapon : Option (Weapon F)) : F :=
  match weapon with
  | none => 0
  | some w => w.range * 0.9

/-- The speed of a unit, with a web on it. -/
def unitSpeed (hullInfo : Option (HullInfo F)) (ewar : Option (EwarStatus F)) : F :=
  let speed := match hullInfo with
    | none => fleetMoveSpeed
    | some hi => if 0 < hi.maxSpeed then hi.maxSpeed else fleetMoveSpeed
  speed * (ewar.map EwarStatus.webFactor).getD 1

/-- A unit steers by its order. -/
def steer (dt : F) (e : Entities F) (i : Nat) (c : Components F) : Entities F :=
  match c.fleetOrder with
  | none => e
  | some fo =>
      let self := e.find c.netId
      let maxStep : D := widen (unitSpeed (self.bind Components.hullInfo)
        (self.bind Components.ewar)) * widen dt
      let o := fo.current
      match o.type with
      | .idle => e
      | .move | .retreat =>
          let (tr, there) := stepStandoff c.transform o.targetPoint maxStep 0
          e.modifyAt i fun c =>
            { c with transform := tr, fleetOrder := some (if there then fo.next else fo) }
      | .attack | .guard | .orbit | .keepRange =>
          match e.find o.targetNetId with
          | none => e.modifyAt i fun c => { c with fleetOrder := some fo.next }
          | some target =>
              let standoff : D :=
                if o.type = .attack then widen (attackStandoff (self.bind Components.weapon))
                else widen o.range
              e.modifyAt i fun c =>
                { c with
                  transform := (stepStandoff c.transform target.transform.pos maxStep standoff).1 }

def fleetOrderSystem (dt : F) (e : Entities F) : Entities F :=
  Ecs.visit Entities.world (steer (D := D) dt) e

/-! ## Weapons -/

/-- A blow on a unit: what it met, and with how much. -/
structure Hit (F : Type) where
  victim : UInt32
  killer : UInt32
  layers : DefenseLayers F
  resists : ResistProfile F
  type : DamageType
  effective : F

/-- What the blow did. -/
def Hit.outcome (h : Hit F) : DamageOutcome :=
  (applyTypedDamage h.layers h.resists h.type h.effective).1

structure PendingProjectile (F : Type) where
  src : UInt32
  tgt : UInt32
  origin : UniversePos
  vel : Vec3 F
  info : ModuleDef F

/-- The entities in the middle of a round, the shots on their way and the hits. -/
structure Battle (F : Type) where
  ents : Entities F
  projs : List (PendingProjectile F)
  hits : List (Hit F)

def coolDown (mi : ModuleInstance F) (dt : F) : ModuleInstance F :=
  { mi with cooldown := fmax 0 (mi.cooldown - dt) }

/-- The weapons of a unit without a target. -/
def tickWeaponCooldowns (e : Entities F) (netId : UInt32) (dt : F) : Entities F :=
  e.modify netId fun c =>
    { c with fitting := c.fitting.map fun f =>
      { f with modules := f.modules.map fun mi =>
        if mi.info.kind = .weapon then coolDown mi dt else mi } }

/-- What a shooter knows of its target. -/
structure Aim (F D : Type) where
  selfNetId : UInt32
  selfPos : UniversePos
  targetNetId : UInt32
  targetPos : UniversePos
  resists : ResistProfile F
  dist : D
  signature : F
  speed : F
  jammed : Bool
  damp : F

/-- The velocity of a shot at where the target is. -/
def shotVelocity (selfPos targetPos : UniversePos) (projectileSpeed : F) : Vec3 F :=
  let dx : D := ofInt (targetPos.x - selfPos.x)
  let dy : D := ofInt (targetPos.y - selfPos.y)
  let dz : D := ofInt (targetPos.z - selfPos.z)
  let len := Floating.sqrt (dx * dx + dy * dy + dz * dz)
  if 0 < len then
    let s := widen projectileSpeed / len
    ⟨narrow (dx * s), narrow (dy * s), narrow (dz * s)⟩
  else Vec3.zero

/-- The volley of a unit: its modules after it, the target's layers, and what it made. -/
structure Volley (F : Type) where
  modules : List (ModuleInstance F)
  layers : DefenseLayers F
  projs : List (PendingProjectile F)
  hits : List (Hit F)

/-- One module of a volley. -/
def fireModule (a : Aim F D) (dt : F) (v : Volley F) (mi : ModuleInstance F) : Volley F :=
  if mi.info.kind ≠ .weapon then { v with modules := v.modules ++ [mi] }
  else
    let mi := coolDown mi dt
    if a.jammed ∨ 0 < mi.cooldown ∨ ¬ inEngagementRange mi.info a.dist a.damp then
      { v with modules := v.modules ++ [mi] }
    else
      let rof := mi.info.rateOfFire
      let fired := { mi with cooldown := if 0 < rof then 1 / rof else 1 }
      if mi.info.projectileSpeed ≤ 0 then
        let hit : Hit F :=
          { victim := a.targetNetId, killer := a.selfNetId, layers := v.layers
            resists := a.resists, type := mi.info.damageType
            effective := resolveShotDamage mi.info.baseDamage a.dist mi.info.optimal
              mi.info.falloff mi.info.tracking a.signature a.speed }
        { v with
          modules := v.modules ++ [fired]
          layers := (applyTypedDamage v.layers a.resists hit.type hit.effective).2
          hits := v.hits ++ [hit] }
      else
        let shot : PendingProjectile F :=
          ⟨a.selfNetId, a.targetNetId, a.selfPos,
            shotVelocity (D := D) a.selfPos a.targetPos mi.info.projectileSpeed, fired.info⟩
        { v with modules := v.modules ++ [fired], projs := v.projs ++ [shot] }

/-- The size of a target in the eyes of a shooter. -/
def signatureOf (c : Components F) : F := (c.hullInfo.map HullInfo.signature).getD 100.0

/-- The speed of a target in the eyes of a shooter. -/
def speedOf (c : Components F) : F :=
  (c.hullInfo.map HullInfo.maxSpeed).getD 0 * (c.ewar.map EwarStatus.webFactor).getD 1

/-- Every weapon of a unit that is ready fires at a target. -/
def fireWeapons (b : Battle F) (selfNetId : UInt32) (selfPos : UniversePos) (targetNetId : UInt32)
    (dt : F) : Battle F :=
  match (b.ents.find selfNetId).bind Components.fitting with
  | none => b
  | some fit =>
      let es := (b.ents.find selfNetId).bind Components.ewar
      match b.ents.find targetNetId with
      | none => { b with ents := tickWeaponCooldowns b.ents selfNetId dt }
      | some t =>
          match t.defense, t.resists with
          | some td, some trp =>
              let aim : Aim F D :=
                { selfNetId := selfNetId, selfPos := selfPos, targetNetId := targetNetId
                  targetPos := t.transform.pos, resists := trp
                  dist := universeDistance selfPos t.transform.pos
                  signature := signatureOf t, speed := speedOf t
                  jammed := es.any fun s => decide s.isJammed
                  damp := (es.map EwarStatus.sensorDampFactor).getD 1 }
              let v := fit.modules.foldl (fireModule aim dt) ⟨[], td, b.projs, b.hits⟩
              let ents := b.ents.modify selfNetId (setModules v.modules)
              { ents := ents.modify targetNetId fun c => { c with defense := some v.layers }
                projs := v.projs, hits := v.hits }
          | _, _ => { b with ents := tickWeaponCooldowns b.ents selfNetId dt }

/-- A unit of the fleet fires at what it attacks. A base is not ordered about here. -/
def fleetFires (dt : F) (b : Battle F) (_ : Nat) (c : Components F) : Battle F :=
  match c.fleetOrder, c.fitting with
  | some fo, some _ =>
      if b.ents.isBase c.netId then b
      else if fo.current.type ≠ .attack ∨ fo.current.targetNetId = 0 then
        { b with ents := tickWeaponCooldowns b.ents c.netId dt }
      else fireWeapons (D := D) b c.netId c.transform.pos fo.current.targetNetId dt
  | _, _ => b

/-- An active base fires at the closest hostile unit. -/
def baseFires (dt : F) (b : Battle F) (_ : Nat) (c : Components F) : Battle F :=
  match c.baseTag, c.baseCombat, c.weapon with
  | true, some bc, some w =>
      if bc.state ≠ .active then { b with ents := tickWeaponCooldowns b.ents c.netId dt }
      else
        let owner := b.ents.ownerOf c.netId
        let target := nearestHostileInRange b.ents c.netId c.transform.pos owner (widen w.range : D)
        if target ≠ 0 then fireWeapons (D := D) b c.netId c.transform.pos target dt
        else { b with ents := tickWeaponCooldowns b.ents c.netId dt }
  | _, _, _ => b

/-- The volleys of a step: the fleet first, then the bases. -/
def volleys (dt : F) (e : Entities F) : Battle F :=
  Ecs.visit (fun b => b.ents.world) (baseFires (D := D) dt)
    (Ecs.visit (fun b => b.ents.world) (fleetFires (D := D) dt) ⟨e, [], []⟩)

/-! ## Projectiles -/

/-- The projectiles of a step in flight: those that are done, and the hits. -/
structure Barrage (F : Type) where
  ents : Entities F
  expired : List UInt32
  hits : List (Hit F)

/-- A tick of a projectile. -/
def flyProjectile (subSteps : Nat) (dt : F) (b : Barrage F) (i : Nat) (c : Components F) :
    Barrage F :=
  match c.projectile with
  | none => b
  | some pr =>
      let target := (b.ents.find pr.targetNetId).bind fun t =>
        t.defense.bind fun td => t.resists.map fun trp => (t, td, trp)
      match target with
      | none =>
          -- The target is gone; the shot flies on until its time is up.
          let ttl := pr.ttl - dt
          { b with
            ents := b.ents.modifyAt i fun c =>
              { c with
                transform := { c.transform with pos := flyStraight c.transform.pos pr.vel dt }
                projectile := some { pr with ttl := ttl } }
            expired := if ttl ≤ 0 then b.expired ++ [c.netId] else b.expired }
      | some (t, td, trp) =>
          let radius : D := fmax (widen (signatureOf t)) 80.0
          let r := stepProjectile c.transform.pos pr.vel t.transform.pos t.transform.pos pr.ttl dt
            radius subSteps
          let flown := b.ents.modifyAt i fun c =>
            { c with
              transform := { c.transform with pos := r.pos }
              projectile := some { pr with ttl := r.ttl } }
          if r.hit then
            let dist : D := universeDistance pr.origin r.pos
            let hit : Hit F :=
              { victim := pr.targetNetId, killer := pr.sourceNetId, layers := td, resists := trp
                type := pr.damageType
                effective := resolveShotDamage pr.baseDamage dist pr.optimal pr.falloff
                  pr.tracking (signatureOf t) (speedOf t) }
            { ents := flown.modify pr.targetNetId fun c =>
                { c with defense := some (applyTypedDamage td trp hit.type hit.effective).2 }
              expired := b.expired ++ [c.netId], hits := b.hits ++ [hit] }
          else
            { b with
              ents := flown
              expired := if r.ttl ≤ 0 then b.expired ++ [c.netId] else b.expired }

def barrage (subSteps : Nat) (dt : F) (e : Entities F) : Barrage F :=
  Ecs.visit (fun b => b.ents.world) (flyProjectile subSteps dt) ⟨e, [], []⟩

/-! ## Regeneration -/

def regenUnit (dt : F) (c : Components F) : Components F :=
  { c with
    defense := c.defense.map fun d => regenDefenses d dt
    ewar := c.ewar.map fun s => s.tick dt }

def regenSystem (dt : F) (e : Entities F) : Entities F := e.forEach (regenUnit dt)

/-! ## Movement and travel -/

def moveUnit (dt : F) (c : Components F) : Components F :=
  match c.velocity with
  | none => c
  | some v => { c with transform := integrateMovement c.transform v dt }

def movementSystem (dt : F) (e : Entities F) : Entities F := e.forEach (moveUnit dt)

def navigateUnit (tuning : NavTuning F) (dt : F) (c : Components F) : Components F :=
  match c.navState with
  | none => c
  | some nav =>
      let r := stepNav nav c.transform tuning dt
      { c with navState := some r.2.1, transform := r.2.2 }

def navigationSystem (tuning : NavTuning F) (dt : F) (e : Entities F) : Entities F :=
  e.forEach (navigateUnit tuning dt)

/-! ## The economy -/

/-- Set the phase of a harvester. -/
def setHarvestPhase (ord : HarvestOrder) (phase : HarvestPhase) (c : Components F) :
    Components F :=
  { c with harvestOrder := some { ord with phase := phase } }

/-- A harvester goes on with its round. -/
def harvestUnit (economy : EconomyTuning F) (dt : F) (e : Entities F) (i : Nat)
    (c : Components F) : Entities F :=
  match c.harvestOrder, c.cargo with
  | some ord, some cargo =>
      let maxStep : D := widen economy.harvesterSpeed * widen dt
      let range : D := widen economy.harvestRange
      let nodeEntity := e.find ord.nodeNetId
      let node := nodeEntity.bind Components.resourceNode
      let baseEntity := e.find ord.baseNetId
      let storage := baseEntity.bind Components.storage
      let nodeLeft := node.any fun n => decide (0 < n.remaining)
      match ord.phase with
      | .idle => e
      | .toNode =>
          match nodeEntity, node.filter fun n => ¬ n.remaining ≤ 0 with
          | some ne, some _ =>
              if (universeDistance c.transform.pos ne.transform.pos : D) ≤ range then
                e.modifyAt i (setHarvestPhase ord .harvesting)
              else
                e.modifyAt i fun c =>
                  { c with transform := c.transform.stepToward ne.transform.pos maxStep }
          | _, _ =>
              e.modifyAt i
                (setHarvestPhase ord (if 0 < sumSlots cargo.amount then .toBase else .idle))
      | .harvesting =>
          match node.filter fun n => ¬ n.remaining ≤ 0 with
          | none => e.modifyAt i (setHarvestPhase ord .toBase)
          | some n =>
              let r := harvestStep n cargo economy.harvestRate dt
              let e := e.modify ord.nodeNetId fun c => { c with resourceNode := some r.2.1 }
              e.modifyAt i fun c =>
                { c with
                  cargo := some r.2.2
                  harvestOrder := some
                    { ord with phase := if r.2.2.free ≤ 0 then .toBase else ord.phase } }
      | .toBase =>
          match baseEntity, storage with
          | some be, some _ =>
              if (universeDistance c.transform.pos be.transform.pos : D) ≤ range then
                e.modifyAt i (setHarvestPhase ord .depositing)
              else
                e.modifyAt i fun c =>
                  { c with transform := c.transform.stepToward be.transform.pos maxStep }
          | _, _ => e.modifyAt i (setHarvestPhase ord .idle)
      | .depositing =>
          let next : HarvestPhase := if nodeLeft then .toNode else .idle
          match storage with
          | none => e.modifyAt i (setHarvestPhase ord next)
          | some st =>
              let r := depositAll cargo st
              let e := e.modify ord.baseNetId fun c => { c with storage := some r.2.2 }
              e.modifyAt i fun c =>
                { setHarvestPhase ord next c with cargo := some r.2.1 }
  | _, _ => e

def harvestSystem (economy : EconomyTuning F) (dt : F) (e : Entities F) : Entities F :=
  Ecs.visit Entities.world (harvestUnit (D := D) economy dt) e

/-- The build queue of a unit that has one, a storage and an owner. -/
def buildUnit (economy : EconomyTuning F) (dt : F) (c : Components F) :
    BuildResult × Components F :=
  match c.buildQueue, c.storage, c.ownerId with
  | some q, some s, some _ =>
      let r := buildStep q s economy dt
      (r.1, { c with buildQueue := some r.2.1, storage := some r.2.2 })
  | _, _, _ => (.idle, c)

/-- Bring the hit points that clients see up to date. -/
def syncHealth (c : Components F) : Components F :=
  match c.defense, c.health with
  | some d, some _ => { c with health := some ⟨d.totalCur, d.totalMax⟩ }
  | _, _ => c

def syncHealthMirror (e : Entities F) : Entities F := e.forEach syncHealth

end

namespace ServerUniverse

section

variable {F D : Type} [Floating F] [Floating D] [Widens F D]

/-! ## Kills -/

/-- The part of a ship's cargo that is not lost. -/
def lootItems (u : ServerUniverse F D) (c : Components F) : Amounts F :=
  match c.cargo with
  | none => .zero
  | some cg => ⟨cg.amount.ore * u.lootFraction, cg.amount.ice * u.lootFraction,
      cg.amount.gas * u.lootFraction⟩

/-- A container with the loot of a ship. -/
def lootContainer (u : ServerUniverse F D) (c : Components F) (lootId : UInt32) : Components F :=
  { Components.bare lootId c.transform.pos ⟨lootShapeId, ⟨6⟩⟩ with
    loot := some ⟨u.lootItems c, narrow u.simTime + u.lootExpireSeconds⟩ }

/-- Leave the loot of a ship behind, on record. -/
def spawnLoot (u : ServerUniverse F D) (victimNetId : UInt32) : ServerUniverse F D :=
  match u.ents.find victimNetId with
  | none => u
  | some c =>
      let value := match c.cargo with
        | none => 0
        | some _ => sumSlots (u.lootItems c)
      { u.spawn (u.lootContainer c) with
        econEvents := u.econEvents ++ [⟨.lootDrop, u.nextId, victimNetId, trunc value, u.tick⟩] }

/-- Put a kill on record. -/
def recordKill (u : ServerUniverse F D) (c : Components F) (victimNetId killerNetId : UInt32) :
    ServerUniverse F D :=
  let value := (c.defense.map DefenseLayers.totalMax).getD 0
  { u with
    killmails := u.killmails ++ [⟨victimNetId, killerNetId, c.shapeId.kind, value, u.tick⟩]
    econEvents := u.econEvents ++ [⟨.killmail, victimNetId, killerNetId, value, u.tick⟩] }

/-- A unit is destroyed; a base never is. -/
def onUnitKilled (u : ServerUniverse F D) (victimNetId killerNetId : UInt32) :
    ServerUniverse F D :=
  match u.ents.find victimNetId with
  | none => u
  | some c =>
      if c.baseTag then u
      else
        let recorded := u.recordKill c victimNetId killerNetId
        let looted := if c.shipTag.isSome then recorded.spawnLoot victimNetId else recorded
        looted.destroyUnit victimNetId

/-- One kill of a list: the victim may be gone by then, or not dead. -/
def processKill (u : ServerUniverse F D) (k : Hit F) : ServerUniverse F D :=
  match (u.ents.find k.victim).bind Components.defense with
  | none => u
  | some d => if 0 < d.hull.cur then u else u.onUnitKilled k.victim k.killer

/-- The kills of a round, of the hits that took a hull down. -/
def processKills (u : ServerUniverse F D) (hits : List (Hit F)) : ServerUniverse F D :=
  (hits.filter fun h => h.outcome = .killed).foldl processKill u

/-- The entity of a shot. -/
def projectileEntity (p : PendingProjectile F) (id : UInt32) : Components F :=
  let reach := p.info.optimal + p.info.falloff
  let ttl := if 0 < p.info.projectileSpeed then reach / p.info.projectileSpeed * 1.5 + 0.1 else 0.1
  { Components.bare id p.origin ⟨projShapeId, ⟨5⟩⟩ with
    projectile := some
      { sourceNetId := p.src, targetNetId := p.tgt, damageType := p.info.damageType
        baseDamage := p.info.baseDamage, vel := p.vel, origin := p.origin, ttl := ttl
        optimal := p.info.optimal, falloff := p.info.falloff, tracking := p.info.tracking } }

def spawnProjectileEntity (u : ServerUniverse F D) (p : PendingProjectile F) :
    ServerUniverse F D :=
  u.spawn (projectileEntity p)

def combatSystem (dt : F) (u : ServerUniverse F D) : ServerUniverse F D :=
  let b := volleys (D := D) dt u.ents
  let fired : ServerUniverse F D := { u with ents := b.ents }
  (b.projs.foldl spawnProjectileEntity fired).processKills b.hits

def projectileSystem (dt : F) (u : ServerUniverse F D) : ServerUniverse F D :=
  let b := barrage (D := D) u.projectileSubSteps dt u.ents
  let flown : ServerUniverse F D := { u with ents := b.ents }
  (b.expired.foldl destroyUnit flown).processKills b.hits

/-! ## Retreat -/

/-- What a base does this step. -/
inductive Retreat
  | stays
  | flees
  | arrives

def retreatOf (u : ServerUniverse F D) (c : Components F) : Retreat :=
  match c.baseTag, c.baseCombat, c.defense, c.storage with
  | true, some bc, some d, some _ =>
      if bc.state = .active ∧ d.hullFrac ≤ u.baseRetreatHullFrac then .flees
      else if bc.state = .retreating ∧ bc.retreatUntil ≤ narrow u.simTime then .arrives
      else .stays
  | _, _, _, _ => .stays

/-- A base with a broken hull gets away: it loses its storage, once, and keeps a hull. -/
def retreatUnit (u : ServerUniverse F D) (c : Components F) : Components F :=
  match u.retreatOf c, c.baseCombat, c.defense, c.storage with
  | .flees, some bc, some d, some st =>
      { c with
        baseCombat := some
          ⟨.retreating, narrow u.simTime + u.baseRetreatSeconds, true⟩
        defense := some { d with
          hull := { d.hull with cur := max d.hull.cur (Int.tdiv d.hull.max 4) } }
        storage := some (if bc.cargoLost then st else { st with amount := .zero }) }
  | .arrives, some bc, _, _ => { c with baseCombat := some { bc with state := .disabled } }
  | _, _, _, _ => c

/-- The loss of a storage, on record. -/
def retreatEvent (u : ServerUniverse F D) (c : Components F) : Option EconEvent :=
  match u.retreatOf c, c.baseCombat, c.storage with
  | .flees, some bc, some st =>
      if bc.cargoLost then none
      else
        let lost := trunc st.amount.ore + trunc st.amount.ice + trunc st.amount.gas
        some ⟨.cargoLost, c.netId, 0, lost, u.tick⟩
  | _, _, _ => none

def retreatAlert (u : ServerUniverse F D) (c : Components F) : Option UInt32 :=
  match u.retreatOf c with
  | .flees => some c.netId
  | _ => none

def baseRetreatSystem (u : ServerUniverse F D) : ServerUniverse F D :=
  { u with
    ents := u.ents.forEach u.retreatUnit
    econEvents := u.econEvents ++ u.ents.world.alive.filterMap u.retreatEvent
    lowHullAlerts := u.lowHullAlerts ++ u.ents.world.alive.filterMap u.retreatAlert }

/-! ## Building -/

/-- A build that is done: for whom, and where. -/
def buildDone (economy : EconomyTuning F) (dt : F) (c : Components F) :
    Option (UInt32 × UniversePos) :=
  if (buildUnit economy dt c).1 = .completed then c.ownerId.map fun o => (o, c.transform.pos)
  else none

/-- The ship of a build, unless the owner has no room for it. -/
def deliver (u : ServerUniverse F D) (done : UInt32 × UniversePos) : ServerUniverse F D :=
  let (ship, u) := u.spawnFleetShip done.1 shipShapeId done.2
  if ship ≠ 0 then { u with buildCompleted := u.buildCompleted ++ [ship] } else u

def buildSystem (dt : F) (u : ServerUniverse F D) : ServerUniverse F D :=
  let built : ServerUniverse F D :=
    { u with ents := u.ents.forEach fun c => (buildUnit u.economy dt c).2 }
  (u.ents.world.alive.filterMap (buildDone u.economy dt)).foldl deliver built

/-! ## The step -/

/-- Change the entities. -/
def onEnts (u : ServerUniverse F D) (f : Entities F → Entities F) : ServerUniverse F D :=
  { u with ents := f u.ents }

/-- What a step does before the weapons fire. -/
def beforeCombat (dt : F) (u : ServerUniverse F D) : ServerUniverse F D :=
  u.onEnts fun e => fleetOrderSystem (D := D) dt (ewarLogiSystem dt (aiSystem (D := D) e))

/-- What a step does after combat. -/
def afterCombat (dt : F) (u : ServerUniverse F D) : ServerUniverse F D :=
  let u := u.onEnts fun e =>
    harvestSystem (D := D) u.economy dt (navigationSystem u.nav dt (movementSystem dt e))
  let u := (u.buildSystem dt).onEnts syncHealthMirror
  { u with simTime := u.simTime + widen dt, tick := u.tick + 1 }

/-- One step. -/
def step (dt : F) (u : ServerUniverse F D) : ServerUniverse F D :=
  if u.combatEnabled then
    let u := (u.beforeCombat dt).combatSystem dt
    let u := u.projectileSystem dt
    let u := (u.onEnts (regenSystem dt)).baseRetreatSystem
    u.afterCombat dt
  else
    (u.onEnts fun e => fleetOrderSystem (D := D) dt (aiSystem (D := D) e)).afterCombat dt

end

end ServerUniverse

end Shard

end EarthRise
