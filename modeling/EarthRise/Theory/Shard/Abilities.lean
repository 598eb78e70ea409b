import EarthRise.Theory.Shard.Bases

/-!
# What a Restored Unit Can Do

A restored unit beside a spawned one: which parts it has, and which commands it takes.

Spawning and restoring list the parts of a unit separately. The lists agree for ships and
NPCs, whose fit may be another one than the unit had, as long as the catalog has the fit that
is installed on a restart. They do not agree for bases. A spawned base has a fleet order, which
is there for its Move and Retreat; a restored base has none, so after a restart no base takes
either of them.

A unit is compared with the unit that its spawner would make, which is given what the
restored one has.

## Main definitions

* `Knows`: A catalog has a fit, with its hull.
* `Components.like`, `ServerUniverse.asSpawned`: The restored unit with a spawned unit's parts.
* `Able`: The unit under an id can do what a spawned one can.

## Theorems

* `able_restored_iff`: When all captured units are able after a restart.
* `restored_base_takes`: The commands that a restored base takes.
-/

namespace EarthRise

namespace Shard

open Ecs (World EntityHandle)
open Universe (UniversePos Vec3)

section

variable {F D : Type}

/-! ## The parts of a unit -/

/-- A part that a spawned unit has, as this unit has it. -/
def likePart {α : Type} (own spawned : Option α) : Option α := spawned.map fun a => own.getD a

/-- The parts that a spawned unit has, as this unit has them. -/
def Components.like (c spawned : Components F) : Components F where
  netId := c.netId
  transform := c.transform
  shapeId := c.shapeId
  velocity := likePart c.velocity spawned.velocity
  baseTag := spawned.baseTag
  shipTag := likePart c.shipTag spawned.shipTag
  health := likePart c.health spawned.health
  fuel := likePart c.fuel spawned.fuel
  navState := likePart c.navState spawned.navState
  beaconTag := likePart c.beaconTag spawned.beaconTag
  ownerId := likePart c.ownerId spawned.ownerId
  resourceNode := likePart c.resourceNode spawned.resourceNode
  cargo := likePart c.cargo spawned.cargo
  storage := likePart c.storage spawned.storage
  buildQueue := likePart c.buildQueue spawned.buildQueue
  fleetMember := likePart c.fleetMember spawned.fleetMember
  sensor := likePart c.sensor spawned.sensor
  harvestOrder := likePart c.harvestOrder spawned.harvestOrder
  fleetOrder := likePart c.fleetOrder spawned.fleetOrder
  weapon := likePart c.weapon spawned.weapon
  npcAi := likePart c.npcAi spawned.npcAi
  defense := likePart c.defense spawned.defense
  resists := likePart c.resists spawned.resists
  fitting := likePart c.fitting spawned.fitting
  ewar := likePart c.ewar spawned.ewar
  projectile := likePart c.projectile spawned.projectile
  loot := likePart c.loot spawned.loot
  baseCombat := likePart c.baseCombat spawned.baseCombat
  hullInfo := likePart c.hullInfo spawned.hullInfo

theorem likePart_eq {α : Type} {own spawned : Option α} (h : own.isSome = spawned.isSome) :
    likePart own spawned = own := by
  unfold likePart
  cases spawned with
  | none => exact (Option.isSome_eq_false_iff.mp h |> Option.isNone_iff_eq_none.mp).symm
  | some a =>
      rcases Option.isSome_iff_exists.mp h with ⟨b, rfl⟩
      rfl

/-- A unit with the parts of a spawned unit is as it would be. -/
theorem Components.like_eq {c spawned : Components F} (h : ∀ t, c.has t = spawned.has t) :
    c.like spawned = c := by
  unfold Components.like
  rw [likePart_eq (h .velocity), likePart_eq (h .shipTag), likePart_eq (h .health),
    likePart_eq (h .fuel), likePart_eq (h .navState), likePart_eq (h .beaconTag),
    likePart_eq (h .ownerId), likePart_eq (h .resourceNode), likePart_eq (h .cargo),
    likePart_eq (h .storage), likePart_eq (h .buildQueue), likePart_eq (h .fleetMember),
    likePart_eq (h .sensor), likePart_eq (h .harvestOrder), likePart_eq (h .fleetOrder),
    likePart_eq (h .weapon), likePart_eq (h .npcAi), likePart_eq (h .defense),
    likePart_eq (h .resists), likePart_eq (h .fitting), likePart_eq (h .ewar),
    likePart_eq (h .projectile), likePart_eq (h .loot), likePart_eq (h .baseCombat),
    likePart_eq (h .hullInfo), show spawned.baseTag = c.baseTag from (h .baseTag).symm]

theorem modify_eq_self {w : World (Components F)} {h : EntityHandle} {c : Components F}
    (hc : w.get h = some c) {f : Components F → Components F} (hf : f c = c) :
    w.modify h f = w := by
  unfold World.modify
  rw [if_pos (World.isAlive_iff.mpr ⟨c, hc⟩)]
  unfold World.modifyAt
  have hslot := World.slot_of_get hc
  rcases World.slot_eq_some.mp hslot with ⟨r, hr, hrc⟩
  have hsame : w.records.modify h.index
      (fun r => { r with components := r.components.map f }) = w.records := by
    refine List.ext_getElem? fun i => ?_
    rw [List.getElem?_modify]
    by_cases hi : h.index = i
    · rw [← hi, hr]
      simp only [if_true, Option.map_eq_map, Option.map_some]
      rw [hrc, Option.map_some, hf, ← hrc]
    · simp only [if_neg hi]
      cases w.records[i]? <;> rfl
  rw [hsame]

/-! ## Able units -/

/-- The universe with the parts of a spawned unit under an id. -/
def ServerUniverse.asSpawned (w : ServerUniverse F D) (n : UInt32) (spawned : Components F) :
    ServerUniverse F D :=
  w.modify n fun c => c.like spawned

theorem asSpawned_eq {w : ServerUniverse F D} {n : UInt32} {c spawned : Components F}
    (hc : w.ents.find n = some c) (h : ∀ t, c.has t = spawned.has t) :
    w.asSpawned n spawned = w := by
  rcases Entities.find_eq_some.mp hc with ⟨hd, hn, hget⟩
  unfold ServerUniverse.asSpawned ServerUniverse.modify Entities.modify
  rw [hn]
  simp only []
  have hsame : (w.ents.world.modify hd fun c => c.like spawned) = w.ents.world :=
    modify_eq_self hget (f := fun c => c.like spawned) (Components.like_eq h)
  rw [hsame]

/-- The unit under an id has the parts of a spawned one, and a command is taken as often as
    with a spawned unit in its place. -/
structure Able [Floating F] [Floating D] [Widens F D] (w : ServerUniverse F D) (n : UInt32)
    (spawned : Components F) : Prop where
  parts : ∃ c, w.ents.find n = some c ∧ ∀ t, c.has t = spawned.has t
  takes : ∀ player cmd, ((w.asSpawned n spawned).applyFleetCommand player cmd).1 ≤
    (w.applyFleetCommand player cmd).1

end

section

variable {F D : Type} [Floating F] [Floating D] [Widens F D] {u v w : ServerUniverse F D}
  {n : UInt32} {combat : CombatCatalog F} {order : List EntityHandle}
  {f : Components F → Components F} {c : Components F} {s : PersistState F} {c c' : Components F}

/-- A unit with the parts of a spawned one takes what that one takes. -/
theorem able_of_parts {c spawned : Components F} (hc : w.ents.find n = some c)
    (h : ∀ t, c.has t = spawned.has t) : Able w n spawned :=
  ⟨⟨c, hc, h⟩, fun player cmd => by rw [asSpawned_eq hc h]⟩

/-! ## Fits -/

/-- The catalog has a fit of this name, and its hull. -/
def Knows (combat : CombatCatalog F) (fitName : String) : Prop :=
  ((combat.findFit fitName).bind fun ft => combat.findHull ft.hull).isSome = true

omit [Floating D] [Widens F D] in
theorem installFit_known {fitName : String}
    (h : Knows combat fitName) (c : Components F) :
    ∃ hull mods, installFit combat c fitName = some (installFitDirect c hull mods) := by
  unfold Knows at h
  unfold installFit
  cases hfit : combat.findFit fitName with
  | none =>
      rw [hfit] at h
      exact absurd h Bool.false_ne_true
  | some ft =>
      rw [hfit, Option.bind_some] at h
      rcases Option.isSome_iff_exists.mp h with ⟨hull, hhull⟩
      simp only []
      rw [hhull]
      exact ⟨hull, _, rfl⟩

omit [Floating D] [Widens F D] in
theorem installFit_unknown {fitName : String}
    (h : ¬ Knows combat fitName) (c : Components F) : installFit combat c fitName = none := by
  unfold Knows at h
  unfold installFit
  cases hfit : combat.findFit fitName with
  | none => rfl
  | some ft =>
      rw [hfit, Option.bind_some, Bool.not_eq_true, Option.isSome_eq_false_iff,
        Option.isNone_iff_eq_none] at h
      simp only []
      rw [h]

/-- The parts that a fit brings. -/
def ComponentType.fitted : ComponentType → Bool
  | .defense | .resists | .hullInfo | .ewar | .weapon | .fitting | .health => true
  | _ => false

omit [Floating D] [Widens F D] in
theorem has_installFitDirect (c : Components F) (hull : HullClass F) (mods : List (ModuleDef F))
    (t : ComponentType) : (installFitDirect c hull mods).has t = (t.fitted || c.has t) := by
  cases t <;> rfl

/-! ## What the spawners make -/

def spawnedBase (w : ServerUniverse F D) (start : UniversePos) (vel : Vec3 F) (n : UInt32) :
    Components F :=
  (installFit w.combat (w.baseComponents start vel n) baseFit).getD (w.baseComponents start vel n)

def spawnedShip (w : ServerUniverse F D) (player : UInt32) (shapeId : UInt16) (pos : UniversePos)
    (fitName : String) (n : UInt32) : Components F :=
  installFitOr w.combat (w.shipComponents player shapeId pos n) fitName defaultShipFit

def spawnedGuardian (w : ServerUniverse F D) (pos : UniversePos) (siteId : UInt16)
    (fitName : String) (n : UInt32) : Components F :=
  { installFitOr w.combat (ServerUniverse.npcComponents pos n) fitName npcFit with
    npcAi := some ⟨.defend, pos, ServerUniverse.npcAggroRange, ServerUniverse.npcFleeHpFrac, 0,
      siteId⟩ }

omit [Floating D] [Widens F D] in
/-- The parts of a unit that gets a fit, if the catalog has it. -/
theorem has_installed (c : Components F) (fitName : String)
    (t : ComponentType) : ((installFit combat c fitName).getD c).has t = true ↔
      (Knows combat fitName ∧ t.fitted = true) ∨ c.has t = true := by
  by_cases hknown : Knows combat fitName
  · rcases installFit_known hknown c with ⟨hull, mods, h⟩
    rw [h, Option.getD_some, has_installFitDirect, Bool.or_eq_true]
    exact ⟨fun h => h.imp_left fun h => ⟨hknown, h⟩, fun h => h.imp_left And.right⟩
  · rw [installFit_unknown hknown, Option.getD_none]
    exact ⟨Or.inr, fun h => h.resolve_left fun h => hknown h.1⟩

omit [Floating D] [Widens F D] in
theorem has_installedOr (c : Components F) (fitName otherwise : String)
    (t : ComponentType) : (installFitOr combat c fitName otherwise).has t = true ↔
      ((Knows combat fitName ∨ Knows combat otherwise) ∧ t.fitted = true) ∨ c.has t = true := by
  unfold installFitOr
  by_cases hknown : Knows combat fitName
  · rcases installFit_known hknown c with ⟨hull, mods, h⟩
    rw [h, Option.getD_some, has_installFitDirect, Bool.or_eq_true]
    exact ⟨fun h => h.imp_left fun h => ⟨Or.inl hknown, h⟩, fun h => h.imp_left And.right⟩
  · rw [installFit_unknown hknown, Option.getD_none, has_installed]
    exact or_congr_left (and_congr_left fun _ => (or_iff_right hknown).symm)

/-! ## Restored units beside spawned ones -/

omit [Floating F] [Floating D] [Widens F D] in
theorem has_health (c : Components F) (f : Health → Health) (t : ComponentType) :
    ({ c with health := c.health.map f } : Components F).has t = c.has t := by
  cases t
  case health => exact Option.isSome_map
  all_goals rfl

section

omit [Floating D] [Widens F D]

/-- A restored base has all the parts of a spawned one but the fleet order. -/
theorem restoreBase_has (v : ServerUniverse F D) (builds : List (PersistBuild F))
    (b : PersistBase F) (start : UniversePos) (vel : Vec3 F) (n : UInt32) (t : ComponentType) :
    (v.restoreBase builds b).has t = true ↔
      (spawnedBase v start vel n).has t = true ∧ t ≠ .fleetOrder := by
  unfold ServerUniverse.restoreBase spawnedBase
  simp only []
  rw [has_health, has_installed, has_installed]
  cases t <;> simp [Components.has, ComponentType.fitted, ServerUniverse.baseComponents,
    Components.bare]

/-- A restored ship has the parts of a spawned one, up to the fit. -/
theorem restoreShip_has (v : ServerUniverse F D) (s : PersistShip F) (player : UInt32)
    (shapeId : UInt16) (pos : UniversePos) (fitName : String) (n : UInt32)
    (hfit : Knows v.combat defaultShipFit ∨ ¬ Knows v.combat fitName) (t : ComponentType) :
    (v.restoreShip s).has t = (spawnedShip v player shapeId pos fitName n).has t := by
  rw [Bool.eq_iff_iff]
  unfold ServerUniverse.restoreShip spawnedShip
  simp only []
  rw [has_health, has_installed, has_installedOr]
  refine or_congr (and_congr_left fun _ => ?_) (by cases t <;> exact Iff.rfl)
  exact ⟨Or.inr, fun h => h.elim (fun h => hfit.resolve_right (not_not_intro h)) id⟩

theorem restoreNpc_has (v : ServerUniverse F D) (p : PersistNpc) (pos : UniversePos)
    (siteId : UInt16) (fitName : String) (n : UInt32)
    (hfit : Knows v.combat npcFit ∨ ¬ Knows v.combat fitName) (t : ComponentType) :
    (v.restoreNpc p).has t = (spawnedGuardian v pos siteId fitName n).has t := by
  have hsame : ((installFit v.combat (ServerUniverse.npcComponents p.pos p.netId) npcFit).getD
      (ServerUniverse.npcComponents p.pos p.netId)).has t =
      (installFitOr v.combat (ServerUniverse.npcComponents pos n) fitName npcFit).has t := by
    rw [Bool.eq_iff_iff, has_installed, has_installedOr]
    refine or_congr (and_congr_left fun _ => ?_) (by cases t <;> exact Iff.rfl)
    exact ⟨Or.inr, fun h => h.elim (fun h => hfit.resolve_right (not_not_intro h)) id⟩
  unfold ServerUniverse.restoreNpc spawnedGuardian
  simp only []
  cases t
  case npcAi => rfl
  case health => exact Option.isSome_map.trans hsame
  all_goals exact hsame

end

/-! ## After a restart -/

/-- Every base, ship and NPC of a snapshot can do after a restart what a spawned one can. -/
structure KeepsAbilities (v : ServerUniverse F D) (order : List EntityHandle)
    (s : PersistState F) : Prop where
  bases : ∀ b ∈ s.bases, ∀ start vel, Able (v.restoreState order s) b.netId
    (spawnedBase (v.restoreState order s) start vel b.netId)
  ships : ∀ sh ∈ s.ships, ∀ player shapeId pos fitName, Able (v.restoreState order s) sh.netId
    (spawnedShip (v.restoreState order s) player shapeId pos fitName sh.netId)
  npcs : ∀ p ∈ s.npcs, ∀ pos siteId fitName, Able (v.restoreState order s) p.netId
    (spawnedGuardian (v.restoreState order s) pos siteId fitName p.netId)

/-- There is no base, and if there are ships or NPCs then the catalog has their fit or none. -/
def Restorable (u v : ServerUniverse F D) : Prop :=
  (∀ c ∈ u.ents.world.alive, c.baseTag = false) ∧
    ((∀ c ∈ u.ents.world.alive, c.shipTag = none ∧ c.npcAi = none) ∨
      Knows v.combat defaultShipFit ∨ ∀ fitName, ¬ Knows v.combat fitName)

omit [Widens F D] in
/-- A restored entity is what its id leads to. -/
theorem find_restored (hu : u.Sound) (hv : v.Sound)
    (horder : order.Perm v.handles) (hc : c ∈ v.restored u.captureState)
    (hn : c.netId = n) :
    (v.restoreState order u.captureState).ents.find n = some c :=
  (find_restoreState hu hv horder n c).mpr ⟨hc, hn⟩

section

omit [Floating D] [Widens F D]

theorem mem_restored_base {b : PersistBase F} (hb : b ∈ s.bases) :
    v.restoreBase s.builds b ∈ v.restored s :=
  List.mem_append_left _ (List.mem_append_left _ (List.mem_map_of_mem hb))

theorem mem_restored_ship {sh : PersistShip F} (hs : sh ∈ s.ships) :
    v.restoreShip sh ∈ v.restored s :=
  List.mem_append_left _ (List.mem_append_right _ (List.mem_map_of_mem hs))

theorem mem_restored_npc {p : PersistNpc} (hp : p ∈ s.npcs) :
    v.restoreNpc p ∈ v.restored s :=
  List.mem_append_right _ (List.mem_map_of_mem hp)

end

theorem keepsAbilities_of_restorable (hu : u.Sound) (hv : v.Sound)
    (horder : order.Perm v.handles) (h : Restorable u v) :
    KeepsAbilities v order u.captureState := by
  have hfit : (∃ c ∈ u.ents.world.alive, ¬ (c.shipTag = none ∧ c.npcAi = none)) →
      ∀ fitName, Knows v.combat defaultShipFit ∨ ¬ Knows v.combat fitName := by
    rintro ⟨c, hc, hunit⟩ fitName
    rcases h.2 with hno | hknown | hnone
    · exact absurd (hno c hc) hunit
    · exact Or.inl hknown
    · exact Or.inr (hnone fitName)
  refine ⟨?_, ?_, ?_⟩
  · intro b hb
    rcases mem_captured_bases hb with ⟨c, hc, hbase, _⟩
    rw [h.1 c hc] at hbase
    exact absurd hbase Bool.false_ne_true
  · intro sh hs player shapeId pos fitName
    rcases List.mem_filterMap.mp hs with ⟨c, hc, hcap⟩
    have htag := (captureShip_eq_some hcap).1
    have hunit : ¬ (c.shipTag = none ∧ c.npcAi = none) := by
      rintro ⟨hnone, _⟩
      rw [hnone] at htag
      exact absurd htag Bool.false_ne_true
    exact able_of_parts (find_restored hu hv horder (mem_restored_ship hs) (restoreShip_netId v sh))
      (restoreShip_has v sh player shapeId pos fitName _ (hfit ⟨c, hc, hunit⟩ fitName))
  · intro p hp pos siteId fitName
    rcases List.mem_filterMap.mp hp with ⟨c, hc, hcap⟩
    have hai := (captureNpc_eq_some hcap).1
    have hunit : ¬ (c.shipTag = none ∧ c.npcAi = none) := by
      rintro ⟨_, hnone⟩
      rw [hnone] at hai
      exact absurd hai Bool.false_ne_true
    exact able_of_parts (find_restored hu hv horder (mem_restored_npc hp) (restoreNpc_netId v p))
      (restoreNpc_has v p pos siteId fitName _ (hfit ⟨c, hc, hunit⟩ fitName))

/-- The parts that the unit under an id has are those of the restored unit. -/
theorem Able.has_eq (hu : u.Sound) (hv : v.Sound)
    (horder : order.Perm v.handles) {c spawned : Components F}
    (h : Able (v.restoreState order u.captureState) n spawned)
    (hc : c ∈ v.restored u.captureState) (hn : c.netId = n) (t : ComponentType) :
    c.has t = spawned.has t := by
  rcases h.parts with ⟨c', hc', hparts⟩
  rw [find_restored hu hv horder hc hn, Option.some.injEq] at hc'
  rw [hc']
  exact hparts t

theorem restorable_of_keepsAbilities (hu : u.Sound) (hv : v.Sound)
    (horder : order.Perm v.handles) (h : KeepsAbilities v order u.captureState) :
    Restorable u v := by
  constructor
  · intro c hc
    cases hbase : c.baseTag with
    | false => rfl
    | true =>
        have hb : u.captureBase c ∈ u.captureState.bases :=
          List.mem_map_of_mem (List.mem_filter.mpr ⟨hc, hbase⟩)
        have hsame := (h.bases _ hb ⟨0, 0, 0⟩ Vec3.zero).has_eq hu hv horder
          (mem_restored_base hb) (restoreBase_netId v _ _) .fleetOrder
        have hspawned : (spawnedBase (v.restoreState order u.captureState) ⟨0, 0, 0⟩ Vec3.zero
            (u.captureBase c).netId).has .fleetOrder = true := by
          unfold spawnedBase
          rw [has_installed]
          exact Or.inr rfl
        rw [hspawned] at hsame
        have hlacks := (restoreBase_has v u.captureState.builds (u.captureBase c) ⟨0, 0, 0⟩
          Vec3.zero 0 .fleetOrder).mp hsame
        exact absurd rfl hlacks.2
  · by_cases hunits : ∀ c ∈ u.ents.world.alive, c.shipTag = none ∧ c.npcAi = none
    · exact Or.inl hunits
    · refine Or.inr (or_iff_not_imp_left.mpr fun hdefault fitName hknown => hunits ?_)
      -- A unit with another fit than the missing one would have more parts.
      intro c hc
      have hnpc : c.npcAi = none := by
        cases hai : c.npcAi with
        | none => rfl
        | some ai =>
            have hcap : u.captureNpc c = some
                { netId := c.netId, pos := c.transform.pos
                  hp := ((u.part c.netId Components.health).map Health.hp).getD 0
                  siteId := ai.siteId, aiState := ai.state } := by
              unfold ServerUniverse.captureNpc
              rw [hai]
            have hp := List.mem_filterMap.mpr ⟨c, hc, hcap⟩
            have hsame := (h.npcs _ hp ⟨0, 0, 0⟩ 0 fitName).has_eq hu hv horder
              (mem_restored_npc hp) (restoreNpc_netId v _) .defense
            have hspawned : (spawnedGuardian (v.restoreState order u.captureState) ⟨0, 0, 0⟩ 0
                fitName c.netId).has .defense = true :=
              (has_installedOr _ fitName npcFit .defense).mpr (Or.inl ⟨Or.inl hknown, rfl⟩)
            rw [hspawned] at hsame
            rcases (has_installed _ npcFit .defense).mp hsame with hfit | hno
            · exact absurd hfit.1 hdefault
            · exact absurd hno Bool.false_ne_true
      refine ⟨?_, hnpc⟩
      cases htag : c.shipTag with
      | none => rfl
      | some shipType =>
          have hpart : (u.part c.netId Components.npcAi).isSome = false := by
            rw [part_of_alive hu hc, hnpc]
            rfl
          have hcap : ∃ sh, u.captureShip c = some sh ∧ sh.netId = c.netId := by
            unfold ServerUniverse.captureShip
            rw [htag]
            simp only []
            rw [hpart]
            exact ⟨_, rfl, rfl⟩
          rcases hcap with ⟨sh, hcap, _⟩
          have hs := List.mem_filterMap.mpr ⟨c, hc, hcap⟩
          have hsame := (h.ships _ hs 0 0 ⟨0, 0, 0⟩ fitName).has_eq hu hv horder
            (mem_restored_ship hs) (restoreShip_netId v sh) .defense
          have hspawned : (spawnedShip (v.restoreState order u.captureState) 0 0 ⟨0, 0, 0⟩
              fitName sh.netId).has .defense = true :=
            (has_installedOr _ fitName defaultShipFit .defense).mpr (Or.inl ⟨Or.inl hknown, rfl⟩)
          rw [hspawned] at hsame
          unfold ServerUniverse.restoreShip at hsame
          simp only [] at hsame
          rw [has_health] at hsame
          rcases (has_installed _ defaultShipFit .defense).mp hsame with hfit | hno
          · exact absurd hfit.1 hdefault
          · exact absurd hno Bool.false_ne_true

/-- All captured units can do after a restart what spawned ones can just if none of them is a
    base and their fit is there. -/
theorem able_restored_iff (hu : u.Reachable) (hv : v.Reachable) {order : List EntityHandle}
    (horder : order.Perm v.handles) :
    KeepsAbilities v order u.captureState ↔ Restorable u v :=
  ⟨restorable_of_keepsAbilities hu.sound hv.sound horder,
    keepsAbilities_of_restorable hu.sound hv.sound horder⟩

/-! ## What a restored base takes -/

omit [Floating D] [Widens F D] in
theorem restoreBase_part (v : ServerUniverse F D) (builds : List (PersistBuild F))
    (b : PersistBase F) (start : UniversePos) (vel : Vec3 F) (n : UInt32) {t : ComponentType}
    (ht : t ≠ .fleetOrder) :
    (v.restoreBase builds b).has t = (spawnedBase v start vel n).has t := by
  rw [Bool.eq_iff_iff, restoreBase_has v builds b start vel n]
  exact and_iff_left ht

omit [Floating D] [Widens F D] in
theorem not_has_restoreBase (v : ServerUniverse F D) (builds : List (PersistBuild F))
    (b : PersistBase F) : (v.restoreBase builds b).cargo = none ∧
      (v.restoreBase builds b).fleetOrder = none ∧ (v.restoreBase builds b).baseTag = true := by
  unfold ServerUniverse.restoreBase
  simp only []
  exact installFitGetD_induct
    (P := fun c => c.cargo = none ∧ c.fleetOrder = none ∧ c.baseTag = true)
    ⟨rfl, rfl, rfl⟩ (fun _ _ => ⟨rfl, rfl, rfl⟩) baseFit

/-- What decides over the orders that need no fleet order. -/
structure SameStanding (c c' : Components F) : Prop where
  transform : c'.transform = c.transform
  navState : c'.navState = c.navState
  fuel : c'.fuel = c.fuel
  buildQueue : c'.buildQueue = c.buildQueue
  baseTag : c'.baseTag = c.baseTag

theorem jump_same
    (hc : w.ents.find n = some c) (hc' : (w.modify n f).ents.find n = some c')
    (h : SameStanding c c') (dest : String) :
    ((w.modify n f).beginJumpTo n dest).1 = (w.beginJumpTo n dest).1 := by
  have hnear : ∀ pos range, (w.modify n f).nearestBeaconWithin pos range =
      w.nearestBeaconWithin pos range := fun _ _ => rfl
  unfold ServerUniverse.beginJumpTo
  rw [hc, hc']
  simp only [h.transform, h.navState, h.fuel, h.baseTag, hnear]
  cases c.navState with
  | none => rfl
  | some nav =>
      cases c.fuel with
      | none => rfl
      | some fuel =>
          simp only []
          rw [show (w.modify n f).beaconName = w.beaconName from rfl,
            show (w.modify n f).nav = w.nav from rfl,
            show (w.modify n f).dataset = w.dataset from rfl]
          cases Assoc.lookup w.beaconName dest with
          | none => rfl
          | some i =>
              simp only []
              cases w.nearestBeaconWithin c.transform.pos w.nav.beaconUseRange with
              | none => rfl
              | some j =>
                  simp only []
                  cases w.dataset.beacons[j]? with
                  | none => rfl
                  | some src =>
                      cases w.dataset.beacons[i.toNat]? with
                      | none => rfl
                      | some b =>
                          simp only []
                          rw [apply_ite Prod.fst, apply_ite Prod.fst, apply_ite Prod.fst,
                            apply_ite Prod.fst]

section

omit [Floating D] [Widens F D]

theorem warp_same
    (hc : w.ents.find n = some c) (hc' : (w.modify n f).ents.find n = some c')
    (h : SameStanding c c') (dest : UniversePos) :
    ((w.modify n f).beginWarpTo n dest).1 = (w.beginWarpTo n dest).1 := by
  unfold ServerUniverse.beginWarpTo
  rw [hc, hc', Option.bind_some, Option.bind_some, h.navState]
  cases c.navState with
  | none => rfl
  | some nav =>
      simp only []
      rw [apply_ite Prod.fst, apply_ite Prod.fst]

theorem build_same
    (hc : w.ents.find n = some c) (hc' : (w.modify n f).ents.find n = some c')
    (h : SameStanding c c') : ((w.modify n f).enqueueBuild n).1 = (w.enqueueBuild n).1 := by
  unfold ServerUniverse.enqueueBuild
  rw [hc, hc', Option.bind_some, Option.bind_some, h.buildQueue]
  cases c.buildQueue with
  | none => rfl
  | some q =>
      simp only []
      rw [apply_ite Prod.fst, apply_ite Prod.fst]

/-- What has no cargo neither harvests nor claims. -/
theorem no_cargo_refuses {n node : UInt32} (hc : w.ents.find n = some c)
    (hcargo : c.cargo = none) :
    (w.orderHarvest n node).1 = false ∧ (w.claimLoot n node).1 = false := by
  constructor
  · unfold ServerUniverse.orderHarvest
    rw [hc]
    simp only []
    cases c.ownerId with
    | none => rfl
    | some owner =>
        simp only []
        rw [if_neg]
        rw [hcargo]
        exact fun h => absurd h.1 Bool.false_ne_true
  · unfold ServerUniverse.claimLoot
    rw [hc, Option.bind_some, hcargo]
    cases (w.ents.find node).bind Components.loot <;> rfl

end

omit [Floating F] [Floating D] [Widens F D] in
/-- A base takes no stance. -/
theorem base_refuses_stance (hc : w.ents.find n = some c)
    (hbase : c.baseTag = true) (type : OrderType) (cmd : FleetCommand F) :
    (w.pushStance n type cmd).1 = false := by
  unfold ServerUniverse.pushStance
  rw [if_pos]
  left
  unfold Entities.isBase
  rw [hc, Option.any_some, hbase]

omit [Floating F] [Floating D] [Widens F D] in
/-- What has no fleet order cannot be steered. -/
theorem no_order_refuses (hc : w.ents.find n = some c)
    (hfleet : c.fleetOrder = none) (entry : FleetOrderEntry F) (queue : Bool) :
    (w.pushOrder n entry queue).1 = false := by
  unfold ServerUniverse.pushOrder
  rw [hc, Option.bind_some, hfleet]

/-- A restored base takes what a spawned one takes, except Move and Retreat, which it never
    takes. -/
theorem restored_base_takes (hu : u.Reachable) (hv : v.Reachable) {order : List EntityHandle}
    (horder : order.Perm v.handles) {b : PersistBase F} (hb : b ∈ u.captureState.bases)
    (start : UniversePos) (vel : Vec3 F) (cmd : FleetCommand F) :
    ((v.restoreState order u.captureState).applyIntentToUnit b.netId cmd).1 =
      ((((v.restoreState order u.captureState).asSpawned b.netId
        (spawnedBase v start vel b.netId)).applyIntentToUnit b.netId cmd).1 &&
        decide (cmd.intent ≠ .move ∧ cmd.intent ≠ .retreat)) := by
  have hc := find_restored hu.sound hv.sound horder (mem_restored_base hb)
    (restoreBase_netId v u.captureState.builds b)
  have hw := restoreState_sound hu.sound hv.sound horder
  have hsame := fun t => restoreBase_part v u.captureState.builds b start vel b.netId (t := t)
  rcases not_has_restoreBase v u.captureState.builds b with ⟨hcargo, hfleet, hbase⟩
  generalize v.restoreState order u.captureState = w at hc hw ⊢
  generalize v.restoreBase u.captureState.builds b = c at hc hsame hcargo hfleet hbase
  generalize spawnedBase v start vel b.netId = spawned at hsame ⊢
  -- The unit with the parts of a spawned one differs in its fleet order only.
  have hc' : (w.asSpawned b.netId spawned).ents.find b.netId = some (c.like spawned) := by
    have hfind := hw.ents.find_modify b.netId (fun c => c.like spawned) b.netId
    rw [if_pos rfl, hc, Option.map_some] at hfind
    exact hfind
  have hstanding : SameStanding c (c.like spawned) :=
    ⟨rfl, likePart_eq (hsame .navState (by decide)), likePart_eq (hsame .fuel (by decide)),
      likePart_eq (hsame .buildQueue (by decide)), (hsame .baseTag (by decide)).symm⟩
  have hcargo' : (c.like spawned).cargo = none :=
    (likePart_eq (hsame .cargo (by decide))).trans hcargo
  have hbase' : (c.like spawned).baseTag = true := hstanding.baseTag.trans hbase
  unfold ServerUniverse.applyIntentToUnit
  cases cmd.intent with
  | stop => rfl
  | move => exact (no_order_refuses hc hfleet _ _).trans (Bool.and_false _).symm
  | attack => rw [base_refuses_stance hc hbase, base_refuses_stance hc' hbase']; rfl
  | guard => rw [base_refuses_stance hc hbase, base_refuses_stance hc' hbase']; rfl
  | orbit => rw [base_refuses_stance hc hbase, base_refuses_stance hc' hbase']; rfl
  | keepRange => rw [base_refuses_stance hc hbase, base_refuses_stance hc' hbase']; rfl
  | harvest => rw [(no_cargo_refuses hc hcargo).1, (no_cargo_refuses hc' hcargo').1]; rfl
  | warp => exact (warp_same hc hc' hstanding _).symm.trans (Bool.and_true _).symm
  | jump =>
      have hjump : ((w.asSpawned b.netId spawned).beginJumpTo b.netId cmd.beacon).1 =
          (w.beginJumpTo b.netId cmd.beacon).1 := jump_same hc hc' hstanding _
      simp only []
      rw [hjump]
      exact (Bool.and_true _).symm
  | retreat =>
      simp only []
      rw [show decide (IntentType.retreat ≠ .move ∧ IntentType.retreat ≠ .retreat) = false from rfl,
        Bool.and_false]
      split
      · rfl
      · split
        · rfl
        · exact no_order_refuses hc hfleet _ _
  | build => exact (build_same hc hc' hstanding).symm.trans (Bool.and_true _).symm
  | claimLoot => rw [(no_cargo_refuses hc hcargo).2, (no_cargo_refuses hc' hcargo').2]; rfl
  | other => rfl

end

/-- A shard with a single base. -/
def loneBase : ServerUniverse Float32 Float :=
  [.spawnBase ⟨0, 0, 0⟩ Vec3.zero].foldl ServerUniverse.apply .fresh

/-- The base is told to move. -/
def moveBase : FleetCommand Float32 := ⟨.move, false, [1], 0, ⟨100, 0, 0⟩, 0, ""⟩

/-- The base moves when it is told to, and after a restart it does not. -/
theorem base_stuck_after_restart :
    (loneBase.applyFleetCommand 1 moveBase).1 = 1 ∧
      (((ServerUniverse.fresh : ServerUniverse Float32 Float).restoreState []
        loneBase.captureState).applyFleetCommand 1 moveBase).1 = 0 ∧
      ¬ KeepsAbilities (.fresh : ServerUniverse Float32 Float) [] loneBase.captureState := by
  refine ⟨by decide +kernel, by decide +kernel, fun h => ?_⟩
  have hreach : loneBase.Reachable := reachable_applyAll .fresh _ (by decide +kernel)
  have hno := (restorable_of_keepsAbilities hreach.sound fresh_sound (List.Perm.refl []) h).1
  exact absurd hno (by decide +kernel)

/-- A shard with a ship whose base is gone. -/
def loneShip : ServerUniverse Float32 Float :=
  [.spawnFleetShip 7 shipShapeId ⟨0, 0, 0⟩ "fighter-em"].foldl ServerUniverse.apply .fresh

theorem able_restored_loneShip :
    KeepsAbilities (.fresh : ServerUniverse Float32 Float) [] loneShip.captureState := by
  have hreach : loneShip.Reachable := reachable_applyAll .fresh _ (by decide +kernel)
  refine (able_restored_iff hreach .fresh (List.Perm.refl [])).mpr ⟨by decide +kernel, ?_⟩
  refine Or.inr (Or.inl ?_)
  unfold Knows
  decide +kernel

/-- The restored base does not take the move. -/
theorem restored_loneBase_takes : ∃ b ∈ loneBase.captureState.bases,
    (((ServerUniverse.fresh : ServerUniverse Float32 Float).restoreState []
      loneBase.captureState).applyIntentToUnit b.netId moveBase).1 = false := by
  have hreach : loneBase.Reachable := reachable_applyAll .fresh _ (by decide +kernel)
  have hbase : loneBase.captureState.bases ≠ [] := by decide +kernel
  rcases List.exists_mem_of_ne_nil _ hbase with ⟨b, hb⟩
  exact ⟨b, hb, (restored_base_takes hreach .fresh (List.Perm.refl []) hb ⟨0, 0, 0⟩ Vec3.zero
    moveBase).trans (Bool.and_false _)⟩

end Shard

end EarthRise
