import EarthRise.Lib.Exact
import EarthRise.Theory.Shard.Sight

/-!
# Tackled Units and Travel

A tackled unit is to stay where it is.

Two things keep a unit: the time for which it is tackled, and the mark that its journey is
interdicted. A warp disruptor sets both. The mark alone ends a warp or a jump, and setting out
takes it away; the time alone says that the unit is tackled, and nothing that sets out asks for
it. So a tackled unit stays exactly as long as no order to set out reaches it that it is
otherwise free to take. While a disruptor reaches a unit the mark is set in every step, before
anybody travels, and the unit stays whatever it was ordered.

## Main definitions

* `Components.Tackled`, `Components.Stays`: A tackled unit, and one that a step of its journey
  leaves where it is.
* `Departure`, `ServerUniverse.departures`: The orders to set out in a call.
* `ServerUniverse.TackleHolds`: Nobody that is tackled travels in a call.
* `ServerUniverse.NobodyFree`: No order to set out reaches a tackled unit that is free to take
  it.
* `Components.Held`: The invariant: a tackled unit that travels is interdicted.
* `ServerUniverse.Disrupted`: A warp disruptor reaches a unit in a step.

## Theorems

* `accepts_iff`: Who sets out.
* `Everyone.held_step`, `held_reached`: The invariant is kept.
* `disrupted_stays`: Who is disrupted stays.
* `tackle_holds_iff`: Runs.
-/

namespace EarthRise

namespace Shard

open Ecs (World EntityHandle)
open Universe (UniversePos Vec3)

section

variable {F D : Type} [Floating F] [Floating D] [Widens F D]

/-! ## Tackled units -/

def Components.Tackled (c : Components F) : Prop := ∃ s, c.ewar = some s ∧ s.isTackled

/-- A step of its journey leaves the unit where it is, and does not end the journey at its
    destination. -/
def Components.Stays (tuning : NavTuning F) (dt : F) (c : Components F) : Prop :=
  ∀ nav, c.navState = some nav →
    (stepNav nav c.transform tuning dt).1 ≠ .arrived ∧
      (stepNav nav c.transform tuning dt).1 ≠ .jumped ∧
      (stepNav nav c.transform tuning dt).2.2 = c.transform

/-- A journey of the unit is interdicted. -/
def Components.Halted (c : Components F) : Prop :=
  ∀ nav, c.navState = some nav → nav.phase.travels = true → nav.interdicted = true

/-- A tackled unit that travels is interdicted. -/
def Components.Held (c : Components F) : Prop := c.Tackled → c.Halted

/-- Nobody is tackled by the time that passes. It holds of a time that is not negative. -/
def Forward (dt : F) : Prop := ∀ t : F, 0 < fmax 0 (t - dt) → 0 < t

/-! ## Orders to set out -/

/-- Where a unit is to go. -/
inductive Departure
  | warp (dest : UniversePos)
  | jump (beacon : String)

def FleetCommand.departure (cmd : FleetCommand F) : Option Departure :=
  match cmd.intent with
  | .warp => some (.warp cmd.targetPoint)
  | .jump => some (.jump cmd.beacon)
  | _ => none

/-- An order to set out, with the universe that it meets. -/
structure Setting (F D : Type) where
  sim : ServerUniverse F D
  unit : UInt32
  departure : Departure

/-- The order is accepted. -/
def Setting.accepted (x : Setting F D) : Bool :=
  match x.departure with
  | .warp dest => (x.sim.beginWarpTo x.unit dest).1
  | .jump beacon => decide ((x.sim.beginJumpTo x.unit beacon).1 = .accepted)

/-- The unit is tackled when the order reaches it. -/
def Setting.Tackled (x : Setting F D) : Prop :=
  ∃ c, x.sim.ents.find x.unit = some c ∧ c.Tackled

/-- Nothing but its being tackled keeps the unit: it is idle, and for a jump it has the fuel and
    is at a beacon that is linked to the destination. -/
def Setting.Free (x : Setting F D) : Prop :=
  ∃ c nav, x.sim.ents.find x.unit = some c ∧ c.navState = some nav ∧
    match x.departure with
    | .warp _ => nav.phase = .idle
    | .jump beacon => ∃ fuel j i src dest, c.fuel = some fuel ∧
        Assoc.lookup x.sim.beaconName beacon = some j ∧
        x.sim.nearestBeaconWithin c.transform.pos x.sim.nav.beaconUseRange = some i ∧
        x.sim.dataset.beacons[i]? = some src ∧ x.sim.dataset.beacons[j.toNat]? = some dest ∧
        dest.name ∈ src.links ∧ checkJumpReady nav fuel
          (if c.baseTag then x.sim.nav.jumpFuelBase else x.sim.nav.jumpFuelShip) = .accepted

namespace ServerUniverse

/-- The orders to set out of a fleet command. -/
def commandDepartures (player : UInt32) (cmd : FleetCommand F) :
    List UInt32 → ServerUniverse F D → List (Setting F D)
  | [], _ => []
  | n :: units, u =>
      if (u.ents.find n).bind Components.ownerId = some player then
        (cmd.departure.map fun d => ⟨u, n, d⟩).toList ++
          commandDepartures player cmd units (u.applyIntentToUnit n cmd).2
      else commandDepartures player cmd units u

/-- The orders to set out of a call. -/
def departures (u : ServerUniverse F D) : Op F → List (Setting F D)
  | .beginWarpTo n dest => [⟨u, n, .warp dest⟩]
  | .beginJumpTo n beacon => [⟨u, n, .jump beacon⟩]
  | .applyFleetCommand player cmd => u.commandDepartures player cmd cmd.units
  | _ => []

/-- The universe in which the units travel in a step. -/
def atTravel (dt : F) (u : ServerUniverse F D) : ServerUniverse F D :=
  (beforeTravel dt u).onEnts (movementSystem dt)

/-- Electronic warfare up to the turn of a slot. -/
def ewarTurn (dt : F) (e : Entities F) (i : Nat) : Entities F :=
  (List.range i).foldl (fun e j => (e.world.slot j).elim e (ewarLogiUnit dt e j)) e

end ServerUniverse

/-- A module of a unit reaches a hostile one that it can do something to. -/
structure Reach (D : Type) [Floating D] [Widens F D] (e : Entities F) (c : Components F)
    (owner n : UInt32) (mi : ModuleInstance F) (t : Components F) : Prop where
  named : n ≠ 0
  hostile : Shard.hostile owner (e.ownerOf n)
  target : e.find n = some t
  exposed : t.ewar.isSome = true
  near : ¬ widen mi.info.range < (universeDistance c.transform.pos t.transform.pos : D)

/-- A unit that is not jammed attacks a hostile one and has a warp disruptor that reaches it. -/
structure Disrupts (D : Type) [Floating D] [Widens F D] (e : Entities F) (c : Components F)
    (n : UInt32) (fit : Fitting F) (owner : UInt32) (mi : ModuleInstance F)
    (t : Components F) : Prop where
  fitting : c.fitting = some fit
  owned : c.ownerId = some owner
  clear : ¬ ((e.find c.netId).bind Components.ewar).any fun s => decide s.isJammed
  module : mi ∈ fit.modules
  disruptor : mi.info.kind = .warpDisruptor
  attacks : attackTargetOf e c.netId = n
  reach : Reach D e c owner n mi t

namespace ServerUniverse

/-- In a step a warp disruptor reaches a unit. -/
def Disrupted (dt : F) (u : ServerUniverse F D) (n : UInt32) : Prop :=
  u.combatEnabled = true ∧ ∃ i c fit owner mi t,
    (ewarTurn dt (aiSystem (D := D) u.ents) i).world.slot i = some c ∧
      Disrupts D (ewarTurn dt (aiSystem (D := D) u.ents) i) c n fit owner mi t

/-- Nobody that is tackled sets out in a call or travels in a step. -/
structure TackleHolds (u : ServerUniverse F D) (o : Op F) : Prop where
  departures : ∀ x ∈ u.departures o, x.Tackled → x.accepted = false
  travel : ∀ dt, o = .step dt → ∀ c ∈ (u.atTravel dt).ents.world.alive,
    c.Tackled → c.Stays (u.atTravel dt).nav dt

/-- No order to set out of a call reaches a tackled unit that is free to take it. -/
def NobodyFree (u : ServerUniverse F D) (o : Op F) : Prop :=
  ∀ x ∈ u.departures o, ¬ (x.Tackled ∧ x.Free)

end ServerUniverse

/-! ## Who sets out -/

omit [Floating D] [Widens F D] in
theorem beginWarpTo_accepts (u : ServerUniverse F D) (n : UInt32) (dest : UniversePos) :
    (u.beginWarpTo n dest).1 = true ↔
      ∃ c nav, u.ents.find n = some c ∧ c.navState = some nav ∧ nav.phase = .idle := by
  constructor
  · intro h
    rcases beginWarpTo_cases u n dest with hno | ⟨c, nav, _, hc, hnav, hidle, _⟩
    · rw [hno] at h
      exact absurd h Bool.false_ne_true
    · exact ⟨c, nav, hc, hnav, hidle⟩
  · rintro ⟨c, nav, hc, hnav, hidle⟩
    unfold ServerUniverse.beginWarpTo
    rw [hc, Option.bind_some, hnav]
    simp only [hidle, ne_eq, not_true_eq_false, if_false]

/-- An order to set out is accepted exactly if nothing but a tackle could keep the unit. -/
theorem accepts_iff (x : Setting F D) : x.accepted = true ↔ x.Free := by
  rcases x with ⟨u, n, _ | beacon⟩
  · exact beginWarpTo_accepts u n _
  · unfold Setting.accepted Setting.Free ServerUniverse.beginJumpTo
    simp only [decide_eq_true_eq]
    constructor
    · intro h
      split at h
      · exact JumpReject.noConfusion h
      · rename_i c hc
        split at h
        · rename_i nav fuel hnav hfuel
          split at h
          · exact JumpReject.noConfusion h
          · rename_i j hj
            split at h
            · exact JumpReject.noConfusion h
            · rename_i i hi
              split at h
              · rename_i src dest hsrc hdest
                split at h
                · exact JumpReject.noConfusion h
                · rename_i hlink
                  refine ⟨c, nav, hc, hnav, fuel, j, i, src, dest, hfuel, hj, hi, hsrc, hdest,
                    Decidable.not_not.mp hlink, ?_⟩
                  by_contra hready
                  rw [if_pos hready] at h
                  exact hready h
              · exact JumpReject.noConfusion h
        · exact JumpReject.noConfusion h
    · rintro ⟨c, nav, hc, hnav, fuel, j, i, src, dest, hfuel, hj, hi, hsrc, hdest, hlink, hready⟩
      rw [hc]
      simp only [hnav, hfuel, hj, hi, hsrc, hdest, hlink, hready, not_true_eq_false, ne_eq, if_false]

/-- The orders to set out of a call are refused to the tackled exactly if none of those is free
    to take it. -/
theorem departures_refused_iff (u : ServerUniverse F D) (o : Op F) :
    (∀ x ∈ u.departures o, x.Tackled → x.accepted = false) ↔ u.NobodyFree o := by
  refine forall₂_congr fun x _ => ?_
  rw [not_and, ← accepts_iff, Bool.not_eq_true]

/-! ## What leaves journeys alone -/

variable {P : Components F → Prop} {u u' v : ServerUniverse F D} {x : Effect} {dt : F} {n : UInt32}
  {c : Components F} {c t : Components F} {mi : ModuleInstance F}

/-- A property of what an entity is, of its journey and of what electronic warfare has done to
    it. -/
def Settles (P : Components F → Prop) : Prop :=
  ∀ c c' : Components F, c'.identity = c.identity → c'.navState = c.navState →
    c'.ewar = c.ewar → P c → P c'

/-- The effect touches no journey and no electronic warfare. -/
def Effect.calm (x : Effect) : Prop :=
  x.interdicts = false ∧ x.travels = false ∧ x.decays = false

instance (x : Effect) : Decidable x.calm := inferInstanceAs (Decidable (_ ∧ _))

namespace Everyone

theorem calm (hP : Issued D P) (hset : Settles P) (hx : x.calm) (h : Everyone P u)
    (ha : Acts x u u') : Everyone P u' :=
  h.acts hP (fun c c' hr => hset c c' hr.identity (hr.navState hx.1 hx.2.1)
    (hr.ewar hx.1 hx.2.2)) ha

omit [Floating F] [Floating D] [Widens F D] in
theorem each (h : Everyone P u) {f : Components F → Components F} (hf : ∀ c, P c → P (f c)) :
    Everyone P (u.onEnts fun e => e.forEach f) := by
  have hents : Entities.Evolves (fun c c' => P c → P c') u.ents (u.ents.forEach f) :=
    Entities.Evolves.forEach fun c _ => hf c
  exact h.evolves (fun _ _ hr => hr) hents

theorem warfare (hwar : Warfare fun c c' : Components F => P c → P c') (h : Everyone P u) :
    Everyone P (u.onEnts (ewarLogiSystem dt)) :=
  h.evolves (fun _ _ hr => hr) (ewarLogiSystem_evolves hwar dt u.ents)

/-- What holds after the electronic warfare of a step holds when its units travel. -/
theorem beforeTravel (hP : Issued D P) (hset : Settles P) (hregen : ∀ c, P c → P (regenUnit dt c))
    (hon : u.combatEnabled = true)
    (h : Everyone P (u.onEnts fun e => ewarLogiSystem dt (aiSystem (D := D) e))) :
    Everyone P (beforeTravel dt u) := by
  unfold Shard.beforeTravel
  rw [if_pos hon]
  have hsteered : Everyone P (u.beforeCombat dt) :=
    h.calm hP hset (by decide) (onEnts_acts (fleetOrderSystem_steady dt _))
  have hfought := (hsteered.calm hP hset (by decide) (combatSystem_acts dt _)).calm hP hset
    (by decide) (projectileSystem_acts dt _)
  exact (hfought.each hregen).calm hP hset (by decide) (baseRetreatSystem_acts _)

end Everyone

/-! ## The invariant -/

theorem held_settles : Settles (Components.Held (F := F)) := by
  intro c c' _ hnav hewar hc
  unfold Components.Held Components.Tackled Components.Halted
  rw [hnav, hewar]
  exact hc

omit [Floating F] in
theorem halted_settles (n : UInt32) :
    Settles fun c : Components F => c.netId = n → c.Halted := by
  intro c c' hid hnav _ hc
  unfold Components.Halted
  rw [hnav, show c'.netId = c.netId from congrArg Identity.netId hid]
  exact hc

theorem held_of_calm (h : ∀ s, c.ewar = some s → ¬ s.isTackled) : c.Held := by
  rintro ⟨s, hs, htackled⟩
  exact absurd htackled (h s hs)

/-- A disruptor sets the mark together with the time. -/
theorem held_applyEwar (m : ModuleDef F) (c : Components F) (h : c.Held) : (applyEwar m c).Held := by
  have hkeep : ∀ f : EwarStatus F → EwarStatus F, (∀ s, (f s).tackledFor = s.tackledFor) →
      ({ c with ewar := c.ewar.map f } : Components F).Held := by
    rintro f hf ⟨s, hs, htackled⟩
    rcases Option.map_eq_some_iff.mp hs with ⟨s₀, hs₀, rfl⟩
    refine h ⟨s₀, hs₀, ?_⟩
    unfold EwarStatus.isTackled at htackled ⊢
    rwa [hf] at htackled
  unfold applyEwar
  split
  · exact hkeep _ fun _ => rfl
  · exact hkeep _ fun _ => rfl
  · intro _ nav hnav _
    rcases Option.map_eq_some_iff.mp hnav with ⟨nav₀, _, rfl⟩
    rfl
  · exact hkeep _ fun _ => rfl
  · exact h

theorem held_warfare : Warfare fun c c' : Components F => c.Held → c'.Held :=
  ⟨fun _ => id, fun _ _ _ h h' => h' ∘ h, fun _ _ _ h => h, held_applyEwar, fun _ _ h => h⟩

/-- Whoever is tackled when time has passed was tackled before. -/
theorem held_regenUnit (hdt : Forward dt) (c : Components F) (h : c.Held) :
    (regenUnit dt c).Held := by
  rintro ⟨s, hs, htackled⟩
  rcases Option.map_eq_some_iff.mp hs with ⟨s₀, hs₀, rfl⟩
  exact h ⟨s₀, hs₀, hdt _ htackled⟩

theorem held_moveUnit (c : Components F) (h : c.Held) : (moveUnit dt c).Held := by
  unfold moveUnit
  split
  · exact h
  · exact h

/-- A journey that is interdicted ends or goes on with aligning. -/
theorem stepNav_halted {nav : NavState F} {tr : Transform F} {tuning : NavTuning F}
    (h : nav.phase.travels = true → nav.interdicted = true) :
    (stepNav nav tr tuning dt).2.1.phase.travels = true →
      (stepNav nav tr tuning dt).2.1.interdicted = true := by
  unfold stepNav
  split
  · exact h
  · rename_i hphase
    have hmark := h (by rw [hphase]; rfl)
    simp only []
    split
    · exact fun _ => hmark
    · exact fun _ => hmark
  · rename_i hphase
    rw [if_pos (h (by rw [hphase]; rfl))]
    exact fun hno => absurd hno Bool.false_ne_true
  · rename_i hphase
    rw [if_pos (h (by rw [hphase]; rfl))]
    exact fun hno => absurd hno Bool.false_ne_true
  · rename_i hphase
    simp only []
    split
    · exact fun hno => absurd hno Bool.false_ne_true
    · simp only [hphase]
      exact fun hno => absurd hno Bool.false_ne_true

theorem held_navigateUnit (tuning : NavTuning F) (dt : F) (c : Components F) (h : c.Held) :
    (navigateUnit tuning dt c).Held := by
  unfold navigateUnit
  split
  · exact h
  · rename_i nav hnav
    intro htackled nav' hnav'
    simp only [Option.some.injEq] at hnav'
    rw [← hnav']
    exact stepNav_halted (h htackled nav hnav)

/-- Who is halted stays. -/
theorem stays_of_halted (h : c.Halted) (tuning : NavTuning F) :
    c.Stays tuning dt := by
  intro nav hnav
  have hmark := h nav hnav
  have hnone : NavEvent.none ≠ .arrived ∧ NavEvent.none ≠ .jumped := by decide
  have hdrop : NavEvent.droppedOut ≠ .arrived ∧ NavEvent.droppedOut ≠ .jumped := by decide
  unfold stepNav
  split
  · exact ⟨hnone.1, hnone.2, rfl⟩
  · simp only []
    split
    · exact ⟨hnone.1, hnone.2, rfl⟩
    · exact ⟨hnone.1, hnone.2, rfl⟩
  · rename_i hphase
    rw [if_pos (hmark (by rw [hphase]; rfl))]
    exact ⟨hdrop.1, hdrop.2, rfl⟩
  · rename_i hphase
    rw [if_pos (hmark (by rw [hphase]; rfl))]
    exact ⟨hdrop.1, hdrop.2, rfl⟩
  · simp only []
    split
    · exact ⟨hnone.1, hnone.2, rfl⟩
    · exact ⟨hnone.1, hnone.2, rfl⟩

/-! ## A step -/

theorem installFit_untackled (hzero : ¬ (0 : F) < 0) {combat : CombatCatalog F}
    (hc : c.ewar = none) (fitName otherwise : String) :
    ((installFit combat c fitName).getD c).Held ∧
      (installFitOr combat c fitName otherwise).Held := by
  have hnone : c.Held := held_of_calm fun s hs => by
    rw [hc] at hs
    exact absurd hs nofun
  have hfit : ∀ hull mods, (installFitDirect c hull mods).Held := by
    refine fun hull mods => held_of_calm fun s hs => ?_
    have hs' : some (c.ewar.getD .initial) = some s := hs
    rw [hc, Option.getD_none, Option.some.injEq] at hs'
    rw [← hs']
    exact hzero
  exact ⟨installFitGetD_induct hnone hfit _, installFitOr_induct hnone hfit _ _⟩

theorem held_issued (hzero : ¬ (0 : F) < 0) : Issued D (Components.Held (F := F)) := by
  have hnone : ∀ c : Components F, c.ewar = none → c.Held := fun c hc => held_of_calm fun s hs => by
    rw [hc] at hs
    exact absurd hs nofun
  intro u mk hmk n
  cases hmk with
  | prop shapeId pos => exact hnone _ rfl
  | node type yield pos => exact hnone _ rfl
  | beacon bi pos => exact hnone _ rfl
  | base start vel => exact (installFit_untackled hzero rfl _ "").1
  | ship player shapeId pos fitName => exact (installFit_untackled hzero rfl _ _).2
  | guardian pos siteId fitName => exact (installFit_untackled hzero rfl fitName npcFit).2
  | shot p => exact hnone _ rfl
  | loot c => exact hnone _ rfl

theorem Everyone.held_beforeTravel (hzero : ¬ (0 : F) < 0) (hdt : Forward dt)
    (h : Everyone Components.Held u) : Everyone Components.Held (Shard.beforeTravel dt u) := by
  by_cases hon : u.combatEnabled = true
  · have hdecided : Everyone Components.Held (u.onEnts fun e => aiSystem (D := D) e) :=
      h.calm (held_issued hzero) held_settles (by decide) (onEnts_acts (aiSystem_steady _))
    exact Everyone.beforeTravel (held_issued hzero) held_settles (held_regenUnit hdt) hon
      (hdecided.warfare held_warfare)
  · unfold Shard.beforeTravel
    rw [if_neg hon]
    exact h.calm (held_issued hzero) held_settles (x := .none) (by decide)
      (onEnts_acts ((aiSystem_steady _).trans (fleetOrderSystem_steady dt _)))

theorem Everyone.held_atTravel (hzero : ¬ (0 : F) < 0) (hdt : Forward dt)
    (h : Everyone Components.Held u) : Everyone Components.Held (u.atTravel dt) :=
  (h.held_beforeTravel hzero hdt).each held_moveUnit

theorem Everyone.held_step (hzero : ¬ (0 : F) < 0) (hdt : Forward dt)
    (h : Everyone Components.Held u) : Everyone Components.Held (u.step dt) := by
  rw [step_eq]
  have hgone := (h.held_atTravel hzero hdt).each (held_navigateUnit (Shard.beforeTravel dt u).nav dt)
  have hmined : Everyone Components.Held (roam dt (Shard.beforeTravel dt u)) :=
    hgone.calm (held_issued hzero) held_settles (by decide)
      (onEnts_acts (harvestSystem_steady (Shard.beforeTravel dt u).economy dt _))
  have hbuilt := hmined.calm (held_issued hzero) held_settles (by decide)
    (buildSystem_acts dt (roam dt (Shard.beforeTravel dt u)))
  exact (hbuilt.calm (held_issued hzero) held_settles (by decide)
    (onEnts_acts (syncHealthMirror_steady _))).of_eq rfl

/-! ## The other calls -/

/-- An order that makes nobody set out. -/
theorem held_told {c c' : Components F} (h : Told false c c') (hc : c.Held) : c'.Held := by
  unfold Components.Held Components.Tackled
  rw [h.ewar]
  intro htackled nav hnav htravels
  rcases h.navState with hsame | hmarked | ⟨hno, _⟩
  · rw [hsame] at hnav
    exact hc htackled nav hnav htravels
  · rw [hmarked] at hnav
    rcases Option.map_eq_some_iff.mp hnav with ⟨_, _, rfl⟩
    rfl
  · exact absurd hno Bool.false_ne_true

theorem Everyone.held_deeds (hzero : ¬ (0 : F) < 0) {b g : Bool}
    (h : Everyone Components.Held u) (hd : Deeds b false g u u') : Everyone Components.Held u' :=
  h.deeds (held_issued hzero) (fun _ _ => held_told) (fun _ _ _ hc => hc) hd

omit [Floating D] [Widens F D] in
/-- Whoever is not tackled may be given any journey. -/
theorem Everyone.held_modify {f : Components F → Components F}
    (h : Everyone Components.Held u) (hclear : ∀ c, u.ents.find n = some c → ¬ c.Tackled)
    (hf : ∀ c, (f c).ewar = c.ewar) : Everyone Components.Held (u.modify n f) := by
  refine h.modify fun c hc _ htackled => absurd ?_ (hclear c hc)
  unfold Components.Tackled at htackled ⊢
  rwa [hf] at htackled

theorem Everyone.held_beginWarpTo {dest : UniversePos}
    (h : Everyone Components.Held u)
    (hfree : ¬ ((⟨u, n, .warp dest⟩ : Setting F D).Tackled ∧ (⟨u, n, .warp dest⟩ : Setting F D).Free)) :
    Everyone Components.Held (u.beginWarpTo n dest).2 := by
  rcases beginWarpTo_cases u n dest with hno | ⟨_, _, _, _, _, _, hgo⟩
  · rw [hno]
    exact h
  · have haccepts : (⟨u, n, .warp dest⟩ : Setting F D).accepted = true := congrArg Prod.fst hgo
    rw [hgo]
    exact h.held_modify (fun c hc htackled => hfree ⟨⟨c, hc, htackled⟩, (accepts_iff _).mp haccepts⟩)
      fun _ => rfl

theorem Everyone.held_beginJumpTo {beacon : String}
    (h : Everyone Components.Held u)
    (hfree : ¬ ((⟨u, n, .jump beacon⟩ : Setting F D).Tackled ∧
      (⟨u, n, .jump beacon⟩ : Setting F D).Free)) :
    Everyone Components.Held (u.beginJumpTo n beacon).2 := by
  rcases beginJumpTo_cases u n beacon with ⟨_, hno⟩ | ⟨_, _, _, _, _, _, _, _, _, _, _, _, _, hgo⟩
  · rw [hno]
    exact h
  · have haccepts : (⟨u, n, .jump beacon⟩ : Setting F D).accepted = true :=
      decide_eq_true (congrArg Prod.fst hgo)
    rw [hgo]
    exact h.held_modify (fun c hc htackled => hfree ⟨⟨c, hc, htackled⟩, (accepts_iff _).mp haccepts⟩)
      fun _ => rfl

theorem Everyone.held_intent (hzero : ¬ (0 : F) < 0) {cmd : FleetCommand F}
    (h : Everyone Components.Held u)
    (hfree : ∀ d, cmd.departure = some d →
      ¬ ((⟨u, n, d⟩ : Setting F D).Tackled ∧ (⟨u, n, d⟩ : Setting F D).Free)) :
    Everyone Components.Held (u.applyIntentToUnit n cmd).2 := by
  by_cases hwarp : cmd.intent = .warp
  · have hdeparture : cmd.departure = some (.warp cmd.targetPoint) := by
      unfold FleetCommand.departure
      rw [hwarp]
    unfold ServerUniverse.applyIntentToUnit
    rw [hwarp]
    exact h.held_beginWarpTo (hfree _ hdeparture)
  · by_cases hjump : cmd.intent = .jump
    · have hdeparture : cmd.departure = some (.jump cmd.beacon) := by
        unfold FleetCommand.departure
        rw [hjump]
      unfold ServerUniverse.applyIntentToUnit
      rw [hjump]
      exact h.held_beginJumpTo (hfree _ hdeparture)
    · have hdeeds := applyIntentToUnit_deeds (b := false) (g := false) u n cmd
      rw [decide_eq_false (not_or.mpr ⟨hwarp, hjump⟩)] at hdeeds
      exact h.held_deeds hzero hdeeds

/-- A fleet command, unit by unit. -/
theorem Everyone.held_command (hzero : ¬ (0 : F) < 0) (player : UInt32) (cmd : FleetCommand F)
    (units : List UInt32) (r : Nat × ServerUniverse F D) (h : Everyone Components.Held r.2)
    (hfree : ∀ x ∈ r.2.commandDepartures player cmd units, ¬ (x.Tackled ∧ x.Free)) :
    Everyone Components.Held (units.foldl (fun r unitNet =>
      if (r.2.ents.find unitNet).bind Components.ownerId = some player then
        let (ok, u) := r.2.applyIntentToUnit unitNet cmd
        (if ok then r.1 + 1 else r.1, u)
      else r) r).2 := by
  induction units generalizing r with
  | nil => exact h
  | cons n units ih =>
      unfold ServerUniverse.commandDepartures at hfree
      rw [List.foldl_cons]
      by_cases hown : (r.2.ents.find n).bind Components.ownerId = some player
      · rw [if_pos hown] at hfree ⊢
        refine ih _ (h.held_intent hzero fun d hd => ?_) fun x hx => hfree x (List.mem_append_right _ hx)
        refine hfree ⟨r.2, n, d⟩ (List.mem_append_left _ ?_)
        rw [hd]
        exact List.mem_singleton_self _
      · rw [if_neg hown] at hfree ⊢
        exact ih r h hfree

/-- The invariant is kept by a call that lets nobody go. -/
theorem Everyone.held_apply (hzero : ¬ (0 : F) < 0) {o : Op F} (h : Everyone Components.Held u)
    (hfree : u.NobodyFree o) (hforward : ∀ dt, o = .step dt → Forward dt) :
    Everyone Components.Held (u.apply o) := by
  cases hop : o with
  | step dt => exact h.held_step hzero (hforward dt hop)
  | beginWarpTo n dest =>
      rw [hop] at hfree
      exact h.held_beginWarpTo (hfree _ (List.mem_singleton_self _))
  | beginJumpTo n beacon =>
      rw [hop] at hfree
      exact h.held_beginJumpTo (hfree _ (List.mem_singleton_self _))
  | applyFleetCommand player cmd =>
      rw [hop] at hfree
      exact Everyone.held_command hzero player cmd cmd.units (0, u) h hfree
  | _ =>
      rw [← hop]
      refine h.held_deeds hzero (b := o.maps) (g := o.guards) ?_
      have hstill : o.departs = false := by rw [hop]; rfl
      rw [← hstill]
      exact apply_deeds u o fun dt hno => by
        rw [hop] at hno
        cases hno

/-! ## Restarts -/

omit [Floating D] [Widens F D] in
/-- What is restored is not tackled. -/
theorem restored_held (hzero : ¬ (0 : F) < 0) (v : ServerUniverse F D) (s : PersistState F) :
    ∀ c ∈ v.restored s, c.Held := by
  have hhealth : ∀ (c : Components F) health, c.Held → { c with health := health }.Held :=
    fun _ _ h => h
  refine forall_restored (fun b _ => ?_) (fun sh _ => ?_) fun p _ => ?_
  · exact hhealth _ _ (installFit_untackled hzero rfl _ "").1
  · exact hhealth _ _ (installFit_untackled hzero rfl _ "").1
  · exact (installFit_untackled hzero rfl npcFit "").1

/-- Nobody is tackled by the time that passes in a call. -/
def Op.Forward (o : Op F) : Prop := ∀ dt, o = .step dt → Shard.Forward dt

/-- The invariant holds in every run that lets nobody go who is tackled. -/
theorem held_reached (hzero : ¬ (0 : F) < 0)
    (hu : Within (fun u o => u.NobodyFree o ∧ o.Forward) (fun _ _ => True) u) :
    Everyone Components.Held u := by
  induction hu with
  | fresh => exact ⟨World.Sound.fresh, fun _ hc => absurd hc List.not_mem_nil⟩
  | apply o _ hcall ih => exact ih.held_apply hzero hcall.1 hcall.2
  | restore order _ _ _ _ _ ihv => exact restoreState_everyone ihv order (restored_held hzero _ _)

/-! ## Disrupted units -/

/-- A journey of the unit is marked, whether or not it has begun. -/
def Components.Marked (c : Components F) : Prop :=
  ∀ nav, c.navState = some nav → nav.interdicted = true

/-- What electronic warfare leaves: who a unit is, where it is, and the mark. -/
def Beset (c c' : Components F) : Prop :=
  c'.identity = c.identity ∧ c'.transform = c.transform ∧ (c.Marked → c'.Marked)

theorem beset_warfare : Warfare (Beset (F := F)) := by
  refine ⟨fun _ => ⟨rfl, rfl, id⟩, fun _ _ _ h h' => ⟨h'.1.trans h.1, h'.2.1.trans h.2.1,
    h'.2.2 ∘ h.2.2⟩, fun layer amount c => ⟨(repair_steady layer amount c).identity, rfl, id⟩,
    fun m c => ⟨(applyEwar_steady m c).identity, ?_, ?_⟩,
    fun ms c => ⟨(steady_fitting .none c _).identity, rfl, id⟩⟩
  · unfold applyEwar
    split <;> rfl
  · intro h nav hnav
    unfold applyEwar at hnav
    split at hnav
    case h_3 =>
      rcases Option.map_eq_some_iff.mp hnav with ⟨_, _, rfl⟩
      rfl
    all_goals exact h nav hnav

theorem ewarTurns_evolves {R : Components F → Components F → Prop} (hR : Warfare R) (dt : F)
    (l : List Nat) (e : Entities F) : Entities.Evolves R e
      (l.foldl (fun e j => (e.world.slot j).elim e (ewarLogiUnit dt e j)) e) := by
  induction l generalizing e with
  | nil => exact Entities.Evolves.refl hR.refl e
  | cons j l ih =>
      have hturn : Entities.Evolves R e ((e.world.slot j).elim e (ewarLogiUnit dt e j)) := by
        cases e.world.slot j with
        | none => exact Entities.Evolves.refl hR.refl e
        | some c => exact ewarLogiUnit_evolves hR dt e j c
      exact hturn.trans hR.trans (ih _)

/-- A disruptor that reaches its target marks it. -/
theorem runModule_marks {e : Entities F} (he : e.Sound)
    {owner n : UInt32} (hkind : mi.info.kind = .warpDisruptor)
    (h : Reach D e c owner n mi t) :
    ∃ t', (runModule c owner n dt e mi).1.find n = some t' ∧ t'.Marked := by
  have htarget : ewarTarget e c n owner mi.info.range = n := by
    unfold ewarTarget
    rw [if_pos ⟨h.named, h.hostile⟩]
  have hexposed : ¬ t.ewar = none := Option.isSome_iff_ne_none.mp h.exposed
  refine ⟨applyEwar mi.info t, ?_, ?_⟩
  · unfold runModule
    simp only [hkind, htarget, h.target, h.named, hexposed, h.near, reduceCtorEq, if_false,
      List.mem_cons, true_or, or_true, if_true, or_self]
    rw [he.find_modify, if_pos rfl, h.target, Option.map_some]
  · intro nav hnav
    unfold applyEwar at hnav
    rw [hkind] at hnav
    rcases Option.map_eq_some_iff.mp hnav with ⟨_, _, rfl⟩
    rfl

omit [Floating F] in
/-- What a module reaches is still in reach after other modules. -/
theorem Reach.later {e e' : Entities F} {owner n : UInt32}
    (h : Reach D e c owner n mi t)
    (hents : Entities.Evolves Beset e e') : ∃ t', Reach D e' c owner n mi t' := by
  rcases hents.find_after h.target with ⟨t', ht', hid, hpos, _⟩
  have howner : e'.ownerOf n = e.ownerOf n := by
    unfold Entities.ownerOf
    rw [ht', h.target]
    exact congrArg (fun o => Option.getD o 0) (congrArg Identity.ownerId hid)
  refine ⟨t', h.named, howner ▸ h.hostile, ht', ?_, hpos ▸ h.near⟩
  unfold Components.identity at hid
  simp only [Identity.mk.injEq, List.cons.injEq, and_true] at hid
  rcases hid with ⟨_, _, _, _, _, _, _, _, _, _, _, _, _, _, _, _, _, _, _, _, _, _, hewar, _⟩
  rw [hewar]
  exact h.exposed

omit [Floating F] in
theorem beset_netId (c c' : Components F) (h : Beset c c') : c'.netId = c.netId :=
  congrArg Identity.netId h.1

omit [Floating F] in
/-- The mark stays through electronic warfare. -/
theorem marked_later {e e' : Entities F} (hents : Entities.Evolves Beset e e')
    (h : ∃ t, e.find n = some t ∧ t.Marked) : ∃ t, e'.find n = some t ∧ t.Marked := by
  rcases h with ⟨t, ht, hmarked⟩
  rcases hents.find_after ht with ⟨t', ht', _, _, hstill⟩
  exact ⟨t', ht', hstill hmarked⟩

/-- A unit's modules mark what one of them, a disruptor, reaches. -/
theorem runModules_marks {owner n : UInt32}
    (hkind : mi.info.kind = .warpDisruptor) (modules : List (ModuleInstance F))
    (hmi : mi ∈ modules) {e : Entities F} (he : e.Sound) (h : Reach D e c owner n mi t) :
    ∃ t', (runModules c owner n dt modules e).1.find n = some t' ∧ t'.Marked := by
  induction modules generalizing e t with
  | nil => exact absurd hmi List.not_mem_nil
  | cons head rest ih =>
      have hhead := runModule_evolves beset_warfare c owner n dt e head
      rcases List.mem_cons.mp hmi with rfl | hrest
      · exact marked_later (runModules_evolves beset_warfare c owner n dt rest _)
          (runModule_marks he hkind h)
      · rcases h.later hhead with ⟨t', h'⟩
        exact ih hrest (hhead.sound beset_netId he) h'

/-- A unit that is disrupted is marked when electronic warfare is over. -/
theorem disrupted_marked (hu : u.ents.Sound) (h : u.Disrupted dt n) :
    ∃ t, (ewarLogiSystem dt (aiSystem (D := D) u.ents)).find n = some t ∧ t.Marked := by
  rcases h with ⟨_, i, c, fit, owner, mi, t, hslot, hdis⟩
  have hai : (aiSystem (D := D) u.ents).Sound := (aiSystem_steady (D := D) u.ents).sound hu
  have hbefore := ewarTurns_evolves beset_warfare dt (List.range i) (aiSystem (D := D) u.ents)
  have hsound := hbefore.sound beset_netId hai
  -- The turns are those before the disruptor's, its own and those after it.
  have hlen : i < (aiSystem (D := D) u.ents).world.records.length := by
    rcases hbefore.slot_before hslot with ⟨c₀, hc₀, _⟩
    exact World.slot_lt hc₀
  have hrange : List.range (aiSystem (D := D) u.ents).world.records.length =
      List.range i ++ i :: List.range' (i + 1)
        ((aiSystem (D := D) u.ents).world.records.length - (i + 1)) := by
    have happend : List.range' 0 i ++ List.range' (0 + i)
        ((aiSystem (D := D) u.ents).world.records.length - (i + 1) + 1) = _ := List.range'_append_1
    rw [Nat.zero_add] at happend
    rw [List.range_eq_range', List.range_eq_range', ← List.range'_succ, happend]
    congr 1
    omega
  have hown : ∃ t', (ewarLogiUnit dt (ServerUniverse.ewarTurn dt (aiSystem (D := D) u.ents) i) i c).find
      n = some t' ∧ t'.Marked := by
    unfold ewarLogiUnit
    simp only [hdis.fitting, hdis.owned, if_neg hdis.clear, hdis.attacks]
    exact marked_later
      (Entities.Evolves.modifyAt beset_warfare.refl fun c' _ => beset_warfare.modules _ c')
      (runModules_marks hdis.disruptor fit.modules hdis.module hsound hdis.reach)
  unfold ServerUniverse.ewarTurn at hslot
  unfold ewarLogiSystem Ecs.visit
  rw [hrange, List.foldl_append, List.foldl_cons, hslot]
  exact marked_later (ewarTurns_evolves beset_warfare dt _ _) hown

/-- Whatever is spawned is not travelling. -/
theorem halted_issued : Issued D (Components.Halted (F := F)) := by
  have hnone : ∀ c : Components F, c.navState = none → c.Halted := fun c hc nav hnav => by
    rw [hc] at hnav
    exact absurd hnav nofun
  have hidle : ∀ c : Components F, c.navState = some .initial → c.Halted := by
    intro c hc nav hnav htravels
    rw [hc, Option.some.injEq] at hnav
    rw [← hnav] at htravels
    exact absurd htravels Bool.false_ne_true
  intro u mk hmk n
  cases hmk with
  | prop shapeId pos => exact hnone _ rfl
  | node type yield pos => exact hnone _ rfl
  | beacon bi pos => exact hnone _ rfl
  | base start vel => exact installFitGetD_induct (hidle _ rfl) (fun _ _ => hidle _ rfl) _
  | ship player shapeId pos fitName =>
      exact installFitOr_induct (hidle _ rfl) (fun _ _ => hidle _ rfl) _ _
  | guardian pos siteId fitName =>
      have hnpc : (installFitOr u.combat (ServerUniverse.npcComponents pos n) fitName
          npcFit).navState = none :=
        installFitOr_induct (P := fun c => c.navState = none) rfl (fun _ _ => rfl) _ _
      exact hnone _ hnpc
  | shot p => exact hnone _ rfl
  | loot c => exact hnone _ rfl

/-- A unit that a warp disruptor reaches in a step stays in it. -/
theorem disrupted_stays (hu : u.ents.Sound) (h : u.Disrupted dt n) :
    ∀ c ∈ (u.atTravel dt).ents.world.alive, c.netId = n → c.Stays (u.atTravel dt).nav dt := by
  have hissued : Issued D fun c : Components F => c.netId = n → c.Halted :=
    fun v mk hmk k _ => halted_issued v mk hmk k
  have hwarred : Everyone (fun c : Components F => c.netId = n → c.Halted)
      (u.onEnts fun e => ewarLogiSystem dt (aiSystem (D := D) e)) := by
    rcases disrupted_marked hu h with ⟨t, ht, hmarked⟩
    have hai : (aiSystem (D := D) u.ents).Sound := (aiSystem_steady (D := D) u.ents).sound hu
    have hewar : (ewarLogiSystem dt (aiSystem (D := D) u.ents)).Sound :=
      (ewarLogiSystem_steady dt _).sound hai
    refine ⟨hewar.world, fun c hc hid nav hnav _ => hmarked nav ?_⟩
    have hfind := hewar.find_of_mem_alive hc
    rw [hid, ht, Option.some.injEq] at hfind
    rw [hfind]
    exact hnav
  have hready := hwarred.beforeTravel hissued (halted_settles n) (fun _ hc => hc) h.1
  have hmoved : Everyone (fun c : Components F => c.netId = n → c.Halted) (u.atTravel dt) := by
    refine hready.each fun c hc => ?_
    unfold moveUnit
    split
    · exact hc
    · exact hc
  exact fun c hc hid => stays_of_halted (hmoved.every c hc hid) _

/-! ## Calls that move nobody -/

theorem commandDepartures_eq_nil {cmd : FleetCommand F} (hcmd : cmd.departure = none)
    (player : UInt32) (units : List UInt32) (u : ServerUniverse F D) :
    u.commandDepartures player cmd units = [] := by
  induction units generalizing u with
  | nil => rfl
  | cons n units ih =>
      unfold ServerUniverse.commandDepartures
      rw [ih, ih, hcmd]
      exact ite_self []

theorem nobodyFree_of_still (u : ServerUniverse F D) {o : Op F} (h : o.departs = false) :
    u.NobodyFree o := by
  have hnil : u.departures o = [] := by
    cases o with
    | beginWarpTo n dest => exact absurd h.symm Bool.false_ne_true
    | beginJumpTo n beacon => exact absurd h.symm Bool.false_ne_true
    | applyFleetCommand player cmd =>
        refine commandDepartures_eq_nil ?_ player cmd.units u
        rcases not_or.mp (of_decide_eq_false h) with ⟨hwarp, hjump⟩
        unfold FleetCommand.departure
        split
        · rename_i hno
          exact absurd hno hwarp
        · rename_i hno
          exact absurd hno hjump
        · rfl
    | _ => rfl
  intro x hx
  rw [hnil] at hx
  exact absurd hx List.not_mem_nil

/-! ## Runs -/

/-- In a run in which no tackled unit was let go, the next call lets none of them go or travel
    exactly if no order to set out reaches a tackled unit that is free to take it. A unit that
    a warp disruptor reaches travels in no step at all. -/
theorem tackle_holds_iff (hzero : ¬ (0 : F) < 0)
    (hu : Within (fun u o => u.NobodyFree o ∧ o.Forward) (fun _ _ => True) u) (o : Op F)
    (hforward : o.Forward) :
    (u.TackleHolds o ↔ u.NobodyFree o) ∧
      ∀ dt n, u.ents.Sound → u.Disrupted dt n →
        ∀ c ∈ (u.atTravel dt).ents.world.alive, c.netId = n → c.Stays (u.atTravel dt).nav dt := by
  refine ⟨⟨fun h => (departures_refused_iff u o).mp h.departures, fun h => ?_⟩,
    fun dt n hsound hdis => disrupted_stays hsound hdis⟩
  refine ⟨(departures_refused_iff u o).mpr h, fun dt hstep c hc htackled => ?_⟩
  have hheld := (held_reached hzero hu).held_atTravel hzero (hforward dt hstep)
  exact stays_of_halted (hheld.every c hc htackled) _

end

/-- Time that goes on tackles nobody. -/
theorem forward_of_nonneg {F : Type} [Exact F] {dt : F} (h : 0 ≤ dt) : Forward dt := by
  intro t ht
  rw [Exact.fmax_eq_max] at ht
  rcases lt_max_iff.mp ht with hno | hpos
  · exact absurd hno (lt_irrefl _)
  · linarith

/-- Two players with a ship each, the first with a scout that attacks the other's ship. -/
def meeting (F : Type) [Floating F] : List (Op F) :=
  [.spawnBase ⟨0, 0, 0⟩ Vec3.zero, .spawnBase ⟨900000, 0, 0⟩ Vec3.zero,
    .spawnFleetShip 1 shipShapeId ⟨100000, 0, 0⟩ "scout-tackle",
    .spawnFleetShip 2 shipShapeId ⟨100500, 0, 0⟩ defaultShipFit,
    .applyFleetCommand 1 ⟨.attack, false, [3], 4, ⟨0, 0, 0⟩, 0, ""⟩]

/-- The scout tackles the ship. -/
def chase (F D : Type) [Floating F] [Floating D] [Widens F D] : ServerUniverse F D :=
  ((meeting F).foldl ServerUniverse.apply .fresh).step 0.5

/-- The scout is ordered off, the tackled ship sets out, and it aligns. -/
def escape : ServerUniverse Float32 Float :=
  [.applyFleetCommand 1 ⟨.stop, false, [3], 0, ⟨0, 0, 0⟩, 0, ""⟩, .beginWarpTo 4 ⟨0, 0, 0⟩,
    .step 3.0].foldl ServerUniverse.apply (chase Float32 Float)

/-- The tackled ship is let go, and it warps while it is still tackled. -/
theorem tackled_ship_warps :
    Reached (chase Float32 Float) ∧
      ¬ (chase Float32 Float).TackleHolds (.beginWarpTo 4 ⟨0, 0, 0⟩) ∧
      Reached escape ∧ ¬ escape.TackleHolds (.step 0.5) := by
  have hchase : Reached (chase Float32 Float) := (Reached.applyAll .fresh (meeting Float32)).apply (.step 0.5)
  refine ⟨hchase, fun h => ?_, hchase.applyAll _, fun h => ?_⟩
  · have htackled : ((chase Float32 Float).ents.find 4).any
        (fun c => c.ewar.any fun s => decide s.isTackled) = true := by decide +kernel
    rcases (Option.any_eq_true _ _).mp htackled with ⟨c, hc, hewar⟩
    rcases (Option.any_eq_true _ _).mp hewar with ⟨s, hs, htime⟩
    have hrefused := h.departures ⟨_, 4, .warp ⟨0, 0, 0⟩⟩ (List.mem_singleton_self _)
      ⟨c, hc, s, hs, of_decide_eq_true htime⟩
    exact absurd hrefused (by decide +kernel)
  · have hadvances : (escape.atTravel 0.5).ents.world.alive.any (fun c =>
        (c.ewar.any fun s => decide s.isTackled) && c.navState.any fun nav => decide
          ((stepNav nav c.transform (escape.atTravel 0.5).nav 0.5).2.2 ≠ c.transform)) = true := by
      decide +kernel
    rcases List.any_eq_true.mp hadvances with ⟨c, hc, hboth⟩
    rcases (Bool.and_eq_true _ _).mp hboth with ⟨hewar, hnav⟩
    rcases (Option.any_eq_true _ _).mp hewar with ⟨s, hs, htime⟩
    rcases (Option.any_eq_true _ _).mp hnav with ⟨nav, hnav, hmoved⟩
    have hstays := h.travel 0.5 rfl c hc ⟨s, hs, of_decide_eq_true htime⟩ nav hnav
    exact of_decide_eq_true hmoved hstays.2.2

/-- While nobody is ordered to set out, the tackled ship stays. -/
theorem tackle_holds_chase : (chase ℚ ℚ).TackleHolds (.step 0.5) := by
  have hnone : ∀ (u : ServerUniverse ℚ ℚ) (o : Op ℚ), o.departs = false → (∀ dt, o ≠ .step dt) →
      u.NobodyFree o ∧ o.Forward :=
    fun u o h hstep => ⟨nobodyFree_of_still u h, fun dt hdt => absurd hdt (hstep dt)⟩
  have hstep : ∀ u : ServerUniverse ℚ ℚ, u.NobodyFree (.step 0.5) ∧ (Op.step (0.5 : ℚ)).Forward :=
    fun u => ⟨nobodyFree_of_still u rfl, fun dt hdt => by
      rw [← Op.step.inj hdt]
      exact forward_of_nonneg (by norm_num)⟩
  have hmeeting : ∀ o ∈ meeting ℚ, o.departs = false ∧ ∀ dt, o ≠ .step dt := by
    intro o ho
    simp only [meeting, List.mem_cons, List.not_mem_nil, or_false] at ho
    rcases ho with rfl | rfl | rfl | rfl | rfl
    all_goals exact ⟨rfl, fun dt h => by cases h⟩
  have hall : ∀ (ops : List (Op ℚ)) (u : ServerUniverse ℚ ℚ),
      (∀ o ∈ ops, o.departs = false ∧ ∀ dt, o ≠ .step dt) →
      Within (fun u o => u.NobodyFree o ∧ o.Forward) (fun _ _ => True) u →
      Within (fun u o => u.NobodyFree o ∧ o.Forward) (fun _ _ => True)
        (ops.foldl ServerUniverse.apply u) := by
    intro ops
    induction ops with
    | nil => exact fun _ _ hu => hu
    | cons o ops ih =>
        intro u hops hu
        have ho := hops o List.mem_cons_self
        exact ih _ (fun o' ho' => hops o' (List.mem_cons_of_mem o ho'))
          (.apply o hu (hnone u o ho.1 ho.2))
  have hchase := Within.apply (.step 0.5) (hall (meeting ℚ) .fresh hmeeting .fresh) (hstep _)
  exact ((tackle_holds_iff (lt_irrefl 0) hchase (.step 0.5) (hstep (chase ℚ ℚ)).2).1).mpr (hstep _).1

end Shard

end EarthRise
