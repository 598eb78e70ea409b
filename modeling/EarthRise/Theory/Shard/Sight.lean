import EarthRise.Lib.History
import EarthRise.Theory.Shard.Commands
import EarthRise.Theory.Subscriptions

/-!
# What a Fleet Lets Its Player See

A player is to be subscribed to the sectors around its sensors and to those around the places
that its units travel to.

What the grid holds for a player is told by the calls and the journeys so far. A unit that sets
out has the sectors around its destination held, and a step that ends with a sensor covering one
of them lets it go: until then the player awaits it. Nothing else lets it go, so a journey that
is cut short is awaited for ever, and one whose destination was seen under way is not awaited any
more. A step refreshes the subscriptions of the players with a sensor only; whoever has lost its
last one stays subscribed to what it saw last and to what it awaits.

So the subscriptions are right after a step exactly if the player awaits the uncovered sectors
that its units travel to and no others, and, without a sensor, awaits nothing and saw nothing
last.

## Main definitions

* `ServerUniverse.Covered`, `ServerUniverse.Aimed`: A sector that a player's sensors cover, and
  one that its units travel to.
* `ServerUniverse.SetsOut`: A call lets a unit set out for the neighbourhood of a sector.
* `Awaited`, `LastSeen`: A sector that was set out for and not covered since, and one that the
  player's sensors covered when it last had one.
* `Observed.Follows`: The subscriptions of a player are right.
* `OnCourse`: The journeys before a step are such that they will be.

## Theorems

* `mem_sensorCells`, `sensorCells_eq_none`: The sectors around a player's sensors.
* `Observed.apply_adds`, `Observed.mem_pins_update`, `Observed.mem_subscriptions_update`: The
  calls and the steps.
* `Observed.holds_step`, `Observed.holds_run`: What is held for a player, and what it is
  subscribed to, after a step and after a run.
* `scout_innate`: Who can travel has a sensor.
* `Observed.follows_iff`: Every step of a run.
-/

namespace EarthRise

namespace Shard

open Ecs (World EntityHandle)
open History (Pending)
open Universe (UniversePos Vec3 SectorId universeToSector)
open Sim (InterestGrid NetId collectNeighbourhood)

/-- The phases of a journey before its end. -/
def NavPhase.travels : NavPhase → Bool
  | .align | .warp | .spool => true
  | .idle | .cooldown => false

section

variable {F D : Type} [Floating F] [Floating D] [Widens F D] {p : UInt32} {e : Entities F}

/-- The entity is one of a player. Player zero stands for nobody. -/
def Components.Of (p : UInt32) (c : Components F) : Prop := p ≠ 0 ∧ c.ownerId = some p

/-- The entity is a player's and has a sensor. -/
def Components.Eye (p : UInt32) (c : Components F) : Prop := c.Of p ∧ c.sensor.isSome = true

/-- The entity is a player's, and its sensor covers a sector. -/
def Components.Covers (p : UInt32) (s : SectorId) (c : Components F) : Prop :=
  c.Of p ∧ ∃ range, c.sensor = some range ∧
    s ∈ collectNeighbourhood (universeToSector c.transform.pos)
      (sectorRadiusForRange (D := D) range)

/-- The entity is a player's and travels to the neighbourhood of a sector. -/
def Components.AimsAt (p : UInt32) (s : SectorId) (c : Components F) : Prop :=
  c.Of p ∧ ∃ nav, c.navState = some nav ∧ nav.phase.travels = true ∧
    s ∈ collectNeighbourhood (universeToSector nav.target)
      (c.sensor.elim 1 (sectorRadiusForRange (D := D)))

namespace ServerUniverse

/-- A player has a sensor. -/
def HasEye (p : UInt32) (u : ServerUniverse F D) : Prop := ∃ c ∈ u.ents.world.alive, c.Eye p

/-- A sensor of a player covers a sector. -/
def Covered (p : UInt32) (s : SectorId) (u : ServerUniverse F D) : Prop :=
  ∃ c ∈ u.ents.world.alive, c.Covers (D := D) p s

/-- A unit of a player travels to the neighbourhood of a sector. -/
def Aimed (p : UInt32) (s : SectorId) (u : ServerUniverse F D) : Prop :=
  ∃ c ∈ u.ents.world.alive, c.AimsAt (D := D) p s

/-- Who covers a sector has a sensor. -/
theorem Covered.hasEye {p : UInt32} {s : SectorId} {u : ServerUniverse F D} (h : u.Covered p s) :
    u.HasEye p := by
  rcases h with ⟨c, hc, hof, range, hrange, _⟩
  exact ⟨c, hc, hof, by rw [hrange]; rfl⟩

/-! ## Journeys -/

/-- The unit is a player's, and the sector is in the neighbourhood of its destination. -/
def Heads (p : UInt32) (s : SectorId) (u : ServerUniverse F D) (n : UInt32)
    (dest : UniversePos) : Prop :=
  ∃ c, u.ents.find n = some c ∧ c.Of p ∧ s ∈ collectNeighbourhood (universeToSector dest)
    (c.sensor.elim 1 (sectorRadiusForRange (D := D)))

/-- A warp is accepted, and it leads there. -/
def WarpsTo (p : UInt32) (s : SectorId) (u : ServerUniverse F D) (n : UInt32)
    (dest : UniversePos) : Prop :=
  (u.beginWarpTo n dest).1 = true ∧ (u.beginWarpTo n dest).2.Heads p s n dest

/-- A jump is accepted, and it leads there. -/
def JumpsTo (p : UInt32) (s : SectorId) (u : ServerUniverse F D) (n : UInt32)
    (destBeacon : String) : Prop :=
  (u.beginJumpTo n destBeacon).1 = .accepted ∧
    ∃ dest, Observed.beaconPos (u.beginJumpTo n destBeacon).2 destBeacon = some dest ∧
      (u.beginJumpTo n destBeacon).2.Heads p s n dest

/-- A unit is ordered to go there and does. -/
def Obeys (p : UInt32) (s : SectorId) (u : ServerUniverse F D) (n : UInt32)
    (cmd : FleetCommand F) : Prop :=
  match cmd.intent with
  | .warp => u.WarpsTo p s n cmd.targetPoint
  | .jump => u.JumpsTo p s n cmd.beacon
  | _ => False

/-- One of the units of a command is ordered to go there and does. They are ordered one after
    the other. -/
def OrdersOut (p : UInt32) (s : SectorId) (player : UInt32) (cmd : FleetCommand F) :
    List UInt32 → ServerUniverse F D → Prop
  | [], _ => False
  | n :: units, u =>
      if (u.ents.find n).bind Components.ownerId = some player then
        u.Obeys p s n cmd ∨ OrdersOut p s player cmd units (u.applyIntentToUnit n cmd).2
      else OrdersOut p s player cmd units u

/-- A call lets a unit of a player set out for the neighbourhood of a sector. -/
def SetsOut (p : UInt32) (s : SectorId) (u : ServerUniverse F D) : Op F → Prop
  | .beginWarpTo n dest => u.WarpsTo p s n dest
  | .beginJumpTo n beacon => u.JumpsTo p s n beacon
  | .applyFleetCommand player cmd => u.OrdersOut p s player cmd cmd.units
  | _ => False

/-- A step ends with a sensor of a player covering a sector. -/
def EndsCovering (p : UInt32) (s : SectorId) (u : ServerUniverse F D) (op : Op F) : Prop :=
  ∃ dt, op = .step dt ∧ (u.step dt).Covered p s

/-- A step ends with a sensor for a player. -/
def EndsSeeing (p : UInt32) (u : ServerUniverse F D) (op : Op F) : Prop :=
  ∃ dt, op = .step dt ∧ (u.step dt).HasEye p

end ServerUniverse

variable (D) in
/-- A unit of a player set out for the neighbourhood of a sector in a run from the first day on,
    and no later step ended with a sensor of the player covering it. -/
def Awaited (p : UInt32) (s : SectorId) (run : List (Op F)) : Prop :=
  Pending ServerUniverse.apply (ServerUniverse.SetsOut p s) (ServerUniverse.EndsCovering p s)
    (.fresh : ServerUniverse F D) run

variable (D) in
/-- The last step that ended with a sensor for a player ended with one covering a sector. -/
def LastSeen (p : UInt32) (s : SectorId) (run : List (Op F)) : Prop :=
  Pending ServerUniverse.apply (ServerUniverse.EndsCovering p s) (ServerUniverse.EndsSeeing p)
    (.fresh : ServerUniverse F D) run

variable (D) in
/-- The journeys before a step are such that it leaves the subscriptions of a player right: where
    no sensor covers it, the player awaits a sector if and only if a unit of it still travels
    there; and a player that has no sensor by then neither awaits anything nor was left with
    anything by its last one. -/
def OnCourse (p : UInt32) (run : List (Op F)) (dt : F) : Prop :=
  let u := (run.foldl ServerUniverse.apply (.fresh : ServerUniverse F D)).step dt
  (u.HasEye p → ∀ s, ¬ u.Covered p s → (Awaited D p s run ↔ u.Aimed p s)) ∧
    (¬ u.HasEye p → ∀ s, ¬ Awaited D p s run ∧ ¬ LastSeen D p s run)

/-- A player is subscribed to what its sensors cover and to where its units travel; with neither
    of them it sees nothing. -/
structure Observed.Follows (p : UInt32) (o : Observed F D) : Prop where
  subscribed : ∀ s, s ∈ o.interest.subscriptions (gridId p) ↔ o.sim.Covered p s ∨ o.sim.Aimed p s
  blind : (∀ s, ¬ o.sim.Covered p s ∧ ¬ o.sim.Aimed p s) →
    o.interest.visibleTo (gridId p) = []

instance (p : UInt32) (c : Components F) : Decidable (c.Of p) :=
  inferInstanceAs (Decidable (_ ∧ _))

instance (p : UInt32) (s : SectorId) (c : Components F) : Decidable (c.Covers (D := D) p s) :=
  inferInstanceAs (Decidable (_ ∧ ∃ range ∈ c.sensor, _))

instance (p : UInt32) (s : SectorId) (c : Components F) : Decidable (c.AimsAt (D := D) p s) :=
  inferInstanceAs (Decidable (_ ∧ ∃ nav ∈ c.navState, _ ∧ _))

/-- A list of sectors that has what a player's units cover and aim at and nothing else is what
    the player is to be subscribed to. -/
theorem Observed.follows_of_list {o : Observed F D} (l : List SectorId)
    (hl : o.interest.subscriptions (gridId p) = l ∧ l ≠ [])
    (honly : ∀ s ∈ l, ∃ c ∈ o.sim.ents.world.alive,
      c.Covers (D := D) p s ∨ c.AimsAt (D := D) p s)
    (hall : ∀ c ∈ o.sim.ents.world.alive, c.Of p →
      (∀ range ∈ c.sensor, ∀ s ∈ collectNeighbourhood (universeToSector c.transform.pos)
        (sectorRadiusForRange (D := D) range), s ∈ l) ∧
      ∀ nav ∈ c.navState, nav.phase.travels = true →
        ∀ s ∈ collectNeighbourhood (universeToSector nav.target)
          (c.sensor.elim 1 (sectorRadiusForRange (D := D))), s ∈ l) : o.Follows p := by
  have hmem : ∀ s, s ∈ l ↔ o.sim.Covered p s ∨ o.sim.Aimed p s := by
    refine fun s => ⟨fun hs => ?_, ?_⟩
    · rcases honly s hs with ⟨c, hc, hcover | haim⟩
      · exact Or.inl ⟨c, hc, hcover⟩
      · exact Or.inr ⟨c, hc, haim⟩
    · rintro (⟨c, hc, hof, range, hrange, hs⟩ | ⟨c, hc, hof, nav, hnav, hgo, hs⟩)
      · exact (hall c hc hof).1 range hrange s hs
      · exact (hall c hc hof).2 nav hnav hgo s hs
  refine ⟨fun s => hl.1 ▸ hmem s, fun hnone => ?_⟩
  rcases List.exists_mem_of_ne_nil _ hl.2 with ⟨s, hs⟩
  exact (((hmem s).mp hs).elim (hnone s).1 (hnone s).2).elim

/-! ## The sectors around the sensors -/

theorem gridId_inj {p q : UInt32} (h : gridId p = gridId q) : p = q := UInt32.toFin_inj.mp h

/-- What the eye of a player adds to the player's sectors. -/
theorem eye_of_sensorCells {cells : List SectorId} :
    (gridId p, cells) ∈ (e.world.alive.filterMap fun c =>
      match c.ownerId, c.sensor with
      | some owner, some range =>
          if owner = 0 then none
          else some (gridId owner, collectNeighbourhood (universeToSector c.transform.pos)
            (sectorRadiusForRange (D := D) range))
      | _, _ => none) ↔
    ∃ c ∈ e.world.alive, c.Of p ∧ ∃ range, c.sensor = some range ∧
      cells = collectNeighbourhood (universeToSector c.transform.pos)
        (sectorRadiusForRange (D := D) range) := by
  rw [List.mem_filterMap]
  refine exists_congr fun c => and_congr_right fun _ => ?_
  unfold Components.Of
  cases c.ownerId with
  | none => simp only [reduceCtorEq, and_false, false_and]
  | some owner =>
      cases c.sensor with
      | none => simp only [reduceCtorEq, false_and, exists_false, and_false]
      | some range =>
          by_cases hzero : owner = 0
          · simp only [if_pos hzero, reduceCtorEq, Option.some.injEq, exists_eq_left', false_iff]
            rintro ⟨⟨hp, rfl⟩, _⟩
            exact hp hzero
          · simp only [if_neg hzero, Option.some.injEq, Prod.mk.injEq, exists_eq_left']
            constructor
            · rintro ⟨hid, rfl⟩
              have hown := gridId_inj hid
              exact ⟨⟨hown ▸ hzero, hown⟩, rfl⟩
            · rintro ⟨⟨_, rfl⟩, rfl⟩
              exact ⟨rfl, rfl⟩

open Observed (sensorCells)

theorem sensorCells_eq_none :
    (sensorCells (D := D) e).find? (gridId p) = none ↔ ¬ ∃ c ∈ e.world.alive, c.Eye p := by
  unfold sensorCells
  simp only []
  rw [OrdMap.find?_collect]
  have hiff : (∃ x ∈ e.world.alive.filterMap fun c =>
      match c.ownerId, c.sensor with
      | some owner, some range =>
          if owner = 0 then none
          else some (gridId owner, collectNeighbourhood (universeToSector c.transform.pos)
            (sectorRadiusForRange (D := D) range))
      | _, _ => none, x.1 = gridId p) ↔ ∃ c ∈ e.world.alive, c.Eye p := by
    constructor
    · rintro ⟨⟨k, cells⟩, hx, rfl⟩
      rcases eye_of_sensorCells.mp hx with ⟨c, hc, hof, range, hrange, _⟩
      exact ⟨c, hc, hof, by rw [hrange]; rfl⟩
    · rintro ⟨c, hc, hof, hsensor⟩
      rcases Option.isSome_iff_exists.mp hsensor with ⟨range, hrange⟩
      exact ⟨_, eye_of_sensorCells.mpr ⟨c, hc, hof, range, hrange, rfl⟩, rfl⟩
  rw [← hiff]
  split
  · rename_i h
    exact ⟨fun hno => absurd hno nofun,
      fun hno => absurd h hno⟩
  · rename_i h
    exact ⟨fun _ => h, fun _ => rfl⟩

theorem mem_sensorCells {s : SectorId} :
    (∃ cells, (sensorCells (D := D) e).find? (gridId p) = some cells ∧ s ∈ cells) ↔
      ∃ c ∈ e.world.alive, c.Covers (D := D) p s := by
  unfold sensorCells
  simp only []
  rw [OrdMap.find?_collect]
  constructor
  · rintro ⟨cells, hcells, hs⟩
    split at hcells
    · rw [Option.some.injEq] at hcells
      rw [← hcells, List.mem_flatMap] at hs
      rcases hs with ⟨⟨k, cells'⟩, hx, hs⟩
      rcases List.mem_filter.mp hx with ⟨hx, hk⟩
      have hkey : k = gridId p := of_decide_eq_true hk
      rw [hkey] at hx
      rcases eye_of_sensorCells.mp hx with ⟨c, hc, hof, range, hrange, hnear⟩
      exact ⟨c, hc, hof, range, hrange, hnear ▸ hs⟩
    · exact absurd hcells nofun
  · rintro ⟨c, hc, hof, range, hrange, hs⟩
    have hx := eye_of_sensorCells.mpr ⟨c, hc, hof, range, hrange, rfl⟩
    refine ⟨_, if_pos ⟨_, hx, rfl⟩, List.mem_flatMap.mpr ⟨(gridId p, _), ?_, hs⟩⟩
    exact List.mem_filter.mpr ⟨hx, decide_eq_true rfl⟩

/-! ## An update -/

variable {p : UInt32} {o : Observed F D}

namespace Observed

omit [Floating F] in
theorem homed_players (l : List (Components F)) (g : InterestGrid) (n : NetId) :
    (l.foldl (fun g c => g.updateResidency (gridId c.netId) (universeToSector c.transform.pos))
      g).subscriptions n = g.subscriptions n ∧
    (l.foldl (fun g c => g.updateResidency (gridId c.netId) (universeToSector c.transform.pos))
      g).pins n = g.pins n := by
  induction l generalizing g with
  | nil => exact ⟨rfl, rfl⟩
  | cons c l ih => exact ih _

theorem mem_subscriptions_update (o : Observed F D) (p : UInt32) (s : SectorId) :
    s ∈ o.updateInterest.interest.subscriptions (gridId p) ↔
      o.sim.HasEye p ∧ (o.sim.Covered p s ∨ s ∈ o.interest.pins (gridId p)) ∨
        ¬ o.sim.HasEye p ∧ s ∈ o.interest.subscriptions (gridId p) := by
  have hnone : (sensorCells (D := D) o.sim.ents).find? (gridId p) = none ↔ ¬ o.sim.HasEye p :=
    sensorCells_eq_none
  have hsome : (∃ cells, (sensorCells (D := D) o.sim.ents).find? (gridId p) = some cells ∧
      s ∈ cells) ↔ o.sim.Covered p s := mem_sensorCells
  have hset : s ∈ o.updateInterest.interest.subscriptions (gridId p) ↔ _ :=
    InterestGrid.mem_subscriptions_setAll _ (sensorCells (D := D) o.sim.ents) (gridId p) s
  rcases homed_players o.sim.ents.world.alive o.interest (gridId p) with ⟨hsubs, hpins⟩
  rw [hset, hsubs, hpins, hnone, ← hsome]
  by_cases heye : o.sim.HasEye p
  · have hcells : ∃ cells, (sensorCells (D := D) o.sim.ents).find? (gridId p) = some cells := by
      cases hc : (sensorCells (D := D) o.sim.ents).find? (gridId p) with
      | none => exact absurd heye (hnone.mp hc)
      | some cells => exact ⟨cells, rfl⟩
    rcases hcells with ⟨cells, hc⟩
    simp only [hc, heye, Option.some.injEq, exists_eq_left', true_and, not_true_eq_false,
      false_and, or_false]
  · have hc := hnone.mpr heye
    simp only [hc, heye, reduceCtorEq, false_and, exists_false, not_false_eq_true, true_and,
      false_or]

theorem mem_pins_update (o : Observed F D) (p : UInt32) (s : SectorId) :
    s ∈ o.updateInterest.interest.pins (gridId p) ↔
      s ∈ o.interest.pins (gridId p) ∧ ¬ o.sim.Covered p s := by
  have hsome : (∃ cells, (sensorCells (D := D) o.sim.ents).find? (gridId p) = some cells ∧
      s ∈ cells) ↔ o.sim.Covered p s := mem_sensorCells
  have hset : s ∈ o.updateInterest.interest.pins (gridId p) ↔ _ :=
    InterestGrid.mem_pins_setAll _ (sensorCells (D := D) o.sim.ents) (gridId p) s
  rw [hset, (homed_players o.sim.ents.world.alive o.interest (gridId p)).2, hsome]

/-! ## The calls -/

/-- The grid does not decide over a call. -/
theorem apply_sim (o : Observed F D) (op : Op F) : (o.apply op).sim = o.sim.apply op := by
  cases op with
  | beginWarpTo netId dest => exact beginWarpTo_sim o netId dest
  | beginJumpTo netId beacon => exact beginJumpTo_sim o netId beacon
  | applyFleetCommand player cmd =>
      have hfold : ∀ (l : List UInt32) (r : Nat × Observed F D),
          (l.foldl (fun r unitNet =>
            if (r.2.sim.ents.find unitNet).bind Components.ownerId = some player then
              let a := r.2.applyIntentToUnit unitNet cmd
              (if a.1 then r.1 + 1 else r.1, a.2)
            else r) r).2.sim =
          (l.foldl (fun (r : Nat × ServerUniverse F D) unitNet =>
            if (r.2.ents.find unitNet).bind Components.ownerId = some player then
              let a := r.2.applyIntentToUnit unitNet cmd
              (if a.1 then r.1 + 1 else r.1, a.2)
            else r) (r.1, r.2.sim)).2 := by
        intro l
        induction l with
        | nil => exact fun _ => rfl
        | cons n l ih =>
            intro r
            rw [List.foldl_cons, List.foldl_cons, ih]
            by_cases hown : (r.2.sim.ents.find n).bind Components.ownerId = some player
            · simp only [if_pos hown, (intent_sim r.2 n cmd).1, (intent_sim r.2 n cmd).2]
            · simp only [if_neg hown]
      exact hfold cmd.units (0, o)
  | claimLoot claimer container => rfl
  | despawnBase netId => rfl
  | step dt => rfl
  | _ => rfl

/-- Where something is added for a player: held, and subscribed to. -/
def Adds (p : UInt32) (s : SectorId) (q : Prop) (g g' : InterestGrid) : Prop :=
  (s ∈ g'.pins (gridId p) ↔ q ∨ s ∈ g.pins (gridId p)) ∧
    (s ∈ g'.subscriptions (gridId p) ↔ q ∨ s ∈ g.subscriptions (gridId p))

omit [Floating F] [Floating D] [Widens F D] in
theorem Adds.refl (p : UInt32) (s : SectorId) (g : InterestGrid) : Adds p s False g g :=
  ⟨iff_of_eq (false_or _).symm, iff_of_eq (false_or _).symm⟩

theorem Adds.trans {q r : Prop} {g g' g'' : InterestGrid} (h : Adds p s q g g')
    (h' : Adds p s r g' g'') : Adds p s (q ∨ r) g g'' := by
  constructor
  · rw [h'.1, h.1, or_assoc, or_left_comm]
  · rw [h'.2, h.2, or_assoc, or_left_comm]

theorem Adds.congr {q r : Prop} {g g' : InterestGrid} (h : Adds p s q g g') (hqr : q ↔ r) :
    Adds p s r g g' :=
  ⟨h.1.trans (or_congr_left hqr), h.2.trans (or_congr_left hqr)⟩

theorem prefetch_adds (p : UInt32) (s : SectorId) (o : Observed F D) (n : UInt32)
    (dest : UniversePos) : Adds p s (o.sim.Heads p s n dest) o.interest
      (o.prefetchTravelInterest n dest).interest := by
  unfold prefetchTravelInterest ServerUniverse.Heads Components.Of
  split
  · rename_i hc
    refine (Adds.refl p s _).congr (iff_of_false not_false ?_)
    simp only [hc, reduceCtorEq, false_and, exists_false, not_false_eq_true]
  · rename_i c hc
    split
    · rename_i hown
      refine (Adds.refl p s _).congr (iff_of_false not_false ?_)
      simp only [hc, Option.some.injEq, exists_eq_left', hown, reduceCtorEq, and_false, false_and,
        not_false_eq_true]
    · rename_i owner hown
      simp only [hc, Option.some.injEq, exists_eq_left', hown]
      split
      · rename_i hzero
        refine (Adds.refl p s _).congr (iff_of_false not_false ?_)
        rintro ⟨⟨hp, rfl⟩, _⟩
        exact hp hzero
      · rename_i hsome
        refine Adds.congr (InterestGrid.preSubscribe_adds o.interest (gridId owner) _ _
          (gridId p) s) (and_congr_left fun _ => ⟨fun h => ?_, fun h => by rw [h.2]⟩)
        have hsame := gridId_inj h
        exact ⟨hsame ▸ hsome, hsame⟩

theorem beginWarpTo_adds (p : UInt32) (s : SectorId) (o : Observed F D) (n : UInt32)
    (dest : UniversePos) : Adds p s (o.sim.WarpsTo p s n dest) o.interest
      (o.beginWarpTo n dest).2.interest := by
  unfold ServerUniverse.WarpsTo beginWarpTo
  simp only []
  split
  · rename_i hgo
    exact (prefetch_adds p s _ n dest).congr (and_iff_right hgo).symm
  · rename_i hno
    exact (Adds.refl p s _).congr (iff_of_false not_false fun h => hno h.1)

theorem beginJumpTo_adds (p : UInt32) (s : SectorId) (o : Observed F D) (n : UInt32)
    (destBeacon : String) : Adds p s (o.sim.JumpsTo p s n destBeacon) o.interest
      (o.beginJumpTo n destBeacon).2.interest := by
  unfold ServerUniverse.JumpsTo beginJumpTo
  simp only []
  split
  · rename_i hgo
    cases hdest : beaconPos (o.sim.beginJumpTo n destBeacon).2 destBeacon with
    | none =>
        refine (Adds.refl p s _).congr (iff_of_false not_false ?_)
        simp only [reduceCtorEq, false_and, exists_false, and_false, not_false_eq_true]
    | some dest =>
        refine (prefetch_adds p s _ n dest).congr ?_
        simp only [Option.some.injEq, exists_eq_left', and_iff_right hgo]
        rfl
  · rename_i hno
    exact (Adds.refl p s _).congr (iff_of_false not_false fun h => hno h.1)

theorem applyIntentToUnit_adds (p : UInt32) (s : SectorId) (o : Observed F D) (n : UInt32)
    (cmd : FleetCommand F) : Adds p s (o.sim.Obeys p s n cmd) o.interest
      (o.applyIntentToUnit n cmd).2.interest := by
  unfold ServerUniverse.Obeys applyIntentToUnit
  cases cmd.intent with
  | warp => exact beginWarpTo_adds p s o n _
  | jump => exact beginJumpTo_adds p s o n _
  | claimLoot =>
      dsimp only
      unfold claimLoot
      simp only []
      split <;> exact Adds.refl p s _
  | _ => exact Adds.refl p s _

/-- The units of a command one after the other. -/
theorem orders_adds (p : UInt32) (s : SectorId) (player : UInt32) (cmd : FleetCommand F)
    (units : List UInt32) (r : Nat × Observed F D) :
    Adds p s (r.2.sim.OrdersOut p s player cmd units) r.2.interest
      (units.foldl (order player cmd) r).2.interest := by
  induction units generalizing r with
  | nil => exact Adds.refl p s _
  | cons n units ih =>
      have hrest := ih (order player cmd r n)
      rw [List.foldl_cons]
      unfold ServerUniverse.OrdersOut
      unfold order at hrest ⊢
      by_cases hown : (r.2.sim.ents.find n).bind Components.ownerId = some player
      · simp only [if_pos hown] at hrest ⊢
        rw [(intent_sim r.2 n cmd).2] at hrest
        exact (applyIntentToUnit_adds p s r.2 n cmd).trans hrest
      · simp only [if_neg hown] at hrest ⊢
        exact hrest

/-- A call adds the neighbourhoods that it lets a player's units set out for. -/
theorem apply_adds (p : UInt32) (s : SectorId) (o : Observed F D) {op : Op F}
    (hop : ∀ dt, op ≠ .step dt) :
    Adds p s (o.sim.SetsOut p s op) o.interest (o.apply op).interest := by
  cases op with
  | step dt => exact absurd rfl (hop dt)
  | beginWarpTo n dest => exact beginWarpTo_adds p s o n dest
  | beginJumpTo n beacon => exact beginJumpTo_adds p s o n beacon
  | applyFleetCommand player cmd => exact orders_adds p s player cmd cmd.units (0, o)
  | claimLoot claimer container =>
      unfold apply claimLoot
      simp only []
      split <;> exact Adds.refl p s _
  | despawnBase n =>
      unfold apply
      simp only []
      split <;> exact Adds.refl p s _
  | _ => exact Adds.refl p s _

/-! ## A run -/

theorem run_sim (run : List (Op F)) (o : Observed F D) :
    (run.foldl apply o).sim = run.foldl ServerUniverse.apply o.sim := by
  induction run generalizing o with
  | nil => rfl
  | cons op run ih =>
      rw [List.foldl_cons, List.foldl_cons, ih, apply_sim]

/-- A step lets go of what it covers, and leaves a player subscribed to the rest of what is held
    for it, to what it covers, and to what it saw if the player has no sensor. -/
theorem holds_step (p : UInt32) (s : SectorId) (o : Observed F D) (dt : F) {awaited seen : Prop}
    (hpins : s ∈ o.interest.pins (gridId p) ↔ awaited)
    (hsubs : s ∈ o.interest.subscriptions (gridId p) ↔ awaited ∨ seen) :
    (s ∈ (o.step dt).interest.pins (gridId p) ↔ awaited ∧ ¬ (o.sim.step dt).Covered p s) ∧
    (s ∈ (o.step dt).interest.subscriptions (gridId p) ↔
      awaited ∧ ¬ (o.sim.step dt).Covered p s ∨ (o.sim.step dt).Covered p s ∨
        seen ∧ ¬ (o.sim.step dt).HasEye p) := by
  have hkept : s ∈ (o.step dt).interest.pins (gridId p) ↔
      s ∈ o.interest.pins (gridId p) ∧ ¬ (o.sim.step dt).Covered p s := mem_pins_update _ p s
  have hset : s ∈ (o.step dt).interest.subscriptions (gridId p) ↔
      (o.sim.step dt).HasEye p ∧
        ((o.sim.step dt).Covered p s ∨ s ∈ o.interest.pins (gridId p)) ∨
      ¬ (o.sim.step dt).HasEye p ∧ s ∈ o.interest.subscriptions (gridId p) :=
    mem_subscriptions_update _ p s
  refine ⟨by rw [← hpins]; exact hkept, ?_⟩
  rw [hset, hpins, hsubs]
  by_cases heye : (o.sim.step dt).HasEye p
  · -- The step refreshes the player: what it awaits stays, except for what is covered now.
    simp only [heye, true_and, not_true_eq_false, false_and, and_false, or_false]
    by_cases hs : (o.sim.step dt).Covered p s
    · simp only [hs, true_or, or_true]
    · simp only [hs, false_or, or_false, not_false_eq_true, and_true]
  · have hblind : ¬ (o.sim.step dt).Covered p s := fun h => heye h.hasEye
    simp only [heye, hblind, false_and, not_false_eq_true, true_and, and_true, false_or]

/-- What is held for a player is what it awaits, and it is subscribed to that and to what it saw
    last. -/
theorem holds_run (p : UInt32) (s : SectorId) (run : List (Op F)) :
    (s ∈ (run.foldl apply (fresh : Observed F D)).interest.pins (gridId p) ↔ Awaited D p s run) ∧
    (s ∈ (run.foldl apply (fresh : Observed F D)).interest.subscriptions (gridId p) ↔
      Awaited D p s run ∨ LastSeen D p s run) := by
  induction run using List.reverseRecOn with
  | nil =>
      have hnone : ¬ Awaited D p s ([] : List (Op F)) := History.not_pending_nil _ _ _ _
      have hunseen : ¬ LastSeen D p s ([] : List (Op F)) := History.not_pending_nil _ _ _ _
      exact ⟨iff_of_false List.not_mem_nil hnone,
        iff_of_false List.not_mem_nil (not_or.mpr ⟨hnone, hunseen⟩)⟩
  | append_singleton run op ih =>
      unfold Awaited LastSeen at ih ⊢
      rw [History.pending_concat, History.pending_concat, List.foldl_append, List.foldl_cons,
        List.foldl_nil]
      have hsim : (run.foldl apply (fresh : Observed F D)).sim =
          run.foldl ServerUniverse.apply .fresh := run_sim run _
      generalize run.foldl apply (fresh : Observed F D) = o at ih hsim ⊢
      rw [← hsim]
      by_cases hop : ∃ dt, op = .step dt
      · rcases hop with ⟨dt, rfl⟩
        have hcover : o.sim.EndsCovering p s (.step dt) ↔ (o.sim.step dt).Covered p s :=
          ⟨fun ⟨_, h, hc⟩ => by rwa [Op.step.inj h], fun hc => ⟨dt, rfl, hc⟩⟩
        have hsee : o.sim.EndsSeeing p (.step dt) ↔ (o.sim.step dt).HasEye p :=
          ⟨fun ⟨_, h, hc⟩ => by rwa [Op.step.inj h], fun hc => ⟨dt, rfl, hc⟩⟩
        have hout : o.sim.SetsOut p s (.step dt) ↔ False := Iff.rfl
        rw [hcover, hsee, hout, false_or]
        exact holds_step p s o dt ih.1 ih.2
      · have hadds := apply_adds p s o (not_exists.mp hop)
        have hcover : ¬ o.sim.EndsCovering p s op := fun ⟨dt, h, _⟩ => hop ⟨dt, h⟩
        have hsee : ¬ o.sim.EndsSeeing p op := fun ⟨dt, h, _⟩ => hop ⟨dt, h⟩
        rw [hadds.1, hadds.2, ih.1, ih.2]
        simp only [hcover, hsee, not_false_eq_true, and_true, false_or, or_assoc]

end Observed

/-- Who can travel has a sensor. -/
def Scout (c : Components F) : Prop := c.navState.isSome = true → c.sensor.isSome = true

theorem scout_innate : Innate D (Scout (F := F)) := by
  refine ⟨fun c c' h hc => ?_, fun u mk hmk n => ?_⟩
  · unfold Components.identity at h
    simp only [Identity.mk.injEq, List.cons.injEq, and_true] at h
    rcases h with ⟨_, _, _, _, _, _, _, _, _, _, _, _, _, _, hnav, _, _, _, hsensor, _⟩
    unfold Scout
    rw [hnav, hsensor]
    exact hc
  · cases hmk with
    | base start vel =>
        exact installFitGetD_induct (P := Scout) (fun _ => rfl) (fun _ _ _ => rfl) _
    | ship player shapeId pos fitName =>
        exact installFitOr_induct (P := Scout) (fun _ => rfl) (fun _ _ _ => rfl) _ _
    | guardian pos siteId fitName =>
        have hstill : (installFitOr u.combat (ServerUniverse.npcComponents pos n) fitName
            npcFit).navState = none :=
          installFitOr_induct (P := fun c => c.navState = none) rfl (fun _ _ => rfl) _ _
        intro h
        rw [show ({ installFitOr u.combat (ServerUniverse.npcComponents pos n) fitName npcFit with
          npcAi := some ⟨.defend, pos, ServerUniverse.npcAggroRange,
            ServerUniverse.npcFleeHpFrac, 0, siteId⟩ } : Components F).navState = none
          from hstill] at h
        exact absurd h Bool.false_ne_true
    | prop shapeId pos => exact fun h => absurd h Bool.false_ne_true
    | node type yield pos => exact fun h => absurd h Bool.false_ne_true
    | beacon bi pos => exact fun h => absurd h Bool.false_ne_true
    | shot proj => exact fun h => absurd h Bool.false_ne_true
    | loot c => exact fun h => absurd h Bool.false_ne_true

namespace Observed

/-- After a step of a run from the first day on, the subscriptions of a player are right exactly
    if the journeys up to then are on course. -/
theorem follows_iff (p : UInt32) (run : List (Op F)) (dt : F) :
    ((run.foldl apply (fresh : Observed F D)).step dt).Follows p ↔ OnCourse D p run dt := by
  have hsim : (run.foldl apply (fresh : Observed F D)).sim =
      run.foldl ServerUniverse.apply .fresh := run_sim run _
  have hscout : Everyone Scout ((run.foldl apply (fresh : Observed F D)).sim.step dt) := by
    rw [hsim]
    have hstart : Everyone Scout (.fresh : ServerUniverse F D) :=
      ⟨World.Sound.fresh, fun _ hc => absurd hc List.not_mem_nil⟩
    exact scout_innate.apply
      (Everyone.foldl (fun _ op h => scout_innate.apply h op) run hstart) (.step dt)
  have hholds := fun s => holds_run (D := D) p s run
  unfold OnCourse
  simp only []
  rw [← hsim]
  generalize run.foldl apply (fresh : Observed F D) = o at hholds hscout ⊢
  have hsubs := fun s => (holds_step p s o dt (hholds s).1 (hholds s).2).2
  have hnow : (∀ s, s ∈ (o.step dt).interest.subscriptions (gridId p) ↔
      (o.sim.step dt).Covered p s ∨ (o.sim.step dt).Aimed p s) ↔
      ((o.sim.step dt).HasEye p → ∀ s, ¬ (o.sim.step dt).Covered p s →
        (Awaited D p s run ↔ (o.sim.step dt).Aimed p s)) ∧
      (¬ (o.sim.step dt).HasEye p → ∀ s, ¬ Awaited D p s run ∧ ¬ LastSeen D p s run) := by
    by_cases heye : (o.sim.step dt).HasEye p
    · simp only [heye, true_implies, not_true_eq_false, false_implies, and_true]
      refine forall_congr' fun s => ?_
      rw [hsubs]
      by_cases hs : (o.sim.step dt).Covered p s
      · simp only [hs, true_or, or_true, not_true_eq_false, false_implies]
      · simp only [hs, heye, false_or, and_true, not_true_eq_false, and_false, or_false,
          not_false_eq_true, true_implies]
    · -- Without a sensor nothing is covered, and nobody travels.
      simp only [heye, false_implies, not_false_eq_true, true_implies, true_and]
      refine forall_congr' fun s => ?_
      have hstill : ¬ (o.sim.step dt).Aimed p s := by
        rintro ⟨c, hc, hof, nav, hnav, _⟩
        exact heye ⟨c, hc, hof, hscout.every c hc (by rw [hnav]; rfl)⟩
      have hblind : ¬ (o.sim.step dt).Covered p s := fun h => heye h.hasEye
      rw [hsubs, ← not_or]
      simp only [heye, hblind, hstill, not_false_eq_true, and_true, false_or, or_self, iff_false]
  constructor
  · exact fun h => hnow.mp h.subscribed
  · refine fun h => ⟨hnow.mpr h, fun hnone => InterestGrid.visibleTo_eq_nil ?_⟩
    refine List.eq_nil_iff_forall_not_mem.mpr fun s hs => ?_
    exact ((hnow.mpr h s).mp hs).elim (hnone s).1 (hnone s).2

end Observed

end

/-- A base is spawned and warps over six sectors; it is about to arrive. -/
def arriving : List (Op Float32) :=
  [.spawnBase ⟨0, 0, 0⟩ Vec3.zero, .step 1.0, .beginWarpTo 1 ⟨100000, 0, 0⟩, .step 1.0, .step 100.0]

/-- The journey is on course at its beginning and at its end. -/
theorem arriving_on_course :
    OnCourse Float 1 (arriving.take 3) 1.0 ∧ OnCourse Float 1 arriving 100.0 :=
  ⟨(Observed.follows_iff 1 (arriving.take 3) 1.0).mp
      (Observed.follows_of_list _ ⟨rfl, by decide +kernel⟩ (by decide +kernel) (by decide +kernel)),
    (Observed.follows_iff 1 arriving 100.0).mp
      (Observed.follows_of_list _ ⟨rfl, by decide +kernel⟩ (by decide +kernel) (by decide +kernel))⟩

/-- A base is spawned, the universe goes on, and the base is removed as its player leaves. -/
def leaving : List (Op Float32) :=
  [.spawnBase ⟨0, 0, 0⟩ Vec3.zero, .step 1.0, .despawnBase 1]

/-- After the next step the player is still subscribed to the sector of its base. -/
theorem subscribed_after_leaving :
    ¬ ((leaving.foldl Observed.apply (.fresh : Observed Float32 Float)).step 1.0).Follows 1 := by
  rintro ⟨h, _⟩
  rcases (h ⟨0, 0, 0⟩).mp (by decide +kernel) with ⟨c, hc, _⟩ | ⟨c, hc, _⟩
  · exact absurd (List.length_pos_of_mem hc) (by decide +kernel)
  · exact absurd (List.length_pos_of_mem hc) (by decide +kernel)

end Shard

end EarthRise
