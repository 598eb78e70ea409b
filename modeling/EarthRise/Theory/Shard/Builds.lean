import EarthRise.Core.UniverseData
import EarthRise.Theory.Shard.Restore
import EarthRise.Theory.Shard.Totals

/-!
# What Becomes of Paid Builds

A build is paid when it first advances, goes on for a while, and ends with a ship of its
owner. The ship is spawned after the payment, by a function that refuses it where the owner has
all the ships that the cap allows. Then the build is over, and its cost is gone.

Three numbers tell of a player's builds: how many are under way, how many are paid in a step and
how many finish in it. They balance, since only the build system touches a queue and no base is
ever destroyed. So the builds of a run are accounted for exactly when each one that finishes
finds room below the cap.

## Main definitions

* `underway`, `paying`, `finishing`: Builds of a player.
* `ships`, `launched`: Ships of a player, and those that the build system spawns.
* `market`: The universe that the build system of a step meets.
* `RoomThroughout`: Every build that finishes finds room.

## Theorems

* `underway_acts`: Nothing but the build system touches a build under way.
* `ships_deliver`: The ships of the builds that finish together.
* `step_balance`: The builds of a step.
* `paid_builds_kept`: The builds of a run.
-/

namespace EarthRise

namespace Shard

open Cooked (navErrors economyErrors)
open Ecs (World)
open ServerUniverse (buildDone)
open Universe (UniversePos Vec3)

section

variable {F D : Type} [Floating F] [Floating D] [Widens F D]

/-! ## The builds of a player -/

/-- The entity has a build that is paid and not over. -/
def Components.Underway (c : Components F) : Prop :=
  c.storage.isSome = true ∧ c.buildQueue.any (fun q => q.active && q.paid) = true

instance (c : Components F) : Decidable c.Underway := inferInstanceAs (Decidable (_ ∧ _))

/-- The entity pays for a build when its queue advances. -/
def Components.Pays (economy : EconomyTuning F) (c : Components F) : Prop :=
  c.buildQueue.any (fun q => q.active && !q.paid) = true ∧
    c.storage.any (fun s => decide (canAfford s economy)) = true

instance (economy : EconomyTuning F) (c : Components F) : Decidable (c.Pays economy) :=
  inferInstanceAs (Decidable (_ ∧ _))

/-- The entity has a build, paid by then, that a step brings to its end. -/
def Components.Finishes (economy : EconomyTuning F) (dt : F) (c : Components F) : Prop :=
  (c.Underway ∨ c.Pays economy) ∧
    c.buildQueue.any (fun q => decide (economy.buildSeconds ≤ q.progress + dt)) = true

instance (economy : EconomyTuning F) (dt : F) (c : Components F) :
    Decidable (c.Finishes economy dt) :=
  inferInstanceAs (Decidable (_ ∧ _))

/-- One for an entity of a player with a property. -/
def mark (p : UInt32) (P : Components F → Prop) [DecidablePred P] (c : Components F) : Nat :=
  if c.ownerId = some p ∧ P c then 1 else 0

namespace ServerUniverse

/-- How many builds of a player are paid and not over. -/
def underway (p : UInt32) (u : ServerUniverse F D) : Nat := u.total (mark p Components.Underway)

/-- How many builds of a player the build system is about to be paid for. -/
def paying (p : UInt32) (u : ServerUniverse F D) : Nat :=
  u.total (mark p (Components.Pays u.economy))

/-- How many builds of a player the build system is about to bring to their end. -/
def finishing (p : UInt32) (dt : F) (u : ServerUniverse F D) : Nat :=
  u.total (mark p (Components.Finishes u.economy dt))

/-- How many ships a player has. -/
def ships (p : UInt32) (u : ServerUniverse F D) : Nat :=
  u.total (mark p fun c => c.shipTag.isSome = true)

/-- How many ships the build system spawns for a player. -/
def launched (p : UInt32) (dt : F) (u : ServerUniverse F D) : Nat :=
  (u.buildSystem dt).ships p - u.ships p

/-- Every build of a player that the build system is about to bring to its end finds room
    below the fleet cap. -/
def Room (p : UInt32) (dt : F) (u : ServerUniverse F D) : Prop :=
  ∀ j < u.finishing p dt, UInt16.ofNat (u.ships p + j) < u.economy.fleetCap

instance (p : UInt32) (dt : F) (u : ServerUniverse F D) : Decidable (u.Room p dt) :=
  inferInstanceAs (Decidable (∀ j < _, _))

/-- The universe that the build system of a step meets. -/
def market (dt : F) (u : ServerUniverse F D) : ServerUniverse F D := roam dt (beforeTravel dt u)

/-- One step after the other. -/
def stepAll (dts : List F) (u : ServerUniverse F D) : ServerUniverse F D :=
  dts.foldl (fun u dt => u.step dt) u

/-- How many builds of a player are paid in a run. -/
def paidIn (p : UInt32) : List F → ServerUniverse F D → Nat
  | [], _ => 0
  | dt :: dts, u => (u.market dt).paying p + paidIn p dts (u.step dt)

/-- How many ships the build system spawns for a player in a run. -/
def launchedIn (p : UInt32) : List F → ServerUniverse F D → Nat
  | [], _ => 0
  | dt :: dts, u => (u.market dt).launched p dt + launchedIn p dts (u.step dt)

/-- Every build of a player that finishes in a run finds room. -/
def RoomThroughout (p : UInt32) : List F → ServerUniverse F D → Prop
  | [], _ => True
  | dt :: dts, u => (u.market dt).Room p dt ∧ RoomThroughout p dts (u.step dt)

end ServerUniverse

/-! ## One queue -/

variable {p : UInt32} {economy : EconomyTuning F} {dt : F} {c : Components F}

omit [Floating F] in
theorem mark_congr {P : Components F → Prop} [DecidablePred P] {c c' : Components F}
    (howner : c'.ownerId = c.ownerId) (hP : P c' ↔ P c) : mark p P c' = mark p P c := by
  unfold mark
  rw [howner]
  exact if_congr (and_congr_right fun _ => hP) rfl rfl

omit [Floating F] in
theorem mark_zero {P : Components F → Prop} [DecidablePred P] (h : ¬ P c) : mark p P c = 0 :=
  if_neg fun hc => h hc.2

omit [Floating F] in
/-- Steady without building: a build under way stays so. -/
theorem Steady.underway {x : Effect} {c c' : Components F} (hx : x.builds = false)
    (h : Steady x c c') : mark p Components.Underway c' = mark p Components.Underway c := by
  have hid := h.identity
  unfold Components.identity at hid
  rw [Identity.mk.injEq] at hid
  rcases hid with ⟨_, _, _, howner, _, _, hstorage, _⟩
  refine mark_congr howner ?_
  unfold Components.Underway
  rw [hstorage, h.queue hx]

/-- Neither builds nor stores. -/
theorem mark_builds_zero (p : UInt32) (economy : EconomyTuning F) (dt : F)
    (hnot : c.buildQueue = none ∨ c.storage = none) :
    mark p Components.Underway c = 0 ∧ mark p (Components.Pays economy) c = 0 ∧
      mark p (Components.Finishes economy dt) c = 0 := by
  have hunder : ¬ c.Underway := by
    rintro ⟨hs, hq⟩
    rcases hnot with h | h
    · rw [h] at hq
      exact absurd hq Bool.false_ne_true
    · rw [h] at hs
      exact absurd hs Bool.false_ne_true
  have hpays : ¬ c.Pays economy := by
    rintro ⟨hq, hs⟩
    rcases hnot with h | h
    · rw [h] at hq
      exact absurd hq Bool.false_ne_true
    · rw [h] at hs
      exact absurd hs Bool.false_ne_true
  exact ⟨mark_zero hunder, mark_zero hpays, mark_zero fun h => h.1.elim hunder hpays⟩

theorem buildUnit_ownerId (economy : EconomyTuning F) (dt : F) (c : Components F) :
    (buildUnit economy dt c).2.ownerId = c.ownerId := by
  unfold buildUnit
  split <;> rfl

/-- What is paid or under way before a step finishes in it or is under way after it. -/
theorem buildUnit_balance (p : UInt32) (economy : EconomyTuning F) (dt : F) (c : Components F) :
    mark p (Components.Pays economy) c + mark p Components.Underway c =
      mark p (Components.Finishes economy dt) c +
        mark p Components.Underway (buildUnit economy dt c).2 := by
  by_cases howner : c.ownerId = some p
  · cases hq : c.buildQueue with
    | none =>
        rcases mark_builds_zero p economy dt (Or.inl hq) with ⟨h1, h2, h3⟩
        have hsame : (buildUnit economy dt c).2 = c := by
          unfold buildUnit
          rw [hq]
        rw [hsame, h1, h2, h3]
    | some q =>
        cases hs : c.storage with
        | none =>
            rcases mark_builds_zero p economy dt (Or.inr hs)
              with ⟨h1, h2, h3⟩
            have hsame : (buildUnit economy dt c).2 = c := by
              unfold buildUnit
              rw [hq, hs]
            rw [hsame, h1, h2, h3]
        | some s =>
            have hbuilt : (buildUnit economy dt c).2 = { c with
                buildQueue := some (buildStep q s economy dt).2.1
                storage := some (buildStep q s economy dt).2.2 } := by
              unfold buildUnit
              rw [hq, hs, howner]
            rw [hbuilt]
            unfold mark Components.Finishes Components.Underway Components.Pays buildStep buildOn
            simp only [howner, hq, hs, true_and, Option.any_some, Option.isSome_some]
            cases hactive : q.active <;> cases hpaid : q.paid <;>
              by_cases hafford : canAfford s economy <;>
              by_cases hend : economy.buildSeconds ≤ q.progress + dt <;>
              simp [hactive, hpaid, hafford, hend]
  · have hzero : ∀ (P : Components F → Prop) [DecidablePred P] (c' : Components F),
        c'.ownerId = c.ownerId → mark p P c' = 0 := by
      intro P _ c' h
      exact if_neg fun hc => howner (h ▸ hc.1)
    rw [hzero _ c rfl, hzero _ c rfl, hzero _ c rfl, hzero _ _ (buildUnit_ownerId economy dt c)]

/-- The build system has a build of a player on its list when the build finishes. -/
theorem buildDone_count (p : UInt32) (economy : EconomyTuning F) (dt : F) (c : Components F) :
    (buildDone economy dt c).toList.countP (fun d => d.1 = p) =
      mark p (Components.Finishes economy dt) c := by
  have hzero : c.buildQueue = none ∨ c.storage = none →
      (buildDone economy dt c).toList.countP (fun d => d.1 = p) =
        mark p (Components.Finishes economy dt) c := by
    intro hnot
    rw [(mark_builds_zero p economy dt hnot).2.2]
    have hidle : (buildUnit economy dt c).1 = .idle := by
      unfold buildUnit
      rcases hnot with h | h
      · rw [h]
      · rw [h]
        cases c.buildQueue <;> rfl
    unfold buildDone
    rw [hidle, if_neg nofun]
    rfl
  cases hq : c.buildQueue with
  | none => exact hzero (Or.inl hq)
  | some q =>
      cases hs : c.storage with
      | none => exact hzero (Or.inr hs)
      | some s =>
          cases howner : c.ownerId with
          | none =>
              unfold buildDone mark
              rw [howner, Option.map_none, ite_self]
              rfl
          | some o =>
              have hresult : (buildUnit economy dt c).1 = (buildStep q s economy dt).1 := by
                unfold buildUnit
                rw [hq, hs, howner]
              unfold buildDone mark Components.Finishes Components.Underway Components.Pays
              rw [hresult]
              unfold buildStep buildOn
              simp only [howner, hq, hs, Option.any_some, Option.isSome_some, Option.map_some,
                Option.some.injEq]
              cases hactive : q.active <;> cases hpaid : q.paid <;>
                by_cases hafford : canAfford s economy <;>
                by_cases hend : economy.buildSeconds ≤ q.progress + dt <;>
                by_cases hp : o = p <;>
                simp [hafford, hend, hp]

omit [Floating D] [Widens F D] in
theorem finishing_eq (p : UInt32) (dt : F) (u : ServerUniverse F D) :
    (u.ents.world.alive.filterMap (buildDone u.economy dt)).countP (fun d => d.1 = p) =
      u.finishing p dt := by
  unfold ServerUniverse.finishing ServerUniverse.total World.total
  induction u.ents.world.alive with
  | nil => rfl
  | cons c l ih =>
      rw [List.map_cons, List.sum_cons, ← ih, ← buildDone_count]
      cases hd : buildDone u.economy dt c with
      | none => rw [List.filterMap_cons_none hd, Option.toList_none, List.countP_nil, Nat.zero_add]
      | some d =>
          rw [List.filterMap_cons_some hd, List.countP_cons, Option.toList_some,
            List.countP_singleton, Nat.add_comm]

/-! ## The ships -/

variable {u u' : ServerUniverse F D}

omit [Floating F] [Floating D] [Widens F D] in
theorem ownedShipCount_eq (u : ServerUniverse F D) (p : UInt32) :
    u.ownedShipCount p = UInt16.ofNat (u.ships p) := by
  unfold ServerUniverse.ownedShipCount ServerUniverse.ships ServerUniverse.total World.total
  congr 1
  induction u.ents.world.alive with
  | nil => rfl
  | cons c l ih =>
      rw [List.countP_cons, List.map_cons, List.sum_cons, ih, Nat.add_comm]
      congr 1
      unfold mark
      simp only [decide_eq_true_eq]

/-- What a build of a player at a place ends with. -/
def builtShip (u : ServerUniverse F D) (d : UInt32 × UniversePos) : Components F :=
  installFitOr u.combat (u.shipComponents d.1 shipShapeId d.2 u.nextId) defaultShipFit
    defaultShipFit

section

omit [Floating D] [Widens F D]

theorem builtShip_parts (u : ServerUniverse F D) (d : UInt32 × UniversePos) :
    (builtShip u d).ownerId = some d.1 ∧ (builtShip u d).shipTag.isSome = true ∧
      (builtShip u d).buildQueue = none :=
  installFitOr_induct (P := fun c => c.ownerId = some d.1 ∧ c.shipTag.isSome = true ∧
    c.buildQueue = none) ⟨rfl, rfl, rfl⟩ (fun _ _ => ⟨rfl, rfl, rfl⟩) _ _

theorem mark_builtShip (p : UInt32) (u : ServerUniverse F D) (d : UInt32 × UniversePos) :
    mark p (fun c => c.shipTag.isSome = true) (builtShip u d) = if d.1 = p then 1 else 0 := by
  rcases builtShip_parts u d with ⟨howner, htag, _⟩
  unfold mark
  simp only [howner, htag, Option.some.injEq, and_true]

/-- A ship is spawned where the owner has room for it. -/
theorem total_deliver (g : Components F → Nat) (hu : u.ents.world.Sound)
    (d : UInt32 × UniversePos) :
    (u.deliver d).total g =
      u.total g + if UInt16.ofNat (u.ships d.1) < u.economy.fleetCap then g (builtShip u d)
        else 0 := by
  have hspawned : (u.deliver d).total g = (u.spawnFleetShip d.1 shipShapeId d.2).2.total g := by
    unfold ServerUniverse.deliver
    simp only []
    split <;> rfl
  rw [hspawned]
  unfold ServerUniverse.spawnFleetShip ServerUniverse.spawnFleetShipFit
  rw [ownedShipCount_eq]
  by_cases hroom : UInt16.ofNat (u.ships d.1) < u.economy.fleetCap
  · rw [if_neg (UInt16.not_le.mpr hroom), if_pos hroom]
    exact total_spawn g hu _
  · rw [if_pos (UInt16.not_lt.mp hroom), if_neg hroom, Nat.add_zero]

theorem deliver_kept (hu : u.ents.world.Sound) (d : UInt32 × UniversePos) :
    (u.deliver d).ents.world.Sound ∧ (u.deliver d).economy = u.economy := by
  unfold ServerUniverse.deliver ServerUniverse.spawnFleetShip ServerUniverse.spawnFleetShipFit
  by_cases hroom : u.economy.fleetCap ≤ u.ownedShipCount d.1
  · simp only [if_pos hroom]
    exact ⟨hu, rfl⟩
  · simp only [if_neg hroom]
    split
    · exact ⟨hu.createEntity _, rfl⟩
    · exact ⟨hu.createEntity _, rfl⟩

/-- Delivering ships does not touch a build. -/
theorem underway_deliver (p : UInt32) (l : List (UInt32 × UniversePos)) (hu : u.ents.world.Sound) :
    (l.foldl ServerUniverse.deliver u).underway p = u.underway p := by
  induction l generalizing u with
  | nil => rfl
  | cons d l ih =>
      rw [List.foldl_cons, ih (deliver_kept hu d).1]
      have hship : mark p Components.Underway (builtShip u d) = 0 :=
        (mark_builds_zero p u.economy 0 (Or.inl (builtShip_parts u d).2.2)).1
      unfold ServerUniverse.underway
      rw [total_deliver _ hu, hship, ite_self, Nat.add_zero]

/-- Of the builds that finish together all end with a ship exactly if each one finds room, with
    those before it delivered. -/
theorem ships_deliver (p : UInt32) (l : List (UInt32 × UniversePos)) (hu : u.ents.world.Sound) :
    ∃ a ≤ l.countP (fun d => d.1 = p),
      (l.foldl ServerUniverse.deliver u).ships p = u.ships p + a ∧
      (a = l.countP (fun d => d.1 = p) ↔ ∀ j < l.countP (fun d => d.1 = p),
        UInt16.ofNat (u.ships p + j) < u.economy.fleetCap) := by
  induction l generalizing u with
  | nil => exact ⟨0, Nat.le_refl 0, rfl, fun _ j hj => absurd hj (Nat.not_lt_zero j), fun _ => rfl⟩
  | cons d l ih =>
      rcases deliver_kept hu d with ⟨hu', heconomy⟩
      rcases ih hu' with ⟨a, ha, hships, hroom⟩
      have hfirst : (u.deliver d).ships p = u.ships p +
          if UInt16.ofNat (u.ships d.1) < u.economy.fleetCap then
            mark p (fun c => c.shipTag.isSome = true) (builtShip u d) else 0 :=
        total_deliver _ hu d
      rw [mark_builtShip] at hfirst
      rw [heconomy] at hroom
      rw [List.foldl_cons, List.countP_cons]
      by_cases hp : d.1 = p
      · rw [if_pos (decide_eq_true hp)]
        by_cases hfree : UInt16.ofNat (u.ships p) < u.economy.fleetCap
        · -- It finds room, and the others meet one ship more.
          rw [hp, if_pos hfree, if_pos rfl] at hfirst
          rw [hfirst] at hships hroom
          refine ⟨a + 1, Nat.succ_le_succ ha, by omega, ?_⟩
          rw [Nat.add_right_cancel_iff, hroom]
          constructor
          · intro h j hj
            cases j with
            | zero => exact hfree
            | succ j =>
                have hj' := h j (by omega)
                rwa [show u.ships p + 1 + j = u.ships p + (j + 1) by omega] at hj'
          · intro h j hj
            have hj' := h (j + 1) (by omega)
            rwa [show u.ships p + (j + 1) = u.ships p + 1 + j by omega] at hj'
        · rw [hp, if_neg hfree, Nat.add_zero] at hfirst
          rw [hfirst] at hships
          refine ⟨a, by omega, hships, fun h => by omega, fun h => ?_⟩
          exact absurd (h 0 (Nat.succ_pos _)) hfree
      · rw [if_neg (by rw [decide_eq_true_iff]; exact hp), Nat.add_zero]
        rw [if_neg hp, ite_self, Nat.add_zero] at hfirst
        rw [hfirst] at hships hroom
        exact ⟨a, ha, hships, hroom⟩

end

/-! ## Everything else -/

variable {x : Effect}

omit [Floating F] [Floating D] [Widens F D] in
/-- What is no base has no build. -/
theorem underway_destroyUnit (p : UInt32) (hu : u.Sound) {n : UInt32}
    (hbase : ∀ c, u.ents.find n = some c → c.baseTag = false) :
    (u.destroyUnit n).underway p = u.underway p := by
  unfold ServerUniverse.underway
  cases hc : u.ents.find n with
  | none => exact total_destroyUnit_of_none _ hc
  | some c =>
      have hnot : ¬ c.Underway := by
        rintro ⟨_, hq⟩
        have hsome : c.buildQueue.isSome = true := by
          cases hqueue : c.buildQueue with
          | none =>
              rw [hqueue] at hq
              exact absurd hq Bool.false_ne_true
          | some q => rfl
        have htag := (hu.shaped n c hc).queue hsome
        rw [hbase c hc] at htag
        exact absurd htag Bool.false_ne_true
      have htotal := total_destroyUnit (mark p Components.Underway) hc
      rwa [mark_zero hnot, Nat.add_zero] at htotal

omit [Floating D] [Widens F D] in
theorem underway_spawn (p : UInt32) (hu : u.ents.world.Sound) {mk : UInt32 → Components F}
    (hmk : ∀ n, (mk n).buildQueue = none) : (u.spawn mk).underway p = u.underway p := by
  unfold ServerUniverse.underway
  rw [total_spawn _ hu,
    (mark_builds_zero p u.economy 0 (Or.inl (hmk u.nextId))).1, Nat.add_zero]

omit [Floating F] [Floating D] [Widens F D] in
theorem underway_destroyUnits (p : UInt32) (l : List UInt32) (hu : u.Sound)
    (hbase : ∀ n ∈ l, ∀ c, u.ents.find n = some c → c.baseTag = false) :
    (l.foldl ServerUniverse.destroyUnit u).underway p = u.underway p := by
  induction l generalizing u with
  | nil => rfl
  | cons n l ih =>
      rw [List.foldl_cons, ih (destroyUnit_sound hu n)]
      · exact underway_destroyUnit p hu (hbase n List.mem_cons_self)
      · intro m hm c hc
        exact hbase m (List.mem_cons_of_mem n hm) c (find_of_remove (destroyUnit_ents u n) hu hc).2

omit [Floating D] in
theorem underway_act (p : UInt32) (h : Act x u u') (hx : x.builds = false) (hu : u.Sound)
    (hw : u'.NoWrap) : u'.underway p = u.underway p := by
  cases h with
  | change hents => exact total_of_evolves _ (fun c c' hr => hr.underway hx) hents
  | shoot proj _ => exact underway_spawn p hu.ents.world fun _ => rfl
  | kill k _ =>
      rcases processKill_cases u k with ⟨hsame, _⟩ | ⟨c, hc, hbase, _, hkill⟩
      · rw [hsame]
      · rw [hkill] at hw ⊢
        have hw' : (u.loot c k).NoWrap := by
          unfold ServerUniverse.NoWrap at hw
          rwa [destroyUnit_nextNetId] at hw
        have hloot : (u.loot c k).underway p = u.underway p := by
          unfold ServerUniverse.underway
          rw [total_loot _ hu.ents.world hc,
            (mark_builds_zero p u.economy 0 (Or.inl rfl)).1, ite_self,
            Nat.add_zero]
        have hgrown : Advances x u (u.loot c k) := by
          unfold ServerUniverse.loot
          have hrecorded : Advances x u (u.recordKill c k.victim k.killer) := advances_of_eq rfl rfl
          split
          · exact hrecorded.trans (spawnLoot_advances x _ _)
          · exact hrecorded
        rw [underway_destroyUnit p (hgrown.sound hu hw'), hloot]
        intro c' hc'
        rw [find_loot hu c k hw' hc, Option.some.injEq] at hc'
        rw [← hc', hbase]
  | expire l _ hshots => exact underway_destroyUnits p l hu (hshots.not_base hu)
  | deliver done hbuilds => exact absurd (hx.symm.trans hbuilds) Bool.false_ne_true
  | record econ alerts time tick => rfl

omit [Floating D] in
/-- Nothing but the build system touches a build under way. -/
theorem underway_acts (p : UInt32) (h : Acts x u u') (hx : x.builds = false) (hu : u.Sound)
    (hw : u'.NoWrap) : u'.underway p = u.underway p := by
  induction h with
  | refl => rfl
  | tail hfirst hlast ih =>
      have hw' := Nat.le_trans hlast.advances.counter hw
      rw [underway_act p hlast hx ((Acts.advances hfirst).sound hu hw') hw, ih hw']

/-! ## A step -/

/-- What a step does before the builds. -/
def Effect.busy : Effect := ⟨true, true, true, false, true, true⟩

theorem market_acts (dt : F) (u : ServerUniverse F D) : Acts .busy u (u.market dt) :=
  ((beforeTravel_acts dt u).mono (by decide)).trans ((roam_acts dt _).mono (by decide))

theorem step_market (dt : F) (u : ServerUniverse F D) :
    (u.step dt).ents = syncHealthMirror ((u.market dt).buildSystem dt).ents ∧
      (u.step dt).nextNetId = ((u.market dt).buildSystem dt).nextNetId := by
  rw [step_eq]
  exact ⟨rfl, rfl⟩

theorem market_sound (hu : u.Sound) (hw : (u.step dt).NoWrap) :
    (u.market dt).Sound ∧ (u.market dt).NoWrap := by
  have hw' : (u.market dt).NoWrap := by
    unfold ServerUniverse.NoWrap at hw
    rw [(step_market dt u).2] at hw
    exact Nat.le_trans (buildSystem_advances dt (u.market dt)).counter hw
  exact ⟨(Acts.advances (market_acts dt u)).sound hu hw', hw'⟩

/-- The build system before it delivers. -/
def building (dt : F) (u : ServerUniverse F D) : ServerUniverse F D :=
  { u with ents := u.ents.forEach fun c => (buildUnit u.economy dt c).2 }

omit [Floating D] [Widens F D] in
theorem buildSystem_eq (dt : F) (u : ServerUniverse F D) : u.buildSystem dt =
    (u.ents.world.alive.filterMap (buildDone u.economy dt)).foldl ServerUniverse.deliver
      (building dt u) :=
  rfl

omit [Floating D] [Widens F D] in
theorem building_world_sound (dt : F) (hu : u.ents.world.Sound) :
    (building dt u).ents.world.Sound :=
  World.Evolves.sound (World.Evolves.forEach (R := fun _ _ => True) fun _ _ _ => trivial) hu

/-- What is paid or under way when a step begins finishes in it or is under way when it ends. -/
theorem step_balance (p : UInt32) (hu : u.Sound) (hw : (u.step dt).NoWrap) :
    (u.market dt).paying p + u.underway p =
      (u.market dt).finishing p dt + (u.step dt).underway p := by
  rcases market_sound hu hw with ⟨hm, hwm⟩
  have hbefore : (u.market dt).underway p = u.underway p :=
    underway_acts p (market_acts dt u) rfl hu hwm
  have hafter : (u.step dt).underway p = ((u.market dt).buildSystem dt).underway p := by
    have hsynced := syncHealthMirror_steady ((u.market dt).buildSystem dt).ents
    rw [← (step_market dt u).1] at hsynced
    exact total_of_evolves (u := (u.market dt).buildSystem dt) _
      (fun c c' hr => Steady.underway rfl hr) hsynced
  rw [hafter, ← hbefore, buildSystem_eq,
    underway_deliver p _ (building_world_sound dt hm.ents.world)]
  have hbuilt : (building dt (u.market dt)).underway p = (u.market dt).total fun c =>
      mark p Components.Underway (buildUnit (u.market dt).economy dt c).2 :=
    World.total_forEach _ _ _
  rw [hbuilt]
  unfold ServerUniverse.paying ServerUniverse.underway ServerUniverse.finishing
    ServerUniverse.total
  rw [← World.total_add, ← World.total_add]
  exact World.total_congr fun c _ => buildUnit_balance p _ dt c

omit [Floating D] [Widens F D] in
theorem launched_le (p : UInt32) (dt : F) (hu : u.ents.world.Sound) :
    u.launched p dt ≤ u.finishing p dt ∧ (u.launched p dt = u.finishing p dt ↔ u.Room p dt) := by
  have hsame : (building dt u).ships p = u.ships p := by
    refine (World.total_forEach _ _ _).trans (World.total_congr fun c _ => ?_)
    have hkept : (buildUnit u.economy dt c).2.ownerId = c.ownerId ∧
        (buildUnit u.economy dt c).2.shipTag = c.shipTag := by
      unfold buildUnit
      split <;> exact ⟨rfl, rfl⟩
    exact mark_congr hkept.1 (by rw [hkept.2])
  rcases ships_deliver p (u.ents.world.alive.filterMap (buildDone u.economy dt))
    (building_world_sound dt hu) with ⟨a, ha, hships, hroom⟩
  rw [← buildSystem_eq, hsame] at hships
  rw [hsame] at hroom
  rw [finishing_eq] at ha hroom
  have hlaunched : u.launched p dt = a := by
    unfold ServerUniverse.launched
    omega
  rw [hlaunched]
  exact ⟨ha, hroom⟩

/-! ## A run -/

theorem stepAll_counter (dts : List F) (u : ServerUniverse F D) :
    u.nextNetId ≤ (u.stepAll dts).nextNetId := by
  induction dts generalizing u with
  | nil => exact Nat.le_refl _
  | cons dt dts ih => exact Nat.le_trans (step_advances dt u).counter (ih _)

/-- In a run no more ships are launched than builds are paid and over, and as many exactly if
    every build that finishes finds room. -/
theorem run_balance (p : UInt32) (dts : List F) (hu : u.Sound) (hw : (u.stepAll dts).NoWrap) :
    u.launchedIn p dts + (u.stepAll dts).underway p ≤ u.paidIn p dts + u.underway p ∧
      (u.paidIn p dts + u.underway p = u.launchedIn p dts + (u.stepAll dts).underway p ↔
        u.RoomThroughout p dts) := by
  induction dts generalizing u with
  | nil =>
      unfold ServerUniverse.launchedIn ServerUniverse.paidIn ServerUniverse.RoomThroughout
      exact ⟨Nat.le_refl _, fun _ => trivial, fun _ => rfl⟩
  | cons dt dts ih =>
      have hwstep : (u.step dt).NoWrap := Nat.le_trans (stepAll_counter dts _) hw
      have hbalance := step_balance p hu hwstep
      rcases launched_le p dt (market_sound hu hwstep).1.ents.world with ⟨hle, hroom⟩
      rcases ih ((step_advances dt u).sound hu hwstep) hw with ⟨hrest, hall⟩
      unfold ServerUniverse.launchedIn ServerUniverse.paidIn ServerUniverse.RoomThroughout
      rw [show u.stepAll (dt :: dts) = (u.step dt).stepAll dts from rfl, ← hroom, ← hall]
      omega

/-- The builds that a player pays for are those that end with a ship and those that go on,
    exactly if every build that finishes finds room below the fleet cap. -/
theorem paid_builds_kept (hu : u.Reachable) (p : UInt32) (dts : List F)
    (hw : (u.stepAll dts).NoWrap) :
    u.paidIn p dts + u.underway p = u.launchedIn p dts + (u.stepAll dts).underway p ↔
      u.RoomThroughout p dts :=
  (run_balance p dts hu.sound hw).2

end

/-- A balance with a small hold and a cheap ship. -/
def smallEconomy (cap : UInt16) : EconomyTuning Float32 :=
  { EconomyTuning.default with
    fleetCap := cap, cargoCapacity := 10, buildOreCost := 5, buildIceCost := 0, buildSeconds := 1 }

/-- A base whose only ship has brought in ore, with a build queued. -/
def shipyard (cap : UInt16) : ServerUniverse Float32 Float :=
  [.loadUniverse ⟨[], [], .default, smallEconomy cap⟩, .setCombatEnabled false,
    .spawnBase ⟨0, 0, 0⟩ Vec3.zero, .spawnFleetShip 1 shipShapeId ⟨0, 0, 0⟩ defaultShipFit,
    .spawnResourceNode .ore 100 ⟨0, 0, 0⟩, .orderHarvest 2 3, .step 1, .step 1, .step 1, .step 1,
    .enqueueBuild 1].foldl ServerUniverse.apply .fresh

theorem shipyard_reachable (cap : UInt16) (hcap : cap = 1 ∨ cap = 2) :
    (shipyard cap).Reachable := by
  rcases hcap with rfl | rfl
  · exact reachable_applyAll .fresh _ (by decide +kernel)
  · exact reachable_applyAll .fresh _ (by decide +kernel)

/-- With a cap of one ship the base pays for a build, the build ends, and there is no ship. -/
theorem paid_build_lost :
    navErrors (shipyard 1).nav = [] ∧ economyErrors (shipyard 1).economy = [] ∧
      (shipyard 1).Reachable ∧ (shipyard 1).paidIn 1 [1] = 1 ∧
      ¬ (shipyard 1).paidIn 1 [1] + (shipyard 1).underway 1 =
        (shipyard 1).launchedIn 1 [1] + ((shipyard 1).stepAll [1]).underway 1 :=
  ⟨by decide +kernel, by decide +kernel, shipyard_reachable 1 (Or.inl rfl), by decide +kernel,
    by decide +kernel⟩

/-- With a cap of two the ship is there. -/
theorem paid_builds_kept_shipyard :
    (shipyard 2).paidIn 1 [1] + (shipyard 2).underway 1 =
      (shipyard 2).launchedIn 1 [1] + ((shipyard 2).stepAll [1]).underway 1 :=
  (paid_builds_kept (shipyard_reachable 2 (Or.inr rfl)) 1 [1] (by decide +kernel)).mpr
    ⟨by decide +kernel, trivial⟩

end Shard

end EarthRise
