import EarthRise.Core.Observed
import EarthRise.Theory.Shard.Everyone

/-!
# Commands and Other Players

A command touches the units of the player who gave it, and nothing of anybody else.

Every order goes to a unit whose owner was checked, and what an order follows further, a
target, a node, a beacon or the owner's base, it only reads. The one thing that is not the
player's and does not stay is a loot container that is claimed. It is nobody's: the spawner
of loot gives it no owner, and nothing changes an owner.

An order that a unit does not take leaves the whole universe as it was, the players'
subscriptions and the sector last travelled to included, since every handler looks at all of
its conditions before it writes.

## Main definitions

* `Spares`: What a command may do to the entities.
* `Observed.asFar`, `Observed.taken`: The units of a command one after the other.

## Theorems

* `applyIntentToUnit_spares`, `applyIntentToUnit_rejected`: A single unit.
* `Observed.command_isolated`: A command.
-/

namespace EarthRise

namespace Shard

open Ecs (World EntityHandle)
open Universe (UniversePos Vec3)

section

variable {F D : Type}

/-! ## What stays -/

/-- What a command of a player may do to the entities: those that are not the player's stay as
    they are, except for a claimed loot container, which is nobody's. -/
structure Spares (player : UInt32) (cmd : FleetCommand F) (e e' : Entities F) : Prop where
  others : ∀ h c, e.world.get h = some c → c.ownerId ≠ some player →
    e'.world.get h = some c ∨ (cmd.intent = .claimLoot ∧ e.entityOf cmd.targetNetId = some h ∧
      c.loot.isSome = true ∧ c.ownerId = none ∧ e'.world.get h = none)
  /-- What is gone stays gone. -/
  gone : ∀ h, e.world.get h = none → e'.world.get h = none
  /-- An id leads to what it led to, or to nothing. -/
  names : ∀ n, e'.entityOf n = e.entityOf n ∨ e'.entityOf n = none

variable {player : UInt32} {cmd : FleetCommand F} {e e' e'' : Entities F} {n : UInt32}

theorem Spares.refl (player : UInt32) (cmd : FleetCommand F) (e : Entities F) :
    Spares player cmd e e :=
  ⟨fun _ _ h _ => .inl h, fun _ h => h, fun _ => .inl rfl⟩

theorem Spares.trans (h : Spares player cmd e e') (h' : Spares player cmd e' e'') :
    Spares player cmd e e'' where
  others := by
    intro hd c hc hown
    rcases h.others hd c hc hown with hstay | ⟨hclaim, hname, hloot, hnone, hgone⟩
    · rcases h'.others hd c hstay hown with hstay' | ⟨hclaim, hname, hloot, hnone, hgone⟩
      · exact .inl hstay'
      · refine .inr ⟨hclaim, ?_, hloot, hnone, hgone⟩
        rcases h.names cmd.targetNetId with hsame | hno
        · rw [← hsame, hname]
        · rw [hno] at hname
          exact absurd hname nofun
    · exact .inr ⟨hclaim, hname, hloot, hnone, h'.gone hd hgone⟩
  gone := fun hd hnone => h'.gone hd (h.gone hd hnone)
  names := by
    intro m
    rcases h'.names m with hsame | hno
    · rw [hsame]
      exact h.names m
    · exact .inr hno

/-- A unit of the player may be changed. -/
theorem Spares.modify (hown : (e.find n).bind Components.ownerId = some player)
    (f : Components F → Components F) : Spares player cmd e (e.modify n f) := by
  unfold Entities.modify
  cases hn : e.entityOf n with
  | none => exact Spares.refl player cmd e
  | some hd =>
      rw [Entities.find_of_entityOf hn] at hown
      refine ⟨?_, ?_, fun _ => .inl rfl⟩
      · intro k c hc hother
        have hne : k ≠ hd := by
          rintro rfl
          rw [hc, Option.bind_some] at hown
          exact hother hown
        left
        show (e.world.modify hd f).get k = some c
        rw [World.get_modify, if_neg hne, hc]
      · intro k hk
        show (e.world.modify hd f).get k = none
        rw [World.get_modify]
        by_cases hkd : k = hd
        · rw [if_pos hkd, hk, Option.map_none]
        · rw [if_neg hkd, hk]

/-- The claimed loot may go. -/
theorem Spares.remove (hclaim : cmd.intent = .claimLoot)
    (hloot : ∀ c, e.find cmd.targetNetId = some c → c.loot.isSome = true ∧ c.ownerId = none) :
    Spares player cmd e (e.remove cmd.targetNetId) where
  others := by
    intro k c hc _
    unfold Entities.remove
    cases hn : e.entityOf cmd.targetNetId with
    | none => exact .inl hc
    | some hd =>
        have hget := World.get_destroyEntity e.world hd k
        by_cases hk : k = hd
        · rw [if_pos hk] at hget
          rw [Entities.find_of_entityOf hn] at hloot
          rcases hloot c (by rw [← hk]; exact hc) with ⟨hsome, hnone⟩
          exact .inr ⟨hclaim, by rw [hk], hsome, hnone, hget⟩
        · rw [if_neg hk, hc] at hget
          exact .inl hget
  gone := by
    intro k hk
    unfold Entities.remove
    cases e.entityOf cmd.targetNetId with
    | none => exact hk
    | some hd =>
        have hget := World.get_destroyEntity e.world hd k
        by_cases hkd : k = hd
        · rw [if_pos hkd] at hget
          exact hget
        · rw [if_neg hkd, hk] at hget
          exact hget
  names := by
    intro m
    rw [Entities.entityOf_remove]
    by_cases hm : m = cmd.targetNetId
    · exact .inr (if_pos hm)
    · exact .inl (if_neg hm)

end

section

variable {F D : Type} [Floating F] [Floating D] [Widens F D] {u : ServerUniverse F D}
  {player n : UInt32}

/-! ## A single unit -/

omit [Floating D] [Widens F D] in
theorem claimLoot_spares (hu : Everyone Proper u)
    (hown : (u.ents.find n).bind Components.ownerId = some player) (cmd : FleetCommand F)
    (hclaim : cmd.intent = .claimLoot) :
    Spares player cmd u.ents (u.claimLoot n cmd.targetNetId).2.ents := by
  unfold ServerUniverse.claimLoot
  split
  · rename_i lc cg hlc hcg
    simp only []
    have hloaded : Spares player cmd u.ents (u.modify n fun c =>
        { c with cargo := some (ServerUniverse.takeLoot ResourceType.all cg lc.items 0).1 }).ents :=
      Spares.modify hown _
    refine hloaded.trans ?_
    rw [destroyUnit_ents]
    refine Spares.remove hclaim fun c hc => ?_
    -- The container is nobody's, so loading the ship has left it as it was.
    rcases Option.bind_eq_some_iff.mp hlc with ⟨c₀, hc₀, hloot⟩
    have hsome : c₀.loot.isSome = true := by rw [hloot, Option.isSome_some]
    have hnone := ((hu.find hc₀).loot hsome).1
    rcases Entities.find_eq_some.mp hc₀ with ⟨hd, hname, hget⟩
    rcases Entities.find_eq_some.mp hc with ⟨hd', hname', hget'⟩
    have hsame : hd' = hd := by
      rcases hloaded.names cmd.targetNetId with hsame | hno
      · rw [hsame, hname, Option.some.injEq] at hname'
        exact hname'.symm
      · exact absurd (hno.symm.trans hname') nofun
    rw [hsame] at hget'
    have hother : c₀.ownerId ≠ some player := by
      rw [hnone]
      simp only [ne_eq, reduceCtorEq, not_false_eq_true]
    rcases hloaded.others hd c₀ hget hother with hstay | ⟨_, _, _, _, hgone⟩
    · rw [hstay, Option.some.injEq] at hget'
      rw [← hget']
      exact ⟨hsome, hnone⟩
    · rw [hgone] at hget'
      exact absurd hget' nofun
  · exact Spares.refl player cmd u.ents

omit [Floating F] [Floating D] [Widens F D] in
theorem pushOrder_spares (hown : (u.ents.find n).bind Components.ownerId = some player)
    (cmd : FleetCommand F) (entry : FleetOrderEntry F) (queue : Bool) :
    Spares player cmd u.ents (u.pushOrder n entry queue).2.ents := by
  unfold ServerUniverse.pushOrder
  split
  · exact Spares.refl player cmd u.ents
  · split
    · exact Spares.modify hown _
    · exact Spares.modify hown _

omit [Floating F] [Floating D] [Widens F D] in
theorem pushStance_spares (hown : (u.ents.find n).bind Components.ownerId = some player)
    (cmd : FleetCommand F) (type : OrderType) :
    Spares player cmd u.ents (u.pushStance n type cmd).2.ents := by
  unfold ServerUniverse.pushStance
  split
  · exact Spares.refl player cmd u.ents
  · exact pushOrder_spares hown cmd _ _

theorem beginJumpTo_spares (hown : (u.ents.find n).bind Components.ownerId = some player)
    (cmd : FleetCommand F) (destBeacon : String) :
    Spares player cmd u.ents (u.beginJumpTo n destBeacon).2.ents := by
  rcases beginJumpTo_cases u n destBeacon with
    ⟨_, h⟩ | ⟨_, _, _, _, _, _, _, _, _, _, _, _, _, h⟩
  · rw [h]
    exact Spares.refl player cmd u.ents
  · rw [h]
    exact Spares.modify hown _

omit [Floating D] [Widens F D] in
theorem beginWarpTo_spares (hown : (u.ents.find n).bind Components.ownerId = some player)
    (cmd : FleetCommand F) (dest : UniversePos) :
    Spares player cmd u.ents (u.beginWarpTo n dest).2.ents := by
  rcases beginWarpTo_cases u n dest with h | ⟨_, _, _, _, _, _, h⟩
  · rw [h]
    exact Spares.refl player cmd u.ents
  · rw [h]
    exact Spares.modify hown _

/-- An order to a unit of the player spares what is not the player's. -/
theorem applyIntentToUnit_spares (hu : Everyone Proper u)
    (hown : (u.ents.find n).bind Components.ownerId = some player) (cmd : FleetCommand F) :
    Spares player cmd u.ents (u.applyIntentToUnit n cmd).2.ents := by
  unfold ServerUniverse.applyIntentToUnit
  split
  · exact Spares.modify hown _
  · -- A harvest is an order to the ship; the node and the base are only read.
    unfold ServerUniverse.orderHarvest
    split
    · exact Spares.refl player cmd u.ents
    · split
      · exact Spares.refl player cmd u.ents
      · split
        · exact Spares.modify hown _
        · exact Spares.refl player cmd u.ents
  · exact beginWarpTo_spares hown cmd _
  · exact beginJumpTo_spares hown cmd _
  · unfold ServerUniverse.enqueueBuild
    split
    · exact Spares.refl player cmd u.ents
    · split
      · exact Spares.refl player cmd u.ents
      · exact Spares.modify hown _
  · rename_i hclaim
    exact claimLoot_spares hu hown cmd hclaim
  · exact pushOrder_spares hown cmd _ _
  · split
    · exact Spares.refl player cmd u.ents
    · split
      · exact Spares.refl player cmd u.ents
      · exact pushOrder_spares hown cmd _ _
  · exact pushStance_spares hown cmd _
  · exact pushStance_spares hown cmd _
  · exact pushStance_spares hown cmd _
  · exact pushStance_spares hown cmd _
  · exact Spares.refl player cmd u.ents

omit [Floating F] [Floating D] [Widens F D] in
theorem pushOrder_rejected {entry : FleetOrderEntry F} {queue : Bool}
    (h : (u.pushOrder n entry queue).1 = false) : (u.pushOrder n entry queue).2 = u := by
  unfold ServerUniverse.pushOrder at h ⊢
  split at h
  · rfl
  · split at h
    · exact absurd h nofun
    · exact absurd h nofun

omit [Floating F] [Floating D] [Widens F D] in
theorem pushStance_rejected {type : OrderType} {cmd : FleetCommand F}
    (h : (u.pushStance n type cmd).1 = false) : (u.pushStance n type cmd).2 = u := by
  unfold ServerUniverse.pushStance at h ⊢
  split at h
  · rename_i hno
    rw [if_pos hno]
  · rename_i hok
    rw [if_neg hok]
    exact pushOrder_rejected h

omit [Floating D] [Widens F D] in
theorem beginWarpTo_rejected {dest : UniversePos} (h : (u.beginWarpTo n dest).1 = false) :
    (u.beginWarpTo n dest).2 = u := by
  rcases beginWarpTo_cases u n dest with hno | ⟨_, _, _, _, _, _, hgo⟩
  · rw [hno]
  · rw [hgo] at h
    exact absurd h nofun

theorem beginJumpTo_rejected {dest : String} (h : (u.beginJumpTo n dest).1 ≠ .accepted) :
    (u.beginJumpTo n dest).2 = u := by
  rcases beginJumpTo_cases u n dest with ⟨_, hno⟩ | ⟨_, _, _, _, _, _, _, _, _, _, _, _, _, hgo⟩
  · exact hno
  · rw [hgo] at h
    exact absurd rfl h

omit [Floating F] [Floating D] [Widens F D] in
theorem orderHarvest_rejected {node : UInt32} (h : (u.orderHarvest n node).1 = false) :
    (u.orderHarvest n node).2 = u := by
  unfold ServerUniverse.orderHarvest at h ⊢
  split at h
  · rfl
  · split at h
    · rfl
    · split at h
      · exact absurd h nofun
      · rename_i hno
        exact congrArg Prod.snd (if_neg hno)

omit [Floating D] [Widens F D] in
theorem enqueueBuild_rejected (h : (u.enqueueBuild n).1 = false) : (u.enqueueBuild n).2 = u := by
  unfold ServerUniverse.enqueueBuild at h ⊢
  split at h
  · rfl
  · split at h
    · rename_i hbusy
      exact congrArg Prod.snd (if_pos hbusy)
    · exact absurd h nofun

omit [Floating D] [Widens F D] in
theorem claimLoot_rejected {container : UInt32} (h : (u.claimLoot n container).1 = false) :
    (u.claimLoot n container).2 = u := by
  unfold ServerUniverse.claimLoot at h ⊢
  split at h
  · exact absurd h nofun
  · rfl

/-- An order that a unit does not take changes nothing. -/
theorem applyIntentToUnit_rejected {cmd : FleetCommand F}
    (h : (u.applyIntentToUnit n cmd).1 = false) : (u.applyIntentToUnit n cmd).2 = u := by
  unfold ServerUniverse.applyIntentToUnit at h ⊢
  split at h
  · exact absurd h nofun
  · exact orderHarvest_rejected h
  · exact beginWarpTo_rejected h
  · exact beginJumpTo_rejected (of_decide_eq_false h)
  · exact enqueueBuild_rejected h
  · exact claimLoot_rejected h
  · exact pushOrder_rejected h
  · split at h
    · rfl
    · split at h
      · rfl
      · exact pushOrder_rejected h
  · exact pushStance_rejected h
  · exact pushStance_rejected h
  · exact pushStance_rejected h
  · exact pushStance_rejected h
  · rfl

/-! ## A unit, and who looks at it -/

namespace Observed

variable {o : Observed F D}

theorem prefetch_sim (o : Observed F D) (n : UInt32) (dest : UniversePos) :
    (o.prefetchTravelInterest n dest).sim = o.sim := by
  unfold prefetchTravelInterest
  split
  · rfl
  · split
    · rfl
    · split <;> rfl

theorem beginWarpTo_sim (o : Observed F D) (n : UInt32) (dest : UniversePos) :
    (o.beginWarpTo n dest).2.sim = (o.sim.beginWarpTo n dest).2 := by
  unfold beginWarpTo
  simp only []
  split
  · exact prefetch_sim _ n dest
  · rfl

theorem beginJumpTo_sim (o : Observed F D) (n : UInt32) (dest : String) :
    (o.beginJumpTo n dest).2.sim = (o.sim.beginJumpTo n dest).2 := by
  unfold beginJumpTo
  simp only []
  split
  · cases beaconPos (o.sim.beginJumpTo n dest).2 dest with
    | none => rfl
    | some pos => exact prefetch_sim _ n pos
  · rfl

/-- The grid does not decide over an order. -/
theorem intent_sim (o : Observed F D) (n : UInt32) (cmd : FleetCommand F) :
    (o.applyIntentToUnit n cmd).1 = (o.sim.applyIntentToUnit n cmd).1 ∧
      (o.applyIntentToUnit n cmd).2.sim = (o.sim.applyIntentToUnit n cmd).2 := by
  unfold applyIntentToUnit
  split
  · rename_i hwarp
    have hsim : o.sim.applyIntentToUnit n cmd = o.sim.beginWarpTo n cmd.targetPoint := by
      unfold ServerUniverse.applyIntentToUnit
      rw [hwarp]
    rw [hsim]
    exact ⟨rfl, beginWarpTo_sim o n _⟩
  · rename_i hjump
    have hsim : o.sim.applyIntentToUnit n cmd =
        (decide ((o.sim.beginJumpTo n cmd.beacon).1 = .accepted),
          (o.sim.beginJumpTo n cmd.beacon).2) := by
      unfold ServerUniverse.applyIntentToUnit
      rw [hjump]
    rw [hsim]
    exact ⟨rfl, beginJumpTo_sim o n _⟩
  · rename_i hclaim
    have hsim : o.sim.applyIntentToUnit n cmd = o.sim.claimLoot n cmd.targetNetId := by
      unfold ServerUniverse.applyIntentToUnit
      rw [hclaim]
    rw [hsim]
    exact ⟨rfl, rfl⟩
  · exact ⟨rfl, rfl⟩

theorem intent_rejected {n : UInt32} {cmd : FleetCommand F}
    (h : (o.applyIntentToUnit n cmd).1 = false) : (o.applyIntentToUnit n cmd).2 = o := by
  have hsame : ({ o with sim := (o.sim.applyIntentToUnit n cmd).2 } : Observed F D) = o := by
    rw [applyIntentToUnit_rejected ((intent_sim o n cmd).1 ▸ h)]
  unfold applyIntentToUnit at h ⊢
  split at h
  · have hno : (o.sim.beginWarpTo n cmd.targetPoint).1 = false := h
    unfold beginWarpTo
    simp only [hno, Bool.false_eq_true, if_false]
    rw [beginWarpTo_rejected hno]
  · have hno : (o.sim.beginJumpTo n cmd.beacon).1 ≠ .accepted := of_decide_eq_false h
    unfold beginJumpTo
    simp only [if_neg hno]
    rw [beginJumpTo_rejected hno]
  · have hno : (o.sim.claimLoot n cmd.targetNetId).1 = false := h
    unfold claimLoot
    simp only [hno, Bool.false_eq_true, if_false]
    rw [claimLoot_rejected hno]
  · exact hsame

/-! ## A command -/

/-- One of the units of a command, and the count of those that took it. -/
def order (player : UInt32) (cmd : FleetCommand F) (r : Nat × Observed F D) (n : UInt32) :
    Nat × Observed F D :=
  if (r.2.sim.ents.find n).bind Components.ownerId = some player then
    let a := r.2.applyIntentToUnit n cmd
    (if a.1 then r.1 + 1 else r.1, a.2)
  else r

/-- A command as far as its first units. -/
def asFar (o : Observed F D) (player : UInt32) (cmd : FleetCommand F) (i : Nat) :
    Nat × Observed F D :=
  (cmd.units.take i).foldl (order player cmd) (0, o)

theorem asFar_length (o : Observed F D) (player : UInt32) (cmd : FleetCommand F) :
    o.asFar player cmd cmd.units.length = o.applyFleetCommand player cmd := by
  unfold asFar
  rw [List.take_length]
  rfl

/-- The unit in a place of a command takes it: it is the player's, and its order is accepted. -/
def taken (o : Observed F D) (player : UInt32) (cmd : FleetCommand F) (i : Nat) : Bool :=
  (cmd.units[i]?).any fun n =>
    let o := (o.asFar player cmd i).2
    decide ((o.sim.ents.find n).bind Components.ownerId = some player) &&
      (o.applyIntentToUnit n cmd).1

theorem asFar_succ (o : Observed F D) (player : UInt32) (cmd : FleetCommand F) (i : Nat) :
    o.asFar player cmd (i + 1) =
      (cmd.units[i]?).elim (o.asFar player cmd i) (order player cmd (o.asFar player cmd i)) := by
  unfold asFar
  rw [List.take_add_one, List.foldl_append]
  cases cmd.units[i]? with
  | none => rfl
  | some n => rfl

/-- A unit that does not take a command leaves everything as it was. -/
theorem asFar_not_taken {cmd : FleetCommand F} {i : Nat} (h : o.taken player cmd i = false) :
    o.asFar player cmd (i + 1) = o.asFar player cmd i := by
  rw [asFar_succ]
  unfold taken at h
  cases hn : cmd.units[i]? with
  | none => rfl
  | some n =>
      rw [hn, Option.any_some] at h
      simp only [] at h
      rw [Option.elim_some]
      unfold order
      split
      · rename_i hown
        rw [decide_eq_true hown, Bool.true_and] at h
        simp only []
        rw [h, intent_rejected h]
        rfl
      · rfl

theorem asFar_taken {cmd : FleetCommand F} {i : Nat} (h : o.taken player cmd i = true) :
    (o.asFar player cmd (i + 1)).1 = (o.asFar player cmd i).1 + 1 := by
  rw [asFar_succ]
  unfold taken at h
  cases hn : cmd.units[i]? with
  | none =>
      rw [hn, Option.any_none] at h
      exact absurd h Bool.false_ne_true
  | some n =>
      rw [hn, Option.any_some, Bool.and_eq_true] at h
      rw [Option.elim_some]
      unfold order
      rw [if_pos (of_decide_eq_true h.1)]
      exact if_pos h.2

theorem asFar_count (o : Observed F D) (player : UInt32) (cmd : FleetCommand F) (i : Nat) :
    (o.asFar player cmd i).1 = (List.range i).countP (o.taken player cmd) := by
  induction i with
  | zero => rfl
  | succ i ih =>
      rw [List.range_succ, List.countP_append, List.countP_singleton, ← ih]
      cases h : o.taken player cmd i with
      | true => exact asFar_taken h
      | false =>
          rw [asFar_not_taken h]
          rfl

theorem asFar_spares (ho : Everyone Proper o.sim) (player : UInt32) (cmd : FleetCommand F)
    (i : Nat) : Spares player cmd o.sim.ents (o.asFar player cmd i).2.sim.ents ∧
      Everyone Proper (o.asFar player cmd i).2.sim := by
  induction i with
  | zero => exact ⟨Spares.refl _ _ _, ho⟩
  | succ i ih =>
      rw [asFar_succ]
      cases cmd.units[i]? with
      | none => exact ih
      | some n =>
          rw [Option.elim_some]
          unfold order
          split
          · rename_i hown
            simp only []
            rw [(intent_sim _ n cmd).2]
            refine ⟨ih.1.trans (applyIntentToUnit_spares ih.2 hown cmd), ?_⟩
            exact proper_innate.deeds ih.2 (applyIntentToUnit_deeds (b := false) (g := false) _ n cmd)
          · exact ih

/-- A command spares what is not the player's, a unit that does not take it leaves everything
    as it was, and the count is that of the units that took it. -/
theorem command_isolated (o : Observed F D) (ho : Reached o.sim) (player : UInt32)
    (cmd : FleetCommand F) :
    Spares player cmd o.sim.ents (o.applyFleetCommand player cmd).2.sim.ents ∧
      (∀ i, o.taken player cmd i = false →
        (o.asFar player cmd (i + 1)).2 = (o.asFar player cmd i).2) ∧
      (o.applyFleetCommand player cmd).1 =
        (List.range cmd.units.length).countP (o.taken player cmd) := by
  rw [← asFar_length]
  exact ⟨(asFar_spares ho.proper player cmd _).1, fun i h => by rw [asFar_not_taken h],
    asFar_count o player cmd _⟩

end Observed

end

/-- Two players, the first with a ship. -/
def convoy : Observed Float32 Float where
  sim := [.spawnBase ⟨0, 0, 0⟩ Vec3.zero, .spawnBase ⟨1000, 0, 0⟩ Vec3.zero,
    .spawnFleetShip 1 shipShapeId ⟨50, 0, 0⟩ defaultShipFit].foldl ServerUniverse.apply .fresh
  interest := .fresh
  lastTravelSector := ⟨0, 0, 0⟩

/-- A warp for all three: the first player's two units take it. -/
def warpAll : FleetCommand Float32 := ⟨.warp, false, [3, 2, 1], 0, ⟨70000, 0, 0⟩, 0, ""⟩

theorem command_isolated_convoy :
    Spares 1 warpAll convoy.sim.ents (convoy.applyFleetCommand 1 warpAll).2.sim.ents ∧
      (convoy.applyFleetCommand 1 warpAll).1 = 2 :=
  ⟨(Observed.command_isolated convoy (Reached.applyAll .fresh _) 1 warpAll).1, by decide +kernel⟩

end Shard

end EarthRise
