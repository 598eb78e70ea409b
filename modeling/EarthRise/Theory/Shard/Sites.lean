import EarthRise.Core.Sites
import EarthRise.Lib.Exact
import EarthRise.Theory.Shard.Everyone
import EarthRise.Theory.Shard.Totals

/-!
# The Bookkeeping of Sites

A site's count is the number of its guardians that are alive, and its clearing is reported once.

A guardian that dies does so in one place, which also settles the count and the report. Nothing
else that happens in a step touches a site. Three things do besides: an id that is given to a
second site, a guardian that is removed as a base is, and a restart, which leaves out the reports
that nobody has taken yet and keeps what its new universe cannot find by a net id.

## Main definitions

* `Books`: The counts are right.
* `Orderly`: From one universe to another, only deaths.
* `Sites.Exact`: The counts are right and every clearing is reported once.
* `Sites.Meets`, `Sites.Resumes`: What a call and a restart must not do.
* `Sites.Run`: The runs that do none of it.

## Theorems

* `destroyUnit_orderly`: A death.
* `Acts.orderly`, `Deeds.orderly`: A step, and the calls that have no business with sites.
* `spawnNpcSite_books`, `guardians_despawnBase`, `restoreState_books`: The others.
* `sites_exact`: Runs.
-/

namespace EarthRise

namespace Shard

open Ecs (World EntityHandle)
open Universe (UniversePos Vec3)

section

variable {F D : Type} {u u' u'' : ServerUniverse F D} {c : Components F}

/-! ## Counting guardians -/

/-- One for a guardian of a site. -/
def Components.watch (site : UInt16) (c : Components F) : Nat :=
  if c.post = some site then 1 else 0

theorem guardians_eq (u : ServerUniverse F D) (site : UInt16) :
    u.guardians site = u.total (Components.watch site) := by
  unfold ServerUniverse.guardians ServerUniverse.total World.total
  induction u.ents.world.alive with
  | nil => rfl
  | cons c l ih =>
      rw [List.countP_cons, List.map_cons, List.sum_cons, ih, Nat.add_comm]
      unfold Components.watch
      simp only [decide_eq_true_eq]

theorem watch_of_none (h : c.npcAi = none) (site : UInt16) :
    c.watch site = 0 := by
  refine if_neg ?_
  unfold Components.post
  rw [h]
  exact fun hno => absurd hno nofun

theorem watch_congr {c c' : Components F} (h : c'.identity = c.identity) (site : UInt16) :
    c'.watch site = c.watch site := by
  have hpost : c'.post = c.post := congrArg Identity.site h
  unfold Components.watch
  rw [hpost]

/-- The counts of a universe are right. -/
structure Books (u : ServerUniverse F D) : Prop where
  world : u.ents.world.Sound
  exact : ∀ site, u.npcSiteAlive site = u.guardians site

/-- What deaths do to sites: nobody joins, and a site without guardians is reported. -/
structure Thinned (u u' : ServerUniverse F D) : Prop where
  nextSiteId : u'.nextSiteId = u.nextSiteId
  fewer : ∀ site, u'.guardians site ≤ u.guardians site
  cleared : ∀ site, u'.clearedSites.count site =
    u.clearedSites.count site + if u.guardians site ≠ 0 ∧ u'.guardians site = 0 then 1 else 0

/-- Only deaths lie between the two universes, as far as sites go. -/
def Orderly (u u' : ServerUniverse F D) : Prop := Books u → Books u' ∧ Thinned u u'

theorem Orderly.trans (h : Orderly u u') (h' : Orderly u' u'') : Orderly u u'' := by
  intro hu
  rcases h hu with ⟨hbooks, hthin⟩
  rcases h' hbooks with ⟨hbooks', hthin'⟩
  refine ⟨hbooks', hthin'.nextSiteId.trans hthin.nextSiteId, fun site => ?_, fun site => ?_⟩
  · exact (hthin'.fewer site).trans (hthin.fewer site)
  · have hfewer := hthin.fewer site
    have hfewer' := hthin'.fewer site
    rw [hthin'.cleared, hthin.cleared]
    split_ifs
    all_goals omega

/-- Nobody joins, nobody leaves and nothing is written. -/
theorem orderly_of_total (hworld : u.ents.world.Sound → u'.ents.world.Sound)
    (htotal : u.ents.world.Sound → ∀ site, u'.guardians site = u.guardians site)
    (halive : u'.siteAlive = u.siteAlive) (hcleared : u'.clearedSites = u.clearedSites)
    (hsite : u'.nextSiteId = u.nextSiteId) : Orderly u u' := by
  intro hu
  have hguardians := htotal hu.world
  refine ⟨⟨hworld hu.world, fun site => ?_⟩, hsite, fun site => (hguardians site).le, fun site => ?_⟩
  · rw [hguardians, ← hu.exact]
    unfold ServerUniverse.npcSiteAlive
    rw [halive]
  · rw [hcleared, hguardians, if_neg fun h => h.1 h.2, Nat.add_zero]

theorem Orderly.refl (u : ServerUniverse F D) : Orderly u u :=
  orderly_of_total id (fun _ _ => rfl) rfl rfl rfl

theorem orderly_of_eq (hents : u'.ents = u.ents) (halive : u'.siteAlive = u.siteAlive)
    (hcleared : u'.clearedSites = u.clearedSites) (hsite : u'.nextSiteId = u.nextSiteId) :
    Orderly u u' := by
  refine orderly_of_total (fun hu => hents ▸ hu) (fun _ site => ?_) halive hcleared hsite
  unfold ServerUniverse.guardians
  rw [hents]

theorem orderly_foldl {α : Type} {f : ServerUniverse F D → α → ServerUniverse F D}
    (hf : ∀ u a, Orderly u (f u a)) (l : List α) (u : ServerUniverse F D) :
    Orderly u (l.foldl f u) := by
  induction l generalizing u with
  | nil => exact Orderly.refl u
  | cons a l ih => exact (hf u a).trans (ih (f u a))

/-- Entities that change but stay who they are. -/
theorem orderly_of_evolves {R : Components F → Components F → Prop}
    (hR : ∀ c c', R c c' → c'.identity = c.identity) (h : Entities.Evolves R u.ents u'.ents)
    (halive : u'.siteAlive = u.siteAlive) (hcleared : u'.clearedSites = u.clearedSites)
    (hsite : u'.nextSiteId = u.nextSiteId) : Orderly u u' := by
  refine orderly_of_total h.world.sound (fun _ site => ?_) halive hcleared hsite
  rw [guardians_eq, guardians_eq]
  exact total_of_evolves _ (fun c c' hr => watch_congr (hR c c' hr) site) h

theorem spawn_orderly (u : ServerUniverse F D) {mk : UInt32 → Components F}
    (hmk : (mk u.nextId).npcAi = none) : Orderly u (u.spawn mk) := by
  refine orderly_of_total (fun hu => hu.createEntity _) (fun hu site => ?_) rfl rfl rfl
  rw [guardians_eq, guardians_eq, total_spawn _ hu, watch_of_none hmk, Nat.add_zero]

/-! ## A death -/

/-- Somebody is removed who guards nothing. -/
theorem destroyUnit_civilian {n : UInt32} (hc : u.ents.find n = some c)
    (hai : c.npcAi = none) : Orderly u (u.destroyUnit n) := by
  have hleft : u.destroyUnit n = { u with ents := u.ents.remove n } := by
    unfold ServerUniverse.destroyUnit
    rw [hc, Option.bind_some, hai]
  refine orderly_of_total (fun hu => ?_) (fun _ site => ?_) ?_ ?_ ?_
  · rw [destroyUnit_ents]
    exact remove_world_sound hu n
  · have hgone := total_destroyUnit (Components.watch site) hc
    rw [watch_of_none hai, Nat.add_zero] at hgone
    rw [guardians_eq, guardians_eq, hgone]
  all_goals rw [hleft]

/-- The count of a site after a guardian is gone. -/
theorem npcSiteAlive_leaveSite {site : UInt16} (hpos : 0 < u.npcSiteAlive site) (site' : UInt16) :
    (u.leaveSite site).npcSiteAlive site' =
      if site' = site then u.npcSiteAlive site - 1 else u.npcSiteAlive site' := by
  unfold ServerUniverse.npcSiteAlive at hpos ⊢
  unfold ServerUniverse.leaveSite
  cases hn : Assoc.lookup u.siteAlive site with
  | none =>
      rw [hn] at hpos
      exact absurd hpos (by decide)
  | some n =>
      rw [hn, Option.getD_some] at hpos
      by_cases hsame : site' = site
      · rw [if_pos hsame, Option.getD_some]
        simp only []
        split
        · rename_i hlast
          rw [Assoc.lookup_adjust, if_pos hsame, hsame, hn, Option.map_some, Option.getD_some]
          omega
        · rw [Assoc.lookup_adjust, if_pos hsame, hsame, hn, Option.map_some, Option.getD_some]
      · rw [if_neg hsame]
        simp only []
        split
        all_goals rw [Assoc.lookup_adjust, if_neg hsame]

theorem clearedSites_leaveSite {site : UInt16} (hpos : 0 < u.npcSiteAlive site) :
    (u.leaveSite site).clearedSites =
      if u.npcSiteAlive site = 1 then u.clearedSites ++ [site] else u.clearedSites := by
  unfold ServerUniverse.npcSiteAlive at hpos ⊢
  unfold ServerUniverse.leaveSite
  cases hn : Assoc.lookup u.siteAlive site with
  | none =>
      rw [hn] at hpos
      exact absurd hpos (by decide)
  | some n =>
      rw [hn, Option.getD_some] at hpos
      rw [Option.getD_some]
      simp only []
      split
      · rename_i hlast
        rw [if_pos (by omega)]
      · rename_i hlast
        rw [if_neg (by omega)]

theorem nextSiteId_leaveSite (u : ServerUniverse F D) (site : UInt16) :
    (u.leaveSite site).nextSiteId = u.nextSiteId := by
  unfold ServerUniverse.leaveSite
  split
  · rfl
  · split <;> rfl

/-- A guardian is gone: its site has one fewer, and is reported with its last one. -/
theorem destroyUnit_guardian {n : UInt32} (hc : u.ents.find n = some c)
    {ai : NpcAi F} (hai : c.npcAi = some ai) : Orderly u (u.destroyUnit n) := by
  intro hu
  have hpost : c.post = some ai.siteId := by
    unfold Components.post
    rw [hai, Option.map_some]
  have hleft : u.destroyUnit n = { u.leaveSite ai.siteId with ents := u.ents.remove n } := by
    unfold ServerUniverse.destroyUnit
    rw [hc, Option.bind_some, hai]
  have hgone : ∀ site, u.guardians site =
      (u.destroyUnit n).guardians site + if site = ai.siteId then 1 else 0 := by
    intro site
    rw [guardians_eq, guardians_eq, ← total_destroyUnit (Components.watch site) hc]
    unfold Components.watch
    rw [hpost]
    simp only [Option.some.injEq, eq_comm]
  have hpos : 0 < u.npcSiteAlive ai.siteId := by
    rw [hu.exact, hgone, if_pos rfl]
    omega
  have halive : ∀ site, (u.destroyUnit n).npcSiteAlive site =
      if site = ai.siteId then u.npcSiteAlive ai.siteId - 1 else u.npcSiteAlive site := by
    intro site
    rw [hleft]
    exact npcSiteAlive_leaveSite hpos site
  refine ⟨⟨?_, fun site => ?_⟩, ?_, fun site => ?_, fun site => ?_⟩
  · rw [destroyUnit_ents]
    exact remove_world_sound hu.world n
  · have hbefore := hgone site
    rw [halive]
    by_cases hsite : site = ai.siteId
    · rw [if_pos hsite] at hbefore ⊢
      rw [← hsite, hu.exact, hbefore]
      omega
    · rw [if_neg hsite] at hbefore ⊢
      rw [hu.exact, hbefore, Nat.add_zero]
  · rw [hleft]
    exact nextSiteId_leaveSite u ai.siteId
  · have hbefore := hgone site
    omega
  · have hcleared : (u.destroyUnit n).clearedSites = if u.npcSiteAlive ai.siteId = 1 then
        u.clearedSites ++ [ai.siteId] else u.clearedSites := by
      rw [hleft]
      exact clearedSites_leaveSite hpos
    have hbefore := hgone site
    have hlast := hu.exact ai.siteId
    rw [hcleared]
    by_cases hsite : site = ai.siteId
    · rw [if_pos hsite] at hbefore
      rw [← hsite] at hlast ⊢
      by_cases hone : u.npcSiteAlive site = 1
      · rw [if_pos hone, List.count_append, List.count_singleton_self, if_pos (by omega)]
      · rw [if_neg hone, if_neg (by omega), Nat.add_zero]
    · rw [if_neg hsite] at hbefore
      rw [if_neg (by omega : ¬ (u.guardians site ≠ 0 ∧ (u.destroyUnit n).guardians site = 0)),
        Nat.add_zero]
      split
      · rw [List.count_append, List.count_singleton, if_neg (by
          simp only [beq_iff_eq]
          exact fun h => hsite h.symm), Nat.add_zero]
      · rfl

theorem destroyUnit_orderly (u : ServerUniverse F D) (n : UInt32) :
    Orderly u (u.destroyUnit n) := by
  cases hc : u.ents.find n with
  | none =>
      have hleft : u.destroyUnit n = { u with ents := u.ents.remove n } := by
        unfold ServerUniverse.destroyUnit
        rw [hc, Option.bind_none]
      refine orderly_of_total (fun hu => ?_) (fun _ site => ?_) ?_ ?_ ?_
      · rw [destroyUnit_ents]
        exact remove_world_sound hu n
      · rw [guardians_eq, guardians_eq, total_destroyUnit_of_none _ hc]
      all_goals rw [hleft]
  | some c =>
      cases hai : c.npcAi with
      | none => exact destroyUnit_civilian hc hai
      | some ai => exact destroyUnit_guardian hc hai

end

section

variable {F D : Type} [Floating F] [Floating D] [Widens F D] {u u' : ServerUniverse F D}
  {x : Effect}

/-! ## Steps and calls that leave sites alone -/

omit [Floating D] in
theorem processKill_orderly (u : ServerUniverse F D) (k : Hit F) : Orderly u (u.processKill k) := by
  rcases processKill_cases u k with ⟨hsame, _⟩ | ⟨c, hc, _, _, hkilled⟩
  · rw [hsame]
    exact Orderly.refl u
  · rw [hkilled]
    have hlooted : Orderly u (u.loot c k) := by
      have hrecorded : Orderly u (u.recordKill c k.victim k.killer) := orderly_of_eq rfl rfl rfl rfl
      unfold ServerUniverse.loot
      split
      · unfold ServerUniverse.spawnLoot
        split
        · exact hrecorded
        · rename_i d _
          have hspawned : Orderly (u.recordKill c k.victim k.killer)
              ((u.recordKill c k.victim k.killer).spawn
                ((u.recordKill c k.victim k.killer).lootContainer d)) := spawn_orderly _ rfl
          exact (hrecorded.trans hspawned).trans (orderly_of_eq rfl rfl rfl rfl)
      · exact hrecorded
    exact hlooted.trans (destroyUnit_orderly _ _)

omit [Floating D] [Widens F D] in
theorem deliver_orderly (u : ServerUniverse F D) (done : UInt32 × UniversePos) :
    Orderly u (u.deliver done) := by
  have hship : Orderly u (u.spawnFleetShip done.1 shipShapeId done.2).2 := by
    unfold ServerUniverse.spawnFleetShip ServerUniverse.spawnFleetShipFit
    split
    · exact Orderly.refl u
    · dsimp only
      refine spawn_orderly u ?_
      exact installFitOr_induct (P := fun c => c.npcAi = none) rfl (fun _ _ => rfl) _ _
  unfold ServerUniverse.deliver
  simp only []
  split
  · exact hship.trans (orderly_of_eq rfl rfl rfl rfl)
  · exact hship

omit [Floating D] in
theorem Act.orderly (h : Act x u u') : Orderly u u' := by
  cases h with
  | change hents => exact orderly_of_evolves (fun c c' hr => hr.identity) hents rfl rfl rfl
  | shoot p _ => exact spawn_orderly u rfl
  | kill k _ => exact processKill_orderly u k
  | expire l _ _ => exact orderly_foldl destroyUnit_orderly l u
  | deliver done _ => exact deliver_orderly u done
  | record econ alerts time tick => exact orderly_of_eq rfl rfl rfl rfl

omit [Floating D] in
theorem Acts.orderly (h : Acts x u u') : Orderly u u' := by
  induction h with
  | refl => exact Orderly.refl u
  | tail _ hlast ih => exact ih.trans hlast.orderly

omit [Floating D] [Widens F D] in
theorem claimLoot_orderly (u : ServerUniverse F D) (claimer container : UInt32) :
    Orderly u (u.claimLoot claimer container).2 := by
  unfold ServerUniverse.claimLoot
  split
  · rename_i lc cg hlc hcg
    simp only []
    have hloaded : Orderly u (u.modify claimer fun c =>
        { c with cargo := some (ServerUniverse.takeLoot ResourceType.all cg lc.items 0).1 }) := by
      have hents : Entities.Evolves (fun c c' => c'.identity = c.identity) u.ents
          (u.modify claimer fun c => { c with
            cargo := some (ServerUniverse.takeLoot ResourceType.all cg lc.items 0).1 }).ents := by
        refine Entities.Evolves.modify (R := fun c c' => c'.identity = c.identity) (fun _ => rfl) ?_
        intro c hc
        rw [hc, Option.bind_some] at hcg
        unfold Components.identity
        rw [hcg, Option.isSome_some, Option.isSome_some]
      exact orderly_of_evolves (fun _ _ => id) hents rfl rfl rfl
    exact (hloaded.trans (destroyUnit_orderly _ container)).trans (orderly_of_eq rfl rfl rfl rfl)
  · exact Orderly.refl u

/-- A deed that does not touch sites. -/
theorem Deed.orderly {b d : Bool} (h : Deed b d false u u') : Orderly u u' := by
  cases h with
  | tell n hf =>
      have hents : Entities.Evolves (fun c c' => c'.identity = c.identity) u.ents
          (u.modify n _).ents :=
        Entities.Evolves.modify (R := fun c c' => c'.identity = c.identity) (fun _ => rfl)
          fun c hc => (hf c hc).identity
      exact orderly_of_evolves (fun _ _ => id) hents rfl rfl rfl
  | configure hents _ _ _ halive hcleared hsite => exact orderly_of_eq hents halive hcleared hsite
  | drain hno => exact absurd hno Bool.false_ne_true
  | spawn hmk _ hnpc _ => exact spawn_orderly u (hnpc _)
  | site center count radius fitName hno => exact absurd hno Bool.false_ne_true
  | claim claimer container => exact claimLoot_orderly u claimer container
  | despawn n hno => exact absurd hno Bool.false_ne_true

theorem Deeds.orderly {b d : Bool} (h : Deeds b d false u u') : Orderly u u' := by
  induction h with
  | refl => exact Orderly.refl u
  | tail _ hlast ih => exact ih.trans hlast.orderly

theorem apply_orderly {o : Op F} (ho : o.guards = false) (u : ServerUniverse F D) :
    Orderly u (u.apply o) := by
  by_cases hstep : ∃ dt, o = .step dt
  · rcases hstep with ⟨dt, rfl⟩
    exact Acts.orderly (step_acts dt u)
  · have hdeeds := apply_deeds u o (not_exists.mp hstep)
    rw [ho] at hdeeds
    exact Deeds.orderly hdeeds

/-! ## The others -/

omit [Floating D] [Widens F D] in
/-- Guardians are spawned for a site, one after another. -/
theorem guardians_foldl (l : List Nat) (pos : Nat → UniversePos) (id : UInt16) (fitName : String)
    (hu : u.ents.world.Sound) :
    (l.foldl (fun u i => u.spawnNpcGuardian (pos i) id fitName) u).ents.world.Sound ∧
      ∀ site, (l.foldl (fun u i => u.spawnNpcGuardian (pos i) id fitName) u).guardians site =
        u.guardians site + if site = id then l.length else 0 := by
  induction l generalizing u with
  | nil => exact ⟨hu, fun site => by rw [List.foldl_nil, List.length_nil, ite_self, Nat.add_zero]⟩
  | cons i l ih =>
      have hspawned : (u.spawnNpcGuardian (pos i) id fitName).ents.world.Sound := hu.createEntity _
      rcases ih hspawned with ⟨hworld, hall⟩
      refine ⟨hworld, fun site => ?_⟩
      have hone : (u.spawnNpcGuardian (pos i) id fitName).guardians site =
          u.guardians site + if site = id then 1 else 0 := by
        rw [guardians_eq, guardians_eq]
        refine (total_spawn _ hu _).trans (congrArg _ ?_)
        unfold Components.watch Components.post
        simp only [Option.map_some, Option.some.injEq, eq_comm]
      rw [List.foldl_cons, hall, hone, List.length_cons]
      split <;> omega

omit [Floating D] [Widens F D] in
/-- The spawns write nothing into the books. -/
theorem guardians_foldl_eq (l : List Nat) (pos : Nat → UniversePos) (id : UInt16)
    (fitName : String) (u : ServerUniverse F D) :
    ∃ e n, l.foldl (fun u i => u.spawnNpcGuardian (pos i) id fitName) u =
      { u with ents := e, nextNetId := n } := by
  induction l generalizing u with
  | nil => exact ⟨u.ents, u.nextNetId, rfl⟩
  | cons i l ih =>
      rcases ih (u.spawnNpcGuardian (pos i) id fitName) with ⟨e, n, hspawned⟩
      exact ⟨e, n, hspawned⟩

/-- What a new site changes. -/
theorem spawnNpcSite_books (hu : u.ents.world.Sound) (center : UniversePos) (count : Int)
    (radius : F) (fitName : String) : ∃ n : Nat, 0 < n ∧
    (u.spawnNpcSite center count radius fitName).ents.world.Sound ∧
    (u.spawnNpcSite center count radius fitName).clearedSites = u.clearedSites ∧
    (u.spawnNpcSite center count radius fitName).nextSiteId = u.nextSiteId + 1 ∧
    (∀ site, (u.spawnNpcSite center count radius fitName).npcSiteAlive site =
      if site = u.nextSiteId then (n : Int) else u.npcSiteAlive site) ∧
    ∀ site, (u.spawnNpcSite center count radius fitName).guardians site =
      u.guardians site + if site = u.nextSiteId then n else 0 := by
  refine ⟨(max 1 (min count 32)).toNat, by omega, ?_⟩
  unfold ServerUniverse.spawnNpcSite
  simp only []
  rcases guardians_foldl (u := { u with
      nextSiteId := u.nextSiteId + 1
      siteAlive := (u.nextSiteId, ((max 1 (min count 32)).toNat : Int)) ::
        Assoc.erase u.siteAlive u.nextSiteId })
    (List.range (max 1 (min count 32)).toNat) _ u.nextSiteId fitName hu with ⟨hworld, hall⟩
  rcases guardians_foldl_eq (List.range (max 1 (min count 32)).toNat) _ u.nextSiteId fitName { u with
      nextSiteId := u.nextSiteId + 1
      siteAlive := (u.nextSiteId, ((max 1 (min count 32)).toNat : Int)) ::
        Assoc.erase u.siteAlive u.nextSiteId } with ⟨e, k, hspawned⟩
  refine ⟨hworld, by rw [hspawned], by rw [hspawned], fun site => ?_, fun site => ?_⟩
  · rw [hspawned]
    unfold ServerUniverse.npcSiteAlive
    simp only []
    rw [Assoc.lookup_cons, Assoc.lookup_erase]
    by_cases hsite : site = u.nextSiteId
    · rw [if_pos hsite, if_pos hsite.symm, if_pos hsite, Option.getD_some]
    · rw [if_neg hsite, if_neg fun h => hsite h.symm, if_neg hsite]
  · rw [hall, List.length_range]
    rfl

omit [Floating F] [Floating D] [Widens F D] in
/-- What is despawned leaves, and nobody writes it down. -/
theorem guardians_despawnBase (u : ServerUniverse F D) (n : UInt32) (site : UInt16) :
    (u.despawnBase n).2.guardians site + (u.ents.find n).elim 0 (Components.watch site) =
      u.guardians site := by
  unfold ServerUniverse.despawnBase
  cases hof : u.ents.entityOf n with
  | none =>
      have hnone : u.ents.find n = none := by
        unfold Entities.find
        rw [hof, Option.bind_none]
      rw [hnone, Option.elim_none, Nat.add_zero]
  | some h =>
      rw [guardians_eq, guardians_eq]
      cases hc : u.ents.find n with
      | none =>
          rw [Option.elim_none, Nat.add_zero]
          unfold ServerUniverse.total
          rw [Entities.remove_world_of_none hc]
      | some c => exact Entities.total_remove (Components.watch site) hc

/-! ## A restart -/

theorem lookup_joinSite (l : List (UInt16 × Int)) (id site : UInt16) :
    (Assoc.lookup (ServerUniverse.joinSite l id) site).getD 0 =
      (Assoc.lookup l site).getD 0 + if id = site then 1 else 0 := by
  unfold ServerUniverse.joinSite
  rw [Assoc.lookup_cons, Assoc.lookup_erase]
  by_cases hsite : id = site
  · rw [if_pos hsite, if_pos hsite, Option.getD_some, hsite]
  · rw [if_neg hsite, if_neg fun h => hsite h.symm, if_neg hsite, Int.add_zero]

theorem lookup_joinSites (ids : List UInt16) (l : List (UInt16 × Int)) (site : UInt16) :
    (Assoc.lookup (ids.foldl ServerUniverse.joinSite l) site).getD 0 =
      (Assoc.lookup l site).getD 0 + ids.count site := by
  induction ids generalizing l with
  | nil => rw [List.foldl_nil, List.count_nil, Int.natCast_zero, Int.add_zero]
  | cons id ids ih =>
      rw [List.foldl_cons, ih, lookup_joinSite, List.count_cons]
      by_cases hsite : id = site
      · rw [if_pos hsite, if_pos (beq_iff_eq.mpr hsite)]
        omega
      · rw [if_neg hsite, if_neg fun h => hsite (beq_iff_eq.mp h)]
        omega

omit [Floating D] [Widens F D] in
/-- A snapshot has the guardians of every site. -/
theorem count_captured (u : ServerUniverse F D) (site : UInt16) :
    (u.captureState.npcs.map PersistNpc.siteId).count site = u.guardians site := by
  unfold ServerUniverse.captureState ServerUniverse.guardians
  simp only []
  induction u.ents.world.alive with
  | nil => rfl
  | cons c l ih =>
      rw [List.countP_cons, ← ih]
      unfold Components.post
      cases hai : c.npcAi with
      | none =>
          have hnone : u.captureNpc c = none := by
            unfold ServerUniverse.captureNpc
            rw [hai]
          rw [List.filterMap_cons_none hnone]
          rfl
      | some ai =>
          rcases hcaptured : u.captureNpc c with _ | p
          · unfold ServerUniverse.captureNpc at hcaptured
            rw [hai] at hcaptured
            cases hcaptured
          · have hid : p.siteId = ai.siteId := by
              unfold ServerUniverse.captureNpc at hcaptured
              rw [hai, Option.some.injEq] at hcaptured
              rw [← hcaptured]
            rw [List.filterMap_cons_some hcaptured, List.map_cons, List.count_cons, hid]
            simp only [Option.map_some, Option.some.injEq, beq_iff_eq, decide_eq_true_eq]

omit [Floating D] [Widens F D] in
/-- Of what is restored, the guardians are those of the snapshot. -/
theorem watch_restored (v : ServerUniverse F D) (s : PersistState F) (site : UInt16) :
    ((v.restored s).map (Components.watch site)).sum =
      (s.npcs.map PersistNpc.siteId).count site := by
  have hnone : ∀ (c : Components F) (health : Option Health) (fit : String), c.npcAi = none →
      Components.watch site { (installFit v.combat c fit).getD c with health := health } = 0 := by
    intro c health fit hc
    refine watch_of_none ?_ site
    exact installFitGetD_induct (P := fun c => c.npcAi = none) hc (fun _ _ => hc) fit
  have hbases : ∀ b ∈ s.bases, Components.watch site (v.restoreBase s.builds b) = 0 :=
    fun b _ => hnone _ _ _ rfl
  have hships : ∀ sh ∈ s.ships, Components.watch site (v.restoreShip sh) = 0 :=
    fun sh _ => hnone _ _ _ rfl
  unfold ServerUniverse.restored
  rw [List.map_append, List.map_append, List.sum_append, List.sum_append, List.map_map,
    List.map_map, List.map_map]
  have hzero : ∀ {α : Type} (l : List α) (f : α → Nat), (∀ a ∈ l, f a = 0) → (l.map f).sum = 0 :=
    fun l f hf => List.sum_eq_zero fun n hn => by
      rcases List.mem_map.mp hn with ⟨a, ha, rfl⟩
      exact hf a ha
  rw [hzero s.bases (Components.watch site ∘ v.restoreBase s.builds) hbases,
    hzero s.ships (Components.watch site ∘ v.restoreShip) hships, Nat.zero_add]
  induction s.npcs with
  | nil => rfl
  | cons p l ih =>
      rw [List.map_cons, List.sum_cons, ih, List.map_cons, List.count_cons, Nat.add_comm]
      refine congrArg _ ?_
      unfold Function.comp Components.watch Components.post ServerUniverse.restoreNpc
      simp only [Option.map_some, Option.some.injEq, beq_iff_eq]

omit [Floating F] [Floating D] [Widens F D] in
theorem total_insertAll {e : Entities F} (g : Components F → Nat) (l : List (Components F))
    (he : e.world.Sound) : (l.foldl Entities.insert e).world.Sound ∧
      (l.foldl Entities.insert e).world.total g = e.world.total g + (l.map g).sum := by
  induction l generalizing e with
  | nil => exact ⟨he, by rw [List.foldl_nil, List.map_nil, List.sum_nil, Nat.add_zero]⟩
  | cons c l ih =>
      have hinserted : (e.insert c).world.Sound := he.createEntity c
      rcases ih hinserted with ⟨hworld, htotal⟩
      refine ⟨hworld, ?_⟩
      rw [List.foldl_cons, htotal, Entities.total_insert g he c, List.map_cons, List.sum_cons,
        Nat.add_assoc]

/-- Every guardian is one that a net id leads to. -/
def ServerUniverse.Mustered (u : ServerUniverse F D) : Prop :=
  ∀ i c, u.ents.world.slot i = some c → c.npcAi.isSome = true →
    ⟨i, u.ents.world.generationAt i⟩ ∈ u.handles

omit [Floating F] [Floating D] [Widens F D] in
/-- A restart wipes away what the net ids lead to, and no other guardian. -/
theorem wipe_watch (hu : u.ents.world.Sound) {order : List EntityHandle}
    (horder : order.Perm u.handles) : u.Mustered ↔
      ∀ site, (ServerUniverse.wipe u.ents order).world.total (Components.watch site) = 0 := by
  have hworld : (ServerUniverse.wipe u.ents order).world.Sound := destroyAll_sound order hu
  have hget : ∀ h, (ServerUniverse.wipe u.ents order).world.get h =
      if h ∈ order then none else u.ents.world.get h := get_destroyAll order u.ents.world
  constructor
  · intro hmustered site
    refine List.sum_eq_zero fun n hn => ?_
    rcases List.mem_map.mp hn with ⟨c, hc, rfl⟩
    rcases World.mem_alive.mp hc with ⟨i, hi⟩
    have hleft := hworld.get_slot hi
    rw [hget] at hleft
    split at hleft
    · exact absurd hleft nofun
    · rename_i hnot
      -- it was there before, so a guardian would have been wiped away
      cases hai : c.npcAi with
      | none => exact watch_of_none hai site
      | some ai =>
          have hgen := (World.generation_of_get hleft).2
          have hlisted := hmustered i c (World.slot_of_get hleft) (by rw [hai, Option.isSome_some])
          rw [show u.ents.world.generationAt i = _ from hgen] at hlisted
          exact absurd (horder.mem_iff.mpr hlisted) hnot
  · intro hzero i c hi hai
    by_contra hnot
    rcases Option.isSome_iff_exists.mp hai with ⟨ai, hai⟩
    have hleft : (ServerUniverse.wipe u.ents order).world.get
        ⟨i, u.ents.world.generationAt i⟩ = some c := by
      rw [hget, if_neg fun h => hnot (horder.mem_iff.mp h)]
      exact hu.get_slot hi
    have halive : c ∈ (ServerUniverse.wipe u.ents order).world.alive :=
      World.mem_alive.mpr ⟨i, World.slot_of_get hleft⟩
    have hwatch := List.sum_eq_zero_iff.mp (hzero ai.siteId) _ (List.mem_map_of_mem halive)
    unfold Components.watch Components.post at hwatch
    rw [hai, Option.map_some, if_pos rfl] at hwatch
    exact absurd hwatch (by decide)

omit [Widens F D] in
/-- What a restart leaves. -/
theorem restoreState_books {v : ServerUniverse F D} (hv : v.ents.world.Sound)
    (order : List EntityHandle) (u : ServerUniverse F D) :
    (v.restoreState order u.captureState).ents.world.Sound ∧
    (∀ site, (v.restoreState order u.captureState).npcSiteAlive site = u.guardians site) ∧
    ∀ site, (v.restoreState order u.captureState).guardians site =
      (ServerUniverse.wipe v.ents order).world.total (Components.watch site) +
        u.guardians site := by
  have hwiped : (ServerUniverse.wipe v.ents order).world.Sound := destroyAll_sound order hv
  refine ⟨?_, fun site => ?_, fun site => ?_⟩
  · exact (total_insertAll (fun _ => 0) _ hwiped).1
  · have hcount := lookup_joinSites (u.captureState.npcs.map PersistNpc.siteId) [] site
    rw [count_captured] at hcount
    refine hcount.trans ?_
    rw [Assoc.lookup_nil, Option.getD_none, Int.zero_add]
  · rw [guardians_eq, ← count_captured, ← watch_restored v]
    exact (total_insertAll (Components.watch site) _ hwiped).2

/-! ## Runs -/

namespace Sites

variable {s : Sites F D} {v : ServerUniverse F D}

/-- The counts are right, and every clearing is reported once, when it happens. -/
structure Exact (s : Sites F D) : Prop where
  alive : ∀ site, s.running.npcSiteAlive site = s.running.guardians site
  cleared : ∀ site, (s.drained ++ s.running.clearedSites).count site =
    if site ∈ s.given ∧ s.running.guardians site = 0 then 1 else 0

/-- What an exact record goes on from. -/
structure Kept (s : Sites F D) : Prop where
  world : s.running.ents.world.Sound
  manned : ∀ site, s.running.guardians site ≠ 0 → site ∈ s.given
  exact : s.Exact

/-- The call gives no site an id that one had before, and despawns no guardian. -/
def Meets (s : Sites F D) : Op F → Prop
  | .spawnNpcSite .. => s.running.nextSiteId ∉ s.given
  | .despawnBase n => ∀ c, s.running.ents.find n = some c → c.npcAi = none
  | _ => True

/-- A restart with no report left to take, into a universe that can be wiped. -/
def Resumes (s : Sites F D) (v : ServerUniverse F D) : Prop :=
  s.running.clearedSites = [] ∧ v.Mustered

/-- The runs whose calls and restarts meet the conditions. -/
inductive Run : Sites F D → Prop
  | start : Run .start
  | call {s : Sites F D} (o : Op F) : Run s → s.Meets o → Run (s.call o)
  | restart {s : Sites F D} {v : ServerUniverse F D} (order : List EntityHandle) :
      Run s → Reached v → order.Perm v.handles → s.Resumes v → Run (s.restart v order)

omit [Floating F] [Floating D] [Widens F D] in
theorem Kept.books (h : s.Kept) : Books s.running := ⟨h.world, h.exact.alive⟩

omit [Widens F D] in
theorem Kept.start : (Sites.start : Sites F D).Kept where
  world := World.Sound.fresh
  manned := fun _ h => absurd rfl h
  exact := ⟨fun _ => rfl, fun _ => (if_neg fun h => List.not_mem_nil h.1).symm⟩

/-- A call that leaves sites alone leaves the record alone. -/
theorem call_quiet {o : Op F} (ho : o.guards = false) :
    s.call o = { s with running := s.running.apply o } ∧ s.Meets o := by
  cases o with
  | spawnNpcSite center count radius fitName => exact absurd ho.symm Bool.false_ne_true
  | despawnBase n => exact absurd ho.symm Bool.false_ne_true
  | drain feed =>
      cases feed with
      | clearedSites => exact absurd ho.symm Bool.false_ne_true
      | _ => exact ⟨rfl, trivial⟩
  | _ => exact ⟨rfl, trivial⟩

omit [Floating F] [Floating D] [Widens F D] in
/-- Deaths keep an exact record. -/
theorem Kept.thinned (h : s.Kept) {u' : ServerUniverse F D} (hthin : Orderly s.running u') :
    ({ s with running := u' } : Sites F D).Kept := by
  rcases hthin h.books with ⟨hbooks, hthinned⟩
  refine ⟨hbooks.world, fun site hsite => ?_, hbooks.exact, fun site => ?_⟩
  · refine h.manned site fun hno => hsite ?_
    have hfewer := hthinned.fewer site
    exact Nat.le_zero.mp (hno ▸ hfewer)
  · have hbefore := h.exact.cleared site
    have hmanned := h.manned site
    have hfewer := hthinned.fewer site
    rw [List.count_append] at hbefore ⊢
    show s.drained.count site + u'.clearedSites.count site =
      if site ∈ s.given ∧ u'.guardians site = 0 then 1 else 0
    rw [hthinned.cleared, ← Nat.add_assoc, hbefore]
    by_cases hnone : s.running.guardians site = 0
    · have hnone' : u'.guardians site = 0 := by omega
      simp only [hnone, hnone', ne_eq, not_true_eq_false, false_and, if_false, Nat.add_zero]
    · have hgiven := hmanned hnone
      simp only [hnone, hgiven, ne_eq, not_false_eq_true, true_and, and_false, if_false,
        Nat.zero_add]

/-- A site may have an id that no site has had. -/
theorem Kept.spawnNpcSite (h : s.Kept) (center : UniversePos) (count : Int) (radius : F)
    (fitName : String) :
    ((s.call (.spawnNpcSite center count radius fitName)).Exact ↔
        s.running.nextSiteId ∉ s.given) ∧
      (s.running.nextSiteId ∉ s.given →
        (s.call (.spawnNpcSite center count radius fitName)).Kept) := by
  rcases spawnNpcSite_books h.world center count radius fitName with
    ⟨n, hn, hworld, hcleared, _, halive, hguardians⟩
  have hkept : s.running.nextSiteId ∉ s.given →
      (s.call (.spawnNpcSite center count radius fitName)).Kept := by
    intro hnew
    have hempty : s.running.guardians s.running.nextSiteId = 0 := by
      by_contra hno
      exact hnew (h.manned _ hno)
    refine ⟨hworld, fun site hsite => ?_, fun site => ?_, fun site => ?_⟩
    · refine List.mem_append.mpr ?_
      by_cases hid : site = s.running.nextSiteId
      · exact .inr (List.mem_singleton.mpr hid)
      · refine .inl (h.manned site fun hno => hsite ?_)
        exact (hguardians site).trans (by rw [if_neg hid, hno])
    · refine (halive site).trans ?_
      rw [show (s.call (.spawnNpcSite center count radius fitName)).running.guardians site = _ from
        hguardians site]
      by_cases hid : site = s.running.nextSiteId
      · rw [if_pos hid, if_pos hid, hid, hempty, Nat.zero_add]
      · rw [if_neg hid, if_neg hid, Nat.add_zero]
        exact h.exact.alive site
    · have hbefore := h.exact.cleared site
      show (s.drained ++ (s.running.spawnNpcSite center count radius fitName).clearedSites).count
        site = if site ∈ s.given ++ [s.running.nextSiteId] ∧
          (s.running.spawnNpcSite center count radius fitName).guardians site = 0 then 1 else 0
      rw [hcleared, hbefore, hguardians]
      by_cases hid : site = s.running.nextSiteId
      · rw [if_neg fun hno => hnew (hid ▸ hno.1), if_pos hid, if_neg fun hno => by omega]
      · rw [if_neg hid, Nat.add_zero]
        refine if_congr (and_congr_left fun _ => ?_) rfl rfl
        rw [List.mem_append, List.mem_singleton]
        exact ⟨Or.inl, fun hmem => hmem.resolve_right hid⟩
  refine ⟨⟨fun hexact hgiven => ?_, fun hnew => (hkept hnew).exact⟩, hkept⟩
  -- The new count leaves out whoever guards under the id already, and with nobody there the
  -- site has been reported.
  have hcount := hexact.alive s.running.nextSiteId
  have hreports := hexact.cleared s.running.nextSiteId
  have hbefore := h.exact.cleared s.running.nextSiteId
  have halive' := halive s.running.nextSiteId
  have hguardians' := hguardians s.running.nextSiteId
  rw [if_pos rfl] at halive' hguardians'
  have hempty : s.running.guardians s.running.nextSiteId = 0 := by
    have hsame : ((n : Nat) : Int) =
        (s.running.spawnNpcSite center count radius fitName).guardians s.running.nextSiteId :=
      halive'.symm.trans hcount
    omega
  rw [if_pos ⟨hgiven, hempty⟩] at hbefore
  have hreports' : (s.drained ++
      (s.running.spawnNpcSite center count radius fitName).clearedSites).count
        s.running.nextSiteId = if s.running.nextSiteId ∈ s.given ++ [s.running.nextSiteId] ∧
          (s.running.spawnNpcSite center count radius fitName).guardians
            s.running.nextSiteId = 0 then 1 else 0 := hreports
  rw [hcleared, hbefore, if_neg fun hno => by omega] at hreports'
  exact absurd hreports' (by decide)

/-- What is taken out is on record. -/
theorem Kept.drain (h : s.Kept) : (s.call (.drain .clearedSites)).Kept := by
  refine ⟨h.world, h.manned, h.exact.alive, fun site => ?_⟩
  refine Eq.trans ?_ (h.exact.cleared site)
  show ((s.drained ++ s.running.clearedSites) ++ []).count site = _
  rw [List.append_nil]

/-- A guardian that is despawned stays in the count of its site. -/
theorem Kept.despawnBase (h : s.Kept) (n : UInt32) :
    ((s.call (.despawnBase n)).Exact ↔ s.Meets (.despawnBase n)) ∧
      (s.Meets (.despawnBase n) → (s.call (.despawnBase n)).Kept) := by
  have hleft := guardians_despawnBase s.running n
  have hbooks : (s.running.despawnBase n).2.siteAlive = s.running.siteAlive ∧
      (s.running.despawnBase n).2.clearedSites = s.running.clearedSites ∧
      (s.running.ents.world.Sound → (s.running.despawnBase n).2.ents.world.Sound) := by
    unfold ServerUniverse.despawnBase
    split
    · exact ⟨rfl, rfl, id⟩
    · exact ⟨rfl, rfl, fun hu => remove_world_sound hu n⟩
  have halive : ∀ site, (s.running.despawnBase n).2.npcSiteAlive site =
      s.running.npcSiteAlive site := by
    intro site
    unfold ServerUniverse.npcSiteAlive
    rw [hbooks.1]
  have hkept : s.Meets (.despawnBase n) → (s.call (.despawnBase n)).Kept := by
    intro hmeets
    have hsame : ∀ site, (s.running.despawnBase n).2.guardians site =
        s.running.guardians site := by
      intro site
      have hsite := hleft site
      cases hc : s.running.ents.find n with
      | none =>
          rw [hc, Option.elim_none] at hsite
          omega
      | some c =>
          rw [hc, Option.elim_some, watch_of_none (hmeets c hc)] at hsite
          omega
    refine ⟨hbooks.2.2 h.world, fun site hsite => ?_, fun site => ?_, fun site => ?_⟩
    · exact h.manned site fun hno => hsite ((hsame site).trans hno)
    · exact (halive site).trans ((h.exact.alive site).trans (congrArg _ (hsame site).symm))
    · show (s.drained ++ (s.running.despawnBase n).2.clearedSites).count site =
        if site ∈ s.given ∧ (s.running.despawnBase n).2.guardians site = 0 then 1 else 0
      rw [hbooks.2.1, hsame]
      exact h.exact.cleared site
  refine ⟨⟨fun hexact c hc => ?_, fun hmeets => (hkept hmeets).exact⟩, hkept⟩
  cases hai : c.npcAi with
  | none => rfl
  | some ai =>
      have hcount : (s.running.despawnBase n).2.npcSiteAlive ai.siteId =
          (s.running.despawnBase n).2.guardians ai.siteId := hexact.alive ai.siteId
      have hbefore := h.exact.alive ai.siteId
      have hsite := hleft ai.siteId
      have hwatch : c.watch ai.siteId = 1 := by
        unfold Components.watch Components.post
        rw [hai, Option.map_some, if_pos rfl]
      rw [hc, Option.elim_some, hwatch] at hsite
      rw [halive] at hcount
      omega

/-- A call keeps an exact record exactly where it meets the condition. -/
theorem Kept.call (h : s.Kept) (o : Op F) :
    ((s.call o).Exact ↔ s.Meets o) ∧ (s.Meets o → (s.call o).Kept) := by
  have hquiet : o.guards = false →
      ((s.call o).Exact ↔ s.Meets o) ∧ (s.Meets o → (s.call o).Kept) := by
    intro ho
    rcases call_quiet (s := s) ho with ⟨hcall, hmeets⟩
    have hkept : (s.call o).Kept := by
      rw [hcall]
      exact h.thinned (apply_orderly ho s.running)
    exact ⟨⟨fun _ => hmeets, fun _ => hkept.exact⟩, fun _ => hkept⟩
  cases o with
  | spawnNpcSite center count radius fitName => exact h.spawnNpcSite center count radius fitName
  | despawnBase n => exact h.despawnBase n
  | drain feed =>
      cases feed with
      | clearedSites => exact ⟨⟨fun _ => trivial, fun _ => h.drain.exact⟩, fun _ => h.drain⟩
      | _ => exact hquiet rfl
  | _ => exact hquiet rfl

omit [Widens F D] in
/-- So does a restart. -/
theorem Kept.restart (h : s.Kept) (hv : v.ents.world.Sound) {order : List EntityHandle}
    (horder : order.Perm v.handles) :
    ((s.restart v order).Exact ↔ s.Resumes v) ∧ (s.Resumes v → (s.restart v order).Kept) := by
  rcases restoreState_books hv order s.running with ⟨hworld, halive, hguardians⟩
  have hkept : s.Resumes v → (s.restart v order).Kept := by
    rintro ⟨htaken, hmustered⟩
    have hsame : ∀ site, (s.restart v order).running.guardians site =
        s.running.guardians site := by
      intro site
      refine (hguardians site).trans ?_
      rw [(wipe_watch hv horder).mp hmustered, Nat.zero_add]
    refine ⟨hworld, fun site hsite => ?_, fun site => ?_, fun site => ?_⟩
    · exact h.manned site fun hno => hsite ((hsame site).trans hno)
    · exact (halive site).trans (congrArg _ (hsame site).symm)
    · have hbefore := h.exact.cleared site
      rw [htaken] at hbefore
      rw [hsame]
      exact hbefore
  refine ⟨⟨fun hexact => ⟨?_, ?_⟩, fun hresumes => (hkept hresumes).exact⟩, hkept⟩
  · -- A report that is left out is the only one of its site.
    by_contra hpending
    rcases List.exists_mem_of_ne_nil _ hpending with ⟨site, hsite⟩
    have hbefore := h.exact.cleared site
    rw [List.count_append] at hbefore
    have hone := List.count_pos_iff.mpr hsite
    have hdue : site ∈ s.given ∧ s.running.guardians site = 0 := by
      by_contra hno
      rw [if_neg hno] at hbefore
      omega
    rw [if_pos hdue] at hbefore
    have hafter : (s.drained ++ []).count site = if site ∈ s.given ∧
        (s.restart v order).running.guardians site = 0 then 1 else 0 := hexact.cleared site
    have hcount : (s.restart v order).running.npcSiteAlive site =
        (s.restart v order).running.guardians site := hexact.alive site
    rw [show (s.restart v order).running.npcSiteAlive site = _ from halive site, hdue.2] at hcount
    rw [List.append_nil, if_pos ⟨hdue.1, by omega⟩] at hafter
    omega
  · refine (wipe_watch hv horder).mpr fun site => ?_
    have hcount : (s.restart v order).running.npcSiteAlive site =
        (s.restart v order).running.guardians site := hexact.alive site
    rw [show (s.restart v order).running.npcSiteAlive site = _ from halive site,
      show (s.restart v order).running.guardians site = _ from hguardians site] at hcount
    omega

theorem Run.kept (h : s.Run) : s.Kept := by
  induction h with
  | start => exact Kept.start
  | call o _ hmeets ih => exact (ih.call o).2 hmeets
  | restart order _ hv horder hresumes ih =>
      exact (ih.restart (hv.proper.world) horder).2 hresumes

/-- In every run whose calls and restarts meet the conditions the record is exact, and it stays
    so exactly where the next call or restart meets them. -/
theorem sites_exact (h : s.Run) : s.Exact ∧ (∀ o, (s.call o).Exact ↔ s.Meets o) ∧
    ∀ (v : ServerUniverse F D) order, Reached v → order.Perm v.handles →
      ((s.restart v order).Exact ↔ s.Resumes v) :=
  ⟨h.kept.exact, fun o => (h.kept.call o).1,
    fun _ _ hv horder => (h.kept.restart hv.proper.world horder).1⟩

/-! ## Few sites -/

/-- Ids are given in their order. -/
def Numbered (s : Sites F D) : Prop :=
  s.given = (List.range s.given.length).map (fun i => UInt16.ofNat (i + 1)) ∧
    s.running.nextSiteId = UInt16.ofNat (s.given.length + 1)

omit [Floating F] [Floating D] [Widens F D] in
/-- While ids are given in their order, the first 65535 of them are all different. -/
theorem Numbered.fresh (h : s.Numbered) (hfew : s.given.length < 65535) :
    s.running.nextSiteId ∉ s.given := by
  intro hmem
  rw [h.1, h.2] at hmem
  rcases List.mem_map.mp hmem with ⟨i, hi, hsame⟩
  have hlt := List.mem_range.mp hi
  have hnat := congrArg UInt16.toNat hsame
  rw [UInt16.toNat_ofNat', UInt16.toNat_ofNat', Nat.mod_eq_of_lt (by omega),
    Nat.mod_eq_of_lt (by omega)] at hnat
  omega

/-- Calls go on with the numbers. -/
theorem Numbered.call (h : s.Numbered) (hs : s.Kept) (o : Op F) : (s.call o).Numbered := by
  have hquiet : o.guards = false → (s.call o).Numbered := by
    intro ho
    rw [(call_quiet ho).1]
    exact ⟨h.1, (apply_orderly ho s.running hs.books).2.nextSiteId.trans h.2⟩
  cases o with
  | spawnNpcSite center count radius fitName =>
      rcases spawnNpcSite_books hs.world center count radius fitName with ⟨_, _, _, _, hnext, _⟩
      have hlength : (s.given ++ [s.running.nextSiteId]).length = s.given.length + 1 := by
        rw [List.length_append, List.length_singleton]
      refine ⟨?_, hnext.trans ?_⟩
      · show s.given ++ [s.running.nextSiteId] = _
        rw [show (s.call (.spawnNpcSite center count radius fitName)).given.length = _ from hlength,
          List.range_succ, List.map_append, ← h.1, List.map_singleton, ← h.2]
      · rw [show (s.call (.spawnNpcSite center count radius fitName)).given.length = _ from hlength,
          h.2]
        exact (UInt16.ofNat_add (s.given.length + 1) 1).symm
  | despawnBase n =>
      refine ⟨h.1, Eq.trans ?_ h.2⟩
      show (s.running.despawnBase n).2.nextSiteId = _
      unfold ServerUniverse.despawnBase
      split <;> rfl
  | drain feed =>
      cases feed with
      | clearedSites => exact h
      | _ => exact hquiet rfl
  | _ => exact hquiet rfl

omit [Widens F D] in
/-- So does a universe that restores what it has captured itself. -/
theorem Numbered.restart (h : s.Numbered) (order : List EntityHandle) :
    (s.restart s.running order).Numbered := h

end Sites

end

/-- A site, a restart in another process, and another site. -/
def reopened : Sites ℚ ℚ :=
  (((Sites.start.call (.spawnNpcSite ⟨0, 0, 0⟩ 1 1200 "npc-guardian")).restart .fresh []).call
    (.spawnNpcSite ⟨90000, 0, 0⟩ 2 1200 "npc-guardian"))

/-- Both sites have the first id; the count has two guardians and three are alive. -/
theorem restart_reuses_site :
    reopened.given = [1, 1] ∧ reopened.running.npcSiteAlive 1 = 2 ∧
      reopened.running.guardians 1 = 3 ∧ ¬ reopened.Exact := by
  have hcounts : reopened.given = [1, 1] ∧ reopened.running.npcSiteAlive 1 = 2 ∧
      reopened.running.guardians 1 = 3 := by
    decide +kernel
  refine ⟨hcounts.1, hcounts.2.1, hcounts.2.2, fun hexact => ?_⟩
  have hsame := hexact.alive 1
  rw [hcounts.2.1, hcounts.2.2] at hsame
  exact absurd hsame (by decide)

theorem sites_exact_restarted :
    ((Sites.start.call (.spawnNpcSite ⟨0, 0, 0⟩ 1 1200 "npc-guardian") : Sites ℚ ℚ).restart .fresh
      []).Exact := by
  have hsite : ((Sites.start : Sites ℚ ℚ).call
      (.spawnNpcSite ⟨0, 0, 0⟩ 1 1200 "npc-guardian")).Run :=
    .call _ .start (List.not_mem_nil)
  have hresumes : ((Sites.start : Sites ℚ ℚ).call
      (.spawnNpcSite ⟨0, 0, 0⟩ 1 1200 "npc-guardian")).Resumes .fresh :=
    ⟨by decide +kernel, fun i c hi _ => by
      have hc : c ∈ (.fresh : ServerUniverse ℚ ℚ).ents.world.alive := World.mem_alive.mpr ⟨i, hi⟩
      exact absurd hc List.not_mem_nil⟩
  exact (Sites.sites_exact (Sites.Run.restart [] hsite .fresh (List.Perm.refl _) hresumes)).1

end Shard

end EarthRise
