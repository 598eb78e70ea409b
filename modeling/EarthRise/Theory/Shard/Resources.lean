import EarthRise.Theory.Shard.Everyone
import EarthRise.Theory.Shard.Totals
import EarthRise.Theory.Transfers
import EarthRise.Theory.UniverseData

/-!
# Resources Are Not Made

What all nodes, holds and loot containers of a universe hold together.

Mining, unloading and claiming loot move resources, and nothing else in a step or a call adds
any but the spawning of nodes: a build, a retreat and a kill only take. Several harvesters on one
node and at one base take their turns, and each one sees what the others have left.

Whatever holds something holds no other kind of thing: a ship has its cargo, a base its storage,
and nodes and loot containers have neither. So a transfer is always between two entities.

All of it is in exact arithmetic, and none of it needs the net ids to be new.

## Main definitions

* `Components.worth`: What an entity holds.
* `Stocked`: An entity that holds no less than nothing and no more than fits.
* `Thrifty`: A universe of such entities, under a balance that the check accepts.
* `Spends`: From a universe to one whose entities hold no more.
* `Op.Accepted`, `Op.yields`: A call with an accepted balance, and the nodes that it spawns.

## Theorems

* `harvestSystem_spends`, `Act.spends`, `step_spends`: A step.
* `Deed.spends`: The other calls.
* `resources_kept`: Runs.
-/

namespace EarthRise

namespace Shard

open Cooked (economyErrors errorIf_eq_nil)
open Ecs (World EntityHandle)
open Universe (UniversePos Vec3)

section

variable {F D : Type} [Exact F]

/-! ## What an entity holds -/

def Components.worth (c : Components F) : F :=
  c.resourceNode.elim 0 ResourceNodeTag.remaining + c.cargo.elim 0 (fun h => sumSlots h.amount) +
    c.storage.elim 0 (fun h => sumSlots h.amount) + c.loot.elim 0 fun l => sumSlots l.items

/-- The entity holds no less than nothing and no more than fits. -/
structure Stocked (c : Components F) : Prop where
  proper : Proper c
  node : ∀ n, c.resourceNode = some n → 0 ≤ n.remaining
  cargo : ∀ h, c.cargo = some h → h.Fits
  storage : ∀ h, c.storage = some h → h.Fits
  loot : ∀ l, c.loot = some l → l.items.Nonneg

variable {c c' : Components F} {u u' u'' : ServerUniverse F D} {dt : F}

theorem Stocked.worth_nonneg (h : Stocked c) : 0 ≤ c.worth := by
  unfold Components.worth
  have hnode : 0 ≤ c.resourceNode.elim 0 ResourceNodeTag.remaining := by
    cases hn : c.resourceNode with
    | none => exact le_refl _
    | some n => exact h.node n hn
  have hcargo : 0 ≤ c.cargo.elim 0 fun h => sumSlots h.amount := by
    cases hh : c.cargo with
    | none => exact le_refl _
    | some hold => exact (h.cargo hold hh).sum
  have hstorage : 0 ≤ c.storage.elim 0 fun h => sumSlots h.amount := by
    cases hh : c.storage with
    | none => exact le_refl _
    | some hold => exact (h.storage hold hh).sum
  have hloot : 0 ≤ c.loot.elim 0 fun l => sumSlots l.items := by
    cases hl : c.loot with
    | none => exact le_refl _
    | some l => exact (h.loot l hl).sum
  linarith

theorem worth_of_goods (h : c'.goods = c.goods) : c'.worth = c.worth := by
  unfold Components.goods at h
  rw [Goods.mk.injEq] at h
  rcases h with ⟨hnode, hcargo, hstorage, hloot⟩
  unfold Components.worth
  rw [hnode, hcargo, hstorage, hloot]

theorem Stocked.of_goods (hproper : Proper c') (hgoods : c'.goods = c.goods) (h : Stocked c) :
    Stocked c' := by
  unfold Components.goods at hgoods
  rw [Goods.mk.injEq] at hgoods
  rcases hgoods with ⟨hnode, hcargo, hstorage, hloot⟩
  refine ⟨hproper, ?_, ?_, ?_, ?_⟩
  · rw [hnode]
    exact h.node
  · rw [hcargo]
    exact h.cargo
  · rw [hstorage]
    exact h.storage
  · rw [hloot]
    exact h.loot

/-- What has no more than empty holds. -/
theorem stocked_of_empty (hproper : Proper c) {cargo storage : Option (Hold F)}
    (hgoods : c.goods = ⟨none, cargo, storage, none⟩)
    (hcargo : ∀ h, cargo = some h → ∃ capacity, 0 ≤ capacity ∧ h = .empty capacity)
    (hstorage : ∀ h, storage = some h → ∃ capacity, 0 ≤ capacity ∧ h = .empty capacity) :
    Stocked c ∧ c.worth = 0 := by
  have hempty : ∀ o : Option (Hold F),
      (∀ h, o = some h → ∃ capacity, 0 ≤ capacity ∧ h = .empty capacity) →
      (∀ h, o = some h → h.Fits) ∧ o.elim 0 (fun h => sumSlots h.amount) = 0 := by
    intro o ho
    cases o with
    | none => exact ⟨fun _ h => absurd h nofun, rfl⟩
    | some h =>
        rcases ho h rfl with ⟨capacity, hcapacity, rfl⟩
        exact ⟨fun _ hsame => Option.some.inj hsame ▸ empty_fits hcapacity, sumSlots_zero⟩
  unfold Components.goods at hgoods
  rw [Goods.mk.injEq] at hgoods
  rcases hgoods with ⟨hnode, rfl, rfl, hloot⟩
  refine ⟨⟨hproper, fun n hn => ?_, (hempty _ hcargo).1, (hempty _ hstorage).1, fun l hl => ?_⟩, ?_⟩
  · rw [hnode] at hn
    exact absurd hn nofun
  · rw [hloot] at hl
    exact absurd hl nofun
  · unfold Components.worth
    rw [hnode, hloot, (hempty _ hcargo).2, (hempty _ hstorage).2]
    simp only [Option.elim_none, add_zero]

/-! ## Universes -/

/-- A universe of stocked entities, under a balance that the check accepts. -/
structure Thrifty (u : ServerUniverse F D) : Prop where
  everyone : Everyone Stocked u
  tuning : economyErrors u.economy = []
  share : u.lootFraction = 1 / 2

/-- From a thrifty universe to one whose entities hold no more. -/
def Spends (u u' : ServerUniverse F D) : Prop :=
  Thrifty u → Thrifty u' ∧ u'.total Components.worth ≤ u.total Components.worth

theorem Spends.refl (u : ServerUniverse F D) : Spends u u := fun h => ⟨h, le_refl _⟩

theorem Spends.trans (h : Spends u u') (h' : Spends u' u'') : Spends u u'' := by
  intro hu
  rcases h hu with ⟨hthrifty, hle⟩
  rcases h' hthrifty with ⟨hthrifty', hle'⟩
  exact ⟨hthrifty', hle'.trans hle⟩

theorem spends_foldl {α : Type} {f : ServerUniverse F D → α → ServerUniverse F D}
    (hf : ∀ u a, Spends u (f u a)) (l : List α) (u : ServerUniverse F D) :
    Spends u (l.foldl f u) := by
  induction l generalizing u with
  | nil => exact Spends.refl u
  | cons a l ih => exact (hf u a).trans (ih (f u a))

/-- The same entities under the same balance. -/
theorem spends_of_eq (hents : u'.ents = u.ents) (heconomy : u'.economy = u.economy)
    (hshare : u'.lootFraction = u.lootFraction) : Spends u u' := by
  intro hu
  refine ⟨⟨hu.everyone.of_eq hents, heconomy ▸ hu.tuning, hshare ▸ hu.share⟩, ?_⟩
  unfold ServerUniverse.total
  rw [hents]

/-- A relation between an entity and one that holds no more. -/
def Frugal (c c' : Components F) : Prop := Stocked c → Stocked c' ∧ c'.worth ≤ c.worth

theorem Frugal.refl (c : Components F) : Frugal c c := fun h => ⟨h, le_refl _⟩

theorem frugal_of_goods (hid : c'.identity = c.identity) (hgoods : c'.goods = c.goods) :
    Frugal c c' :=
  fun h => ⟨h.of_goods (h.proper.of_identity hid) hgoods, le_of_eq (worth_of_goods hgoods)⟩

theorem spends_of_evolves (h : Entities.Evolves Frugal u.ents u'.ents)
    (heconomy : u'.economy = u.economy) (hshare : u'.lootFraction = u.lootFraction) :
    Spends u u' := by
  intro hu
  refine ⟨⟨hu.everyone.evolves (fun c c' hr hc => (hr hc).1) h, heconomy ▸ hu.tuning,
    hshare ▸ hu.share⟩, ?_⟩
  exact h.world.total_le fun c hc c' hr => (hr (hu.everyone.every c hc)).2

/-- What is spawned holds nothing. -/
theorem spends_spawn {mk : UInt32 → Components F}
    (hmk : Thrifty u → ∀ n, Stocked (mk n) ∧ (mk n).worth = 0) : Spends u (u.spawn mk) := by
  intro hu
  rcases hmk hu u.nextId with ⟨hstocked, hworth⟩
  refine ⟨⟨hu.everyone.insert hstocked rfl, hu.tuning, hu.share⟩, ?_⟩
  rw [total_spawn _ hu.everyone.world, hworth, add_zero]

/-- What is removed takes along what it holds. -/
theorem spends_remove (n : UInt32) (hents : u'.ents = u.ents.remove n)
    (heconomy : u'.economy = u.economy) (hshare : u'.lootFraction = u.lootFraction) :
    Spends u u' := by
  intro hu
  refine ⟨⟨hu.everyone.remove hents, heconomy ▸ hu.tuning, hshare ▸ hu.share⟩, ?_⟩
  unfold ServerUniverse.total
  rw [hents]
  cases hn : u.ents.find n with
  | none => rw [Entities.remove_world_of_none hn]
  | some c =>
      have htotal := Entities.total_remove Components.worth hn
      linarith [(hu.everyone.find hn).worth_nonneg]

theorem destroyUnit_spends (u : ServerUniverse F D) (n : UInt32) : Spends u (u.destroyUnit n) := by
  have hbalance : (u.destroyUnit n).economy = u.economy ∧
      (u.destroyUnit n).lootFraction = u.lootFraction := by
    unfold ServerUniverse.destroyUnit
    simp only []
    split
    · exact ⟨rfl, rfl⟩
    · unfold ServerUniverse.leaveSite
      split
      · exact ⟨rfl, rfl⟩
      · split
        · exact ⟨rfl, rfl⟩
        · exact ⟨rfl, rfl⟩
  exact spends_remove n (destroyUnit_ents u n) hbalance.1 hbalance.2

/-! ## Transfers between two entities -/

theorem worth_node {n : ResourceNodeTag F} (hn : c.resourceNode = some n)
    (n' : ResourceNodeTag F) :
    ({ c with resourceNode := some n' } : Components F).worth =
      c.worth - n.remaining + n'.remaining := by
  unfold Components.worth
  rw [hn]
  simp only [Option.elim_some]
  ring

theorem worth_cargo {h : Hold F} (hh : c.cargo = some h) (h' : Hold F)
    (ord : Option HarvestOrder) :
    ({ c with cargo := some h', harvestOrder := ord } : Components F).worth =
      c.worth - sumSlots h.amount + sumSlots h'.amount := by
  unfold Components.worth
  rw [hh]
  simp only [Option.elim_some]
  ring

theorem worth_storage {h : Hold F} (hh : c.storage = some h) (h' : Hold F)
    (q : Option (BuildQueue F)) :
    ({ c with storage := some h', buildQueue := q } : Components F).worth =
      c.worth - sumSlots h.amount + sumSlots h'.amount := by
  unfold Components.worth
  rw [hh]
  simp only [Option.elim_some]
  ring

theorem Stocked.setNode (h : Stocked c) (hn : c.resourceNode.isSome = true)
    {n' : ResourceNodeTag F} (hn' : 0 ≤ n'.remaining) :
    Stocked { c with resourceNode := some n' } := by
  refine ⟨h.proper.of_identity ?_, ?_, h.cargo, h.storage, h.loot⟩
  · unfold Components.identity
    rw [hn, Option.isSome_some]
  · exact fun n hsame => Option.some.inj hsame ▸ hn'

theorem Stocked.setCargo (h : Stocked c) (hh : c.cargo.isSome = true) {h' : Hold F}
    (hfits : h'.Fits) (ord : Option HarvestOrder) :
    Stocked { c with cargo := some h', harvestOrder := ord } := by
  refine ⟨h.proper.of_identity ?_, h.node, ?_, h.storage, h.loot⟩
  · unfold Components.identity
    rw [hh, Option.isSome_some]
  · exact fun hold hsame => Option.some.inj hsame ▸ hfits

theorem Stocked.setStorage (h : Stocked c) (hh : c.storage.isSome = true) {h' : Hold F}
    (hfits : h'.Fits) {q : Option (BuildQueue F)} (hq : q.isSome = c.buildQueue.isSome) :
    Stocked { c with storage := some h', buildQueue := q } := by
  refine ⟨h.proper.of_identity ?_, h.node, h.cargo, ?_, h.loot⟩
  · unfold Components.identity
    rw [hh, hq, Option.isSome_some]
  · exact fun hold hsame => Option.some.inj hsame ▸ hfits

/-- Something moves between the entity of an id and the entity of a slot. -/
theorem spends_transfer {n : UInt32} {i : Nat} {f g : Components F → Components F}
    (hn : u.ents.find n = some c) (hi : u.ents.world.slot i = some c')
    (h : Stocked c → Stocked c' → c ≠ c' ∧ Stocked (f c) ∧ Stocked (g c') ∧
      (f c).worth + (g c').worth = c.worth + c'.worth) :
    Spends u { u with ents := (u.ents.modify n f).modifyAt i g } := by
  intro hu
  rcases h (hu.everyone.find hn) (hu.everyone.every c' (World.mem_alive.mpr ⟨i, hi⟩)) with
    ⟨hne, hfc, hgc, hworth⟩
  have hslot := Entities.slot_modify hn hi hne f
  have hmiddle : Everyone Stocked (u.modify n f) := by
    refine hu.everyone.modify fun c₀ hc₀ _ => ?_
    rw [hn, Option.some.injEq] at hc₀
    exact hc₀ ▸ hfc
  have hlast : Everyone Stocked { u with ents := (u.ents.modify n f).modifyAt i g } := by
    refine Everyone.modifyAt (u := u.modify n f) hmiddle fun c₀ hc₀ _ => ?_
    rw [show (u.modify n f).ents.world.slot i = some c' from hslot, Option.some.injEq] at hc₀
    exact hc₀ ▸ hgc
  refine ⟨⟨hlast, hu.tuning, hu.share⟩, ?_⟩
  have hfirst := Entities.total_modify Components.worth hn f
  have hsecond := World.total_modifyAt Components.worth hslot g
  unfold ServerUniverse.total
  show ((u.ents.modify n f).world.modifyAt i g).total Components.worth ≤ _
  linarith

end

section

variable {F D : Type} [Exact F] [Floating D] [Widens F D] {c c' : Components F}
  {u u' u'' : ServerUniverse F D} {dt : F} {x : Effect}

/-! ## Harvest -/

/-- A harvester's turn moves what it mines or unloads. -/
theorem harvestUnit_spends (economy : EconomyTuning F) {i : Nat}
    (hc : u.ents.world.slot i = some c) :
    Spends u { u with ents := harvestUnit (D := D) economy dt u.ents i c } := by
  have hkeep : ∀ f : Components F → Components F, (∀ c, (f c).identity = c.identity) →
      (∀ c, (f c).goods = c.goods) → Spends u { u with ents := u.ents.modifyAt i f } := by
    intro f hid hgoods
    refine spends_of_evolves (Entities.Evolves.modifyAt Frugal.refl fun c' _ => ?_) rfl rfl
    exact frugal_of_goods (hid c') (hgoods c')
  unfold harvestUnit
  split
  · rename_i ord cargo hord hcargo
    have hphase : ∀ phase, Spends u { u with ents := u.ents.modifyAt i (setHarvestPhase ord phase) } :=
      fun phase => hkeep _ (fun _ => rfl) fun _ => rfl
    have hmove : ∀ tr : Components F → Transform F,
        Spends u { u with ents := u.ents.modifyAt i fun c => { c with transform := tr c } } :=
      fun tr => hkeep _ (fun _ => rfl) fun _ => rfl
    have hhold : c.cargo.isSome = true := by rw [hcargo, Option.isSome_some]
    simp only []
    split
    · exact Spends.refl u
    · -- To the node.
      split
      · split
        · exact hphase _
        · exact hmove _
      · exact hphase _
    · -- At the node.
      split
      · exact hphase _
      · rename_i n hn
        have hnode : (u.ents.find ord.nodeNetId).bind Components.resourceNode = some n :=
          (Option.filter_eq_some_iff.mp hn).1
        rcases Option.bind_eq_some_iff.mp hnode with ⟨cn, hcn, hres⟩
        refine spends_transfer hcn hc fun hstocked hship => ?_
        rcases harvestStep_moves economy.harvestRate dt (hstocked.node n hres)
          (hship.cargo cargo hcargo) with ⟨hleft, hfits, hsum⟩
        have hisnode : cn.resourceNode.isSome = true := by rw [hres, Option.isSome_some]
        refine ⟨?_, hstocked.setNode hisnode hleft, hship.setCargo hhold hfits _, ?_⟩
        · rintro rfl
          have hno := (hstocked.proper.node hisnode).1
          rw [hhold] at hno
          exact absurd hno nofun
        · rw [worth_node hres, worth_cargo hcargo]
          linarith
    · -- To the base.
      split
      · split
        · exact hphase _
        · exact hmove _
      · exact hphase _
    · -- At the base.
      split
      · exact hphase _
      · rename_i st hst
        rcases Option.bind_eq_some_iff.mp hst with ⟨cb, hcb, hstorage⟩
        have hisbase : cb.storage.isSome = true := by rw [hstorage, Option.isSome_some]
        refine spends_transfer hcb hc fun hstocked hship => ?_
        rcases depositAll_moves (hship.cargo cargo hcargo) (hstocked.storage st hstorage) with
          ⟨hleft, hfits, hsum⟩
        refine ⟨?_, hstocked.setStorage hisbase hfits rfl, hship.setCargo hhold hleft _, ?_⟩
        · rintro rfl
          have hno := hstocked.proper.cargo hhold
          rw [hisbase] at hno
          exact absurd hno nofun
        · have hbase := worth_storage hstorage (depositAll cargo st).2.2 cb.buildQueue
          refine (congrArg₂ (· + ·) hbase (worth_cargo hcargo _ _)).trans ?_
          linarith
  · exact Spends.refl u

/-- The harvesters' turns one after the other. -/
theorem harvestSystem_spends (economy : EconomyTuning F) (u : ServerUniverse F D) :
    Spends u (u.onEnts (harvestSystem (D := D) economy dt)) := by
  refine Ecs.visit_induct (P := fun e => Spends u { u with ents := e }) (Spends.refl u) ?_
  intro e i c he hc
  exact he.trans (harvestUnit_spends (u := { u with ents := e }) economy hc)

/-! ## Builds, retreats and kills -/

/-- What the check of a balance says about holds and costs. -/
theorem accepted_economy {e : EconomyTuning F} (h : economyErrors e = []) :
    (0 ≤ e.cargoCapacity ∧ 0 ≤ e.storageCapacity) ∧ 0 ≤ e.buildOreCost ∧ 0 ≤ e.buildIceCost := by
  unfold economyErrors at h
  simp only [List.append_eq_nil_iff, errorIf_eq_nil, not_or, not_le, not_lt] at h
  rcases h with ⟨⟨⟨⟨⟨⟨_, hcapacities⟩, _⟩, _⟩, hcosts⟩, _⟩, _⟩
  exact ⟨⟨hcapacities.1.le, hcapacities.2.le⟩, hcosts.1, hcosts.2⟩

/-- A build takes its cost out of the storage. -/
theorem buildUnit_frugal {e : EconomyTuning F} (he : economyErrors e = []) (dt : F)
    (c : Components F) : Frugal c (buildUnit e dt c).2 := by
  intro hc
  unfold buildUnit
  split
  · rename_i q s o hq hs ho
    have hstored : c.storage.isSome = true := by rw [hs, Option.isSome_some]
    have hqueued : ∀ q' : BuildQueue F, (some q').isSome = c.buildQueue.isSome := fun q' => by
      rw [hq, Option.isSome_some, Option.isSome_some]
    have hfits : (buildStep q s e dt).2.2.Fits ∧
        sumSlots (buildStep q s e dt).2.2.amount ≤ sumSlots s.amount := by
      unfold buildStep
      split
      · exact ⟨hc.storage s hs, le_refl _⟩
      · split
        · exact ⟨hc.storage s hs, le_refl _⟩
        · split
          · rename_i hcan
            exact pay_fits (hc.storage s hs) hcan (accepted_economy he).2.1 (accepted_economy he).2.2
          · exact ⟨hc.storage s hs, le_refl _⟩
    refine ⟨hc.setStorage hstored hfits.1 (hqueued _), ?_⟩
    simp only []
    rw [worth_storage hs]
    linarith
  · exact ⟨hc, le_refl _⟩

omit [Floating D] in
/-- A retreat loses what the base has in its storage. -/
theorem retreatUnit_frugal (u : ServerUniverse F D) (c : Components F) :
    Frugal c (u.retreatUnit c) := by
  intro hc
  have hproper := hc.proper.of_identity (retreatUnit_steady u c).identity
  revert hproper
  unfold ServerUniverse.retreatUnit
  split
  · rename_i bc d st hr hbc hd hst
    intro hproper
    have hstored : c.storage.isSome = true := by rw [hst, Option.isSome_some]
    have hfits : (if bc.cargoLost then st else { st with amount := .zero }).Fits ∧
        sumSlots (if bc.cargoLost then st else { st with amount := .zero }).amount ≤
          sumSlots st.amount := by
      have hsum := (hc.storage st hst).sum
      split
      · exact ⟨hc.storage st hst, le_refl _⟩
      · refine ⟨empty_fits (hsum.trans (hc.storage st hst).within), ?_⟩
        rw [show sumSlots ({ st with amount := .zero } : Hold F).amount = 0 from sumSlots_zero]
        exact hsum
    refine ⟨(hc.setStorage hstored hfits.1 (q := c.buildQueue) rfl).of_goods hproper (by rfl), ?_⟩
    have hworth := worth_storage hst (if bc.cargoLost then st else { st with amount := .zero })
      c.buildQueue
    refine (hworth.le).trans ?_
    linarith
  · exact fun hproper => ⟨hc.of_goods hproper (by rfl), le_refl _⟩
  · exact fun _ => ⟨hc, le_refl _⟩

omit [Floating D] in
/-- A loot container holds half of the ship's cargo. -/
theorem lootContainer_stocked (hshare : u.lootFraction = 1 / 2) (hc : Stocked c) (n : UInt32) :
    Stocked (u.lootContainer c n) ∧ (u.lootContainer c n).worth ≤ c.worth := by
  have hitems : (u.lootItems c).Nonneg ∧ sumSlots (u.lootItems c) ≤ c.worth := by
    unfold ServerUniverse.lootItems
    split
    · rename_i hcargo
      exact ⟨zero_nonneg, (sumSlots_zero (F := F)).le.trans hc.worth_nonneg⟩
    · rename_i cg hcg
      have hcargo := (hc.cargo cg hcg).nonneg
      have hhold : c.cargo.isSome = true := by rw [hcg, Option.isSome_some]
      have hempty := worth_cargo hcg (Hold.empty cg.capacity) c.harvestOrder
      have hzero : sumSlots (Hold.empty cg.capacity).amount = 0 := sumSlots_zero
      have hrest := (hc.setCargo hhold (empty_fits (hcargo.sum.trans (hc.cargo cg hcg).within))
        c.harvestOrder).worth_nonneg
      rw [hshare]
      refine ⟨⟨?_, ?_, ?_⟩, ?_⟩
      · show 0 ≤ cg.amount.ore * (1 / 2)
        linarith [hcargo.ore]
      · show 0 ≤ cg.amount.ice * (1 / 2)
        linarith [hcargo.ice]
      · show 0 ≤ cg.amount.gas * (1 / 2)
        linarith [hcargo.gas]
      · have hsum := hcargo.sum
        rw [sumSlots_eq] at hsum hempty ⊢
        simp only []
        linarith
  have hworth : (u.lootContainer c n).worth = sumSlots (u.lootItems c) := by
    unfold Components.worth ServerUniverse.lootContainer
    simp only [Components.bare, Option.elim_none, Option.elim_some, zero_add]
  refine ⟨⟨proper_issue (.loot c) n, ?_, ?_, ?_, ?_⟩, hworth.le.trans hitems.2⟩
  · exact fun _ h => absurd h (by simp only [ServerUniverse.lootContainer, Components.bare,
      reduceCtorEq, not_false_eq_true])
  · exact fun _ h => absurd h (by simp only [ServerUniverse.lootContainer, Components.bare,
      reduceCtorEq, not_false_eq_true])
  · exact fun _ h => absurd h (by simp only [ServerUniverse.lootContainer, Components.bare,
      reduceCtorEq, not_false_eq_true])
  · exact fun l h => Option.some.inj h ▸ hitems.1

omit [Exact F] [Floating D] [Widens F D] in
/-- An id that led to something leads to it still, or to what was spawned under it. -/
theorem find_insert_some {e : Entities F} (he : e.world.Sound) {n : UInt32}
    (hn : e.find n = some c) (c' : Components F) :
    (e.insert c').find n = some c ∨ (e.insert c').find n = some c' := by
  rcases Entities.find_eq_some.mp hn with ⟨h, hof, hget⟩
  have hentity := Entities.entityOf_insert e c' n
  have hlives := he.get_createEntity c'
  by_cases hid : n = c'.netId
  · rw [if_pos hid] at hentity
    right
    rw [Entities.find_of_entityOf hentity]
    exact (hlives _).trans (if_pos rfl)
  · rw [if_neg hid, hof] at hentity
    left
    rw [Entities.find_of_entityOf hentity]
    refine (hlives h).trans ((if_neg ?_).trans hget)
    -- The slot of the new entity was free.
    rintro rfl
    have hslot := World.slot_of_get hget
    rw [World.createEntity_index, he.newSlot_empty] at hslot
    exact absurd hslot nofun

omit [Floating D] in
/-- The loot of a kill is half of what the victim had, and the victim goes. Where the container
    got the victim's own id, it goes instead. -/
theorem processKill_spends (u : ServerUniverse F D) (k : Hit F) : Spends u (u.processKill k) := by
  rcases processKill_cases u k with ⟨h, _⟩ | ⟨c, hc, _, _, h⟩
  · rw [h]
    exact Spends.refl u
  · rw [h]
    cases hship : c.shipTag.isSome with
    | false =>
        have hloot : u.loot c k = u.recordKill c k.victim k.killer := by
          unfold ServerUniverse.loot
          rw [hship]
          rfl
        rw [hloot]
        have hrecorded : Spends u (u.recordKill c k.victim k.killer) := spends_of_eq rfl rfl rfl
        exact hrecorded.trans (destroyUnit_spends _ _)
    | true =>
        intro hu
        have hents : (u.loot c k).ents =
            u.ents.insert ((u.recordKill c k.victim k.killer).lootContainer c u.nextId) := by
          unfold ServerUniverse.loot ServerUniverse.spawnLoot
          rw [if_pos hship, show (u.recordKill c k.victim k.killer).ents.find k.victim = some c from hc]
          rfl
        have hbalance : (u.loot c k).economy = u.economy ∧
            (u.loot c k).lootFraction = u.lootFraction := by
          unfold ServerUniverse.loot ServerUniverse.spawnLoot
          rw [if_pos hship, show (u.recordKill c k.victim k.killer).ents.find k.victim = some c from hc]
          exact ⟨rfl, rfl⟩
        have hcontainer := lootContainer_stocked (u := u.recordKill c k.victim k.killer) hu.share
          (hu.everyone.find hc) u.nextId
        have hlooted : Thrifty (u.loot c k) :=
          ⟨hu.everyone.insert hcontainer.1 hents, hbalance.1 ▸ hu.tuning, hbalance.2 ▸ hu.share⟩
        have htotal := total_loot Components.worth hu.everyone.world hc
        rw [if_pos hship] at htotal
        refine ⟨(destroyUnit_spends _ _ hlooted).1, ?_⟩
        rcases find_insert_some hu.everyone.world hc
          ((u.recordKill c k.victim k.killer).lootContainer c u.nextId) with hfind | hfind
        · rw [← hents] at hfind
          have hgone := total_destroyUnit Components.worth hfind
          linarith [hcontainer.2]
        · rw [← hents] at hfind
          have hgone := total_destroyUnit Components.worth hfind
          linarith

/-! ## Spawns -/

theorem goods_installFitGetD {combat : CombatCatalog F} {c : Components F} (fitName : String) :
    ((installFit combat c fitName).getD c).goods = c.goods :=
  installFitGetD_induct (P := fun c' => c'.goods = c.goods) rfl (fun _ _ => rfl) _

theorem goods_installFitOr {combat : CombatCatalog F} {c : Components F} (fitName otherwise : String) :
    (installFitOr combat c fitName otherwise).goods = c.goods :=
  installFitOr_induct (P := fun c' => c'.goods = c.goods) rfl (fun _ _ => rfl) _ _

omit [Floating D] in
/-- Nothing that is spawned besides nodes and loot holds anything. -/
theorem issue_stocked {mk : UInt32 → Components F} (hmk : Issue u mk)
    (hnode : ∀ n, (mk n).resourceNode = none) (hloot : ∀ n, (mk n).loot = none)
    (hu : Thrifty u) (n : UInt32) : Stocked (mk n) ∧ (mk n).worth = 0 := by
  have hproper := proper_issue hmk n
  rcases accepted_economy hu.tuning with ⟨⟨hcargo, hstorage⟩, _⟩
  have hnone : ∀ h : Hold F, none = some h → ∃ capacity, 0 ≤ capacity ∧ h = .empty capacity :=
    fun _ h => absurd h nofun
  have hhold : ∀ {capacity : F}, 0 ≤ capacity → ∀ h, some (Hold.empty capacity) = some h →
      ∃ capacity, 0 ≤ capacity ∧ h = .empty capacity :=
    fun hcapacity _ h => ⟨_, hcapacity, (Option.some.inj h).symm⟩
  cases hmk with
  | prop shapeId pos => exact stocked_of_empty hproper rfl hnone hnone
  | node type yield pos => exact absurd (hnode n) nofun
  | beacon bi pos => exact stocked_of_empty hproper rfl hnone hnone
  | base start vel =>
      exact stocked_of_empty hproper (goods_installFitGetD _) hnone (hhold hstorage)
  | ship player shapeId pos fitName =>
      exact stocked_of_empty hproper (goods_installFitOr _ _) (hhold hcargo) hnone
  | guardian pos siteId fitName =>
      exact stocked_of_empty hproper (goods_installFitOr (c := ServerUniverse.npcComponents pos n)
        fitName npcFit) hnone hnone
  | shot p => exact stocked_of_empty hproper rfl hnone hnone
  | loot c => exact absurd (hloot n) (by
      simp only [ServerUniverse.lootContainer, reduceCtorEq, not_false_eq_true])

/-! ## A step -/

section

omit [Floating D]

/-- An act that does not trade. -/
theorem Act.spends (hx : x.trades = false) (h : Act x u u') : Spends u u' := by
  cases h with
  | change hents =>
      refine spends_of_evolves (Entities.Evolves.mono (fun c c' hr => ?_) hents) rfl rfl
      exact frugal_of_goods hr.identity (hr.goods hx)
  | shoot p _ =>
      exact spends_spawn fun hu => issue_stocked (.shot p) (fun _ => rfl) (fun _ => rfl) hu
  | kill k _ => exact processKill_spends u k
  | expire l _ _ => exact spends_foldl destroyUnit_spends l u
  | deliver done _ =>
      have hship : Spends u (u.spawnFleetShip done.1 shipShapeId done.2).2 := by
        unfold ServerUniverse.spawnFleetShip ServerUniverse.spawnFleetShipFit
        split
        · exact Spends.refl u
        · refine spends_spawn fun hu =>
            issue_stocked (.ship done.1 shipShapeId done.2 _) (fun n => ?_) (fun n => ?_) hu
          · exact installFitOr_induct (P := fun c => c.resourceNode = none) rfl (fun _ _ => rfl) _ _
          · exact installFitOr_induct (P := fun c => c.loot = none) rfl (fun _ _ => rfl) _ _
      unfold ServerUniverse.deliver
      simp only []
      split
      · exact hship.trans (spends_of_eq rfl rfl rfl)
      · exact hship
  | record econ alerts time tick => exact spends_of_eq rfl rfl rfl

theorem Acts.spends (hx : x.trades = false) (h : Acts x u u') : Spends u u' := by
  induction h with
  | refl => exact Spends.refl u
  | tail _ hlast ih => exact ih.trans (hlast.spends hx)

/-- A change of the entities that leaves what they hold alone. -/
theorem onEnts_spends (u : ServerUniverse F D) {f : Entities F → Entities F}
    (hx : x.trades = false) (hf : u.ents.Steady x (f u.ents)) : Spends u (u.onEnts f) :=
  Acts.spends hx (onEnts_acts hf)

theorem baseRetreatSystem_spends (u : ServerUniverse F D) : Spends u u.baseRetreatSystem := by
  have hents : Entities.Evolves Frugal u.ents u.baseRetreatSystem.ents :=
    Entities.Evolves.forEach fun c _ => retreatUnit_frugal u c
  exact spends_of_evolves hents rfl rfl

end

theorem beforeTravel_spends (dt : F) (u : ServerUniverse F D) : Spends u (beforeTravel dt u) := by
  unfold beforeTravel
  split
  · refine Spends.trans ?_ (baseRetreatSystem_spends _)
    refine Spends.trans ?_ (onEnts_spends _ rfl (regenSystem_steady dt _))
    refine Spends.trans ?_ (Acts.spends rfl (projectileSystem_acts dt _))
    exact (Acts.spends rfl (beforeCombat_acts dt u)).trans (Acts.spends rfl (combatSystem_acts dt _))
  · have hsteered := (aiSystem_steady (D := D) u.ents).trans (fleetOrderSystem_steady (D := D) dt _)
    exact onEnts_spends u rfl hsteered

omit [Floating D] in
theorem buildSystem_spends (dt : F) (u : ServerUniverse F D) : Spends u (u.buildSystem dt) := by
  unfold ServerUniverse.buildSystem
  have hpaid : Spends u { u with ents := u.ents.forEach fun c => (buildUnit u.economy dt c).2 } := by
    intro hu
    exact spends_of_evolves
      (Entities.Evolves.forEach fun c _ => buildUnit_frugal hu.tuning dt c) rfl rfl hu
  refine hpaid.trans (spends_foldl (fun v done => ?_) _ _)
  exact (Act.deliver (x := ⟨false, false, false, true, false, false⟩) v done rfl).spends rfl

theorem roam_spends (dt : F) (u : ServerUniverse F D) : Spends u (roam dt u) := by
  have htravelled := (movementSystem_steady dt u.ents).trans (navigationSystem_steady u.nav dt _)
  have hmoved : Spends u (u.onEnts fun e => navigationSystem u.nav dt (movementSystem dt e)) :=
    onEnts_spends u rfl htravelled
  exact hmoved.trans (harvestSystem_spends u.economy _)

theorem step_spends (dt : F) (u : ServerUniverse F D) : Spends u (u.step dt) := by
  rw [step_eq]
  have hroamed := (beforeTravel_spends dt u).trans (roam_spends dt _)
  have hbuilt := hroamed.trans (buildSystem_spends dt _)
  have hsynced := hbuilt.trans (onEnts_spends _ rfl (syncHealthMirror_steady _))
  exact hsynced.trans (spends_of_eq rfl rfl rfl)

/-! ## The other calls -/

theorem Stocked.loot_le_worth (h : Stocked c) {l : LootContainer F} (hl : c.loot = some l) :
    sumSlots l.items ≤ c.worth := by
  have hrest : Stocked { c with loot := none } := by
    refine ⟨⟨fun hno => absurd hno Bool.false_ne_true, h.proper.node, h.proper.cargo,
      h.proper.queue⟩, h.node, h.cargo, h.storage, fun _ hno => ?_⟩
    exact absurd hno nofun
  have hnonneg := hrest.worth_nonneg
  unfold Components.worth at hnonneg ⊢
  simp only [hl, Option.elim_some, Option.elim_none] at hnonneg ⊢
  linarith

omit [Floating D] [Widens F D] in
/-- What the claimer takes was in the container, which goes with the rest. -/
theorem takeLoot_spends {claimer container : UInt32} {cl cs : Components F}
    {lc : LootContainer F} {cg : Hold F} (hcl : u.ents.find container = some cl)
    (hloot : cl.loot = some lc) (hcs : u.ents.find claimer = some cs) (hcargo : cs.cargo = some cg) :
    Spends u ((u.modify claimer fun c =>
      { c with cargo := some (ServerUniverse.takeLoot ResourceType.all cg lc.items 0).1 }).destroyUnit
        container) := by
  intro hu
  have hship := hu.everyone.find hcs
  have hhold : cs.cargo.isSome = true := by rw [hcargo, Option.isSome_some]
  rcases takeLoot_moves ResourceType.all 0 (hship.cargo cg hcargo)
    ((hu.everyone.find hcl).loot lc hloot) with ⟨hfits, hsum⟩
  have hloaded : Everyone Stocked (u.modify claimer fun c =>
      { c with cargo := some (ServerUniverse.takeLoot ResourceType.all cg lc.items 0).1 }) := by
    refine hu.everyone.modify fun c hc _ => ?_
    rw [hcs, Option.some.injEq] at hc
    exact hc ▸ hship.setCargo hhold hfits cs.harvestOrder
  rcases destroyUnit_spends _ container ⟨hloaded, hu.tuning, hu.share⟩ with ⟨hthrifty, _⟩
  refine ⟨hthrifty, ?_⟩
  have htaken := total_modify Components.worth hcs fun c =>
    { c with cargo := some (ServerUniverse.takeLoot ResourceType.all cg lc.items 0).1 }
  have hworth := worth_cargo hcargo (ServerUniverse.takeLoot ResourceType.all cg lc.items 0).1
    cs.harvestOrder
  -- The container is not the claimer, which has a cargo, so its loot is still there.
  have hkept : Entities.Evolves (fun c c' => c'.loot = c.loot) u.ents (u.modify claimer fun c =>
      { c with cargo := some (ServerUniverse.takeLoot ResourceType.all cg lc.items 0).1 }).ents :=
    Entities.Evolves.modify (R := fun c c' => c'.loot = c.loot) (fun _ => rfl) fun _ _ => rfl
  rcases hkept.find_after hcl with ⟨cl', hcl', hsame⟩
  have hgone := total_destroyUnit Components.worth hcl'
  have hheld := (hloaded.find hcl').loot_le_worth (hsame.trans hloot)
  linarith

omit [Floating D] [Widens F D] in
/-- Loot that is claimed is in the claimer's hold afterwards, or it is lost. -/
theorem claimLoot_spends (u : ServerUniverse F D) (claimer container : UInt32) :
    Spends u (u.claimLoot claimer container).2 := by
  unfold ServerUniverse.claimLoot
  split
  · rename_i lc cg hlc hcg
    simp only []
    rcases Option.bind_eq_some_iff.mp hlc with ⟨cl, hcl, hloot⟩
    rcases Option.bind_eq_some_iff.mp hcg with ⟨cs, hcs, hcargo⟩
    exact (takeLoot_spends hcl hloot hcs hcargo).trans (spends_of_eq rfl rfl rfl)
  · exact Spends.refl u

/-- The other calls, besides those that bring nodes. -/
theorem Deed.spends {d g : Bool} (h : Deed false d g u u') : Spends u u' := by
  cases h with
  | tell n hf =>
      have hents : Entities.Evolves Frugal u.ents (u.modify n _).ents :=
        Entities.Evolves.modify Frugal.refl fun c hc =>
          frugal_of_goods (hf c hc).identity (hf c hc).goods
      exact spends_of_evolves hents rfl rfl
  | configure hents _ heconomy hshare _ _ _ => exact spends_of_eq hents (heconomy rfl) hshare
  | drain => exact spends_of_eq rfl rfl rfl
  | spawn hmk hnode _ hloot =>
      exact spends_spawn fun hu => issue_stocked hmk (hnode rfl) hloot hu
  | site center count radius fitName =>
      unfold ServerUniverse.spawnNpcSite
      simp only []
      have hopened : Spends u { u with
          nextSiteId := u.nextSiteId + 1
          siteAlive := (u.nextSiteId, ((max 1 (min count 32)).toNat : Int)) ::
            Assoc.erase u.siteAlive u.nextSiteId } := spends_of_eq rfl rfl rfl
      refine hopened.trans (spends_foldl (fun v i => ?_) _ _)
      refine spends_spawn fun hv => issue_stocked (.guardian _ _ fitName) (fun n => ?_) (fun n => ?_) hv
      · exact installFitOr_induct (P := fun c => c.resourceNode = none)
          (c := ServerUniverse.npcComponents _ n) rfl (fun _ _ => rfl) fitName npcFit
      · exact installFitOr_induct (P := fun c => c.loot = none)
          (c := ServerUniverse.npcComponents _ n) rfl (fun _ _ => rfl) fitName npcFit
  | claim claimer container => exact claimLoot_spends u claimer container
  | despawn n =>
      unfold ServerUniverse.despawnBase
      split
      · exact Spends.refl u
      · exact spends_remove n rfl rfl rfl

theorem Deeds.spends {d g : Bool} (h : Deeds false d g u u') : Spends u u' := by
  induction h with
  | refl => exact Spends.refl u
  | tail _ hlast ih => exact ih.trans hlast.spends

/-! ## Nodes -/

/-- From a thrifty universe to one whose entities hold at most so much more. -/
def Gains (u u' : ServerUniverse F D) (y : F) : Prop :=
  Thrifty u → Thrifty u' ∧ u'.total Components.worth ≤ u.total Components.worth + y

section

omit [Floating D] [Widens F D]

theorem Spends.gains (h : Spends u u') : Gains u u' 0 := by
  intro hu
  rcases h hu with ⟨hthrifty, hle⟩
  exact ⟨hthrifty, by rwa [add_zero]⟩

theorem Gains.trans {y z : F} (h : Gains u u' y) (h' : Gains u' u'' z) : Gains u u'' (y + z) := by
  intro hu
  rcases h hu with ⟨hthrifty, hle⟩
  rcases h' hthrifty with ⟨hthrifty', hle'⟩
  exact ⟨hthrifty', by linarith⟩

theorem gains_foldl {α : Type} {f : ServerUniverse F D → α → ServerUniverse F D} {y : α → F}
    (l : List α) (hf : ∀ u, ∀ a ∈ l, Gains u (f u a) (y a)) (u : ServerUniverse F D) :
    Gains u (l.foldl f u) (l.map y).sum := by
  induction l generalizing u with
  | nil => exact (Spends.refl u).gains
  | cons a l ih =>
      rw [List.map_cons, List.sum_cons]
      exact (hf u a List.mem_cons_self).trans
        (ih (fun v b hb => hf v b (List.mem_cons_of_mem a hb)) _)

end

omit [Floating D] in
theorem spawnResourceNode_gains (u : ServerUniverse F D) (type : ResourceType) {yield : F}
    (hyield : 0 ≤ yield) (pos : UniversePos) :
    Gains u (u.spawnResourceNode type yield pos) yield := by
  intro hu
  have hno : ∀ {α : Type} {x : α} {p : Prop}, none = some x → p :=
    fun h => absurd h nofun
  have hstocked : ∀ n, Stocked ({ Components.bare n pos ⟨nodeShapeId type, ⟨4⟩⟩ with
      resourceNode := some ⟨type, yield⟩ } : Components F) := fun n =>
    ⟨proper_issue (u := u) (.node type yield pos) n, fun _ h => Option.some.inj h ▸ hyield,
      fun _ h => hno h, fun _ h => hno h, fun _ h => hno h⟩
  refine ⟨⟨hu.everyone.insert (hstocked _) rfl, hu.tuning, hu.share⟩, ?_⟩
  have htotal := total_spawn Components.worth hu.everyone.world fun n =>
    ({ Components.bare n pos ⟨nodeShapeId type, ⟨4⟩⟩ with
      resourceNode := some ⟨type, yield⟩ } : Components F)
  refine le_of_eq (htotal.trans ?_)
  unfold Components.worth
  simp only [Components.bare, Option.elim_some, Option.elim_none, add_zero]

/-- What the nodes of a field have together. -/
def ResourceFieldDef.yields (f : ResourceFieldDef F) : F :=
  (max 1 (min f.countMin.toNat 8) : ℕ) * (((f.yieldMin + f.yieldMax : ℤ) : F) / 2)

theorem spawnField_gains {f : ResourceFieldDef F} (hf : 0 ≤ f.yieldMin + f.yieldMax)
    (u : ServerUniverse F D) : Gains u (u.spawnField f) f.yields := by
  have hhalf : (0.5 * (ofInt f.yieldMin + ofInt f.yieldMax) : F) =
      ((f.yieldMin + f.yieldMax : ℤ) : F) / 2 := by
    rw [Exact.half, Exact.ofInt_eq, Exact.ofInt_eq, Int.cast_add]
    ring
  have hyield : 0 ≤ (((f.yieldMin + f.yieldMax : ℤ) : F) / 2) :=
    div_nonneg (Int.cast_nonneg hf) (by norm_num)
  unfold ServerUniverse.spawnField
  simp only [hhalf]
  have hall : ∀ l : List ℤ, l.length = max 1 (min f.countMin.toNat 8) →
      f.yields = (l.map fun _ => ((f.yieldMin + f.yieldMax : ℤ) : F) / 2).sum := by
    intro l hl
    rw [List.map_const', List.sum_replicate, hl, nsmul_eq_mul]
    rfl
  rw [hall (List.range (max 1 (min f.countMin.toNat 8)) >>= fun i => pure (i : ℤ)) (by simp)]
  exact gains_foldl _ (fun v i _ => spawnResourceNode_gains v _ hyield _) u

theorem loadUniverse_gains {data : UniverseDataset F} (heconomy : economyErrors data.economy = [])
    (hfields : ∀ f ∈ data.fields, 0 ≤ f.yieldMin + f.yieldMax) (u : ServerUniverse F D) :
    Gains u (u.loadUniverse data) (data.fields.map ResourceFieldDef.yields).sum := by
  have hloaded : Spends u { u with dataset := data, nav := data.nav, economy := data.economy } :=
    fun hu => ⟨⟨hu.everyone.of_eq rfl, heconomy, hu.share⟩, le_refl _⟩
  have hbeacon : ∀ (v : ServerUniverse F D) (b : BeaconDef × Nat),
      Spends v (v.spawnBeacon (UInt16.ofNat b.2) b.1) := by
    intro v b
    have hspawned : Spends v (v.spawn fun netId => { Components.bare (F := F) netId b.1.pos
        ⟨beaconShapeId, .structure'⟩ with beaconTag := some (UInt16.ofNat b.2) }) :=
      spends_spawn fun hv => issue_stocked (.beacon _ _) (fun _ => rfl) (fun _ => rfl) hv
    exact hspawned.trans (spends_of_eq rfl rfl rfl)
  have hlinked := hloaded.trans (spends_foldl hbeacon
    (data.beacons.take (UInt16.ofNat data.beacons.length).toNat).zipIdx _)
  have hfilled := hlinked.gains.trans
    (gains_foldl data.fields (fun v f hf => spawnField_gains (hfields f hf) v) _)
  rw [zero_add] at hfilled
  exact hfilled

/-! ## Runs -/

/-- A balance that a call brings is accepted by the check, and no node that it spawns has less
    than nothing. -/
def Op.Accepted : Op F → Prop
  | .spawnResourceNode _ yield _ => 0 ≤ yield
  | .loadUniverse data =>
      economyErrors data.economy = [] ∧ ∀ f ∈ data.fields, 0 ≤ f.yieldMin + f.yieldMax
  | _ => True

/-- What the nodes have that a call spawns. -/
def Op.yields : Op F → F
  | .spawnResourceNode _ yield _ => yield
  | .loadUniverse data => (data.fields.map ResourceFieldDef.yields).sum
  | _ => 0

/-- No call makes more than the nodes that it spawns. -/
theorem apply_gains {o : Op F} (ho : o.Accepted) (u : ServerUniverse F D) :
    Gains u (u.apply o) o.yields := by
  cases hop : o with
  | spawnResourceNode type yield pos =>
      rw [hop] at ho
      exact spawnResourceNode_gains u type ho pos
  | loadUniverse data =>
      rw [hop] at ho
      exact loadUniverse_gains ho.1 ho.2 u
  | step dt => exact (step_spends dt u).gains
  | _ =>
      rw [← hop]
      have hspends : Spends u (u.apply o) := by
        have hmaps : o.maps = false := by rw [hop]; rfl
        have hdeeds := apply_deeds u o fun dt hno => by
          rw [hop] at hno
          cases hno
        rw [hmaps] at hdeeds
        exact hdeeds.spends
      have hyields : o.yields = 0 := by rw [hop]; rfl
      rw [hyields]
      exact hspends.gains

theorem default_economy : economyErrors (EconomyTuning.default : EconomyTuning F) = [] := by
  have hpos : ∀ m s e, 0 < m → (0 : F) < OfScientific.ofScientific m s e :=
    fun _ s e hm => Exact.ofScientific_pos hm s e
  unfold economyErrors EconomyTuning.default
  simp only [List.append_eq_nil_iff, errorIf_eq_nil, not_or, not_le, not_lt]
  refine ⟨⟨⟨⟨⟨⟨by decide, ?_, ?_⟩, ?_⟩, ?_⟩, ?_, ?_⟩, ?_, ?_⟩, ?_, ?_⟩
  all_goals first | exact hpos _ _ _ (by decide) | exact (hpos _ _ _ (by decide)).le

omit [Widens F D] in
theorem fresh_thrifty : Thrifty (.fresh : ServerUniverse F D) := by
  exact ⟨⟨World.Sound.fresh, fun _ hc => absurd hc List.not_mem_nil⟩, default_economy, Exact.half⟩

theorem run_gains (ops : List (Op F)) (hops : ∀ o ∈ ops, o.Accepted) (u : ServerUniverse F D) :
    Gains u (ops.foldl ServerUniverse.apply u) (ops.map Op.yields).sum :=
  gains_foldl ops (fun v o ho => apply_gains (hops o ho) v) u

/-- In every run under accepted balances, nobody holds less than nothing or more than fits, and no
    call makes resources besides the nodes that it spawns. -/
theorem resources_kept (ops : List (Op F)) (hops : ∀ o ∈ ops, o.Accepted) (o : Op F)
    (ho : o.Accepted) :
    (∀ c ∈ (ops.foldl ServerUniverse.apply (.fresh : ServerUniverse F D)).ents.world.alive,
      Stocked c) ∧
    (ops.foldl ServerUniverse.apply (.fresh : ServerUniverse F D)).total Components.worth ≤
      (ops.map Op.yields).sum ∧
    ((ops.foldl ServerUniverse.apply (.fresh : ServerUniverse F D)).apply o).total
        Components.worth ≤
      (ops.foldl ServerUniverse.apply (.fresh : ServerUniverse F D)).total Components.worth +
        o.yields := by
  rcases run_gains ops hops (.fresh : ServerUniverse F D) fresh_thrifty with ⟨hthrifty, hsum⟩
  rw [show (.fresh : ServerUniverse F D).total Components.worth = 0 from rfl, zero_add] at hsum
  exact ⟨hthrifty.everyone.every, hsum, (apply_gains ho _ hthrifty).2⟩

end

/-- A cooked field whose nodes owe more than they have. -/
def barren : Cooked.UniverseDataset ℚ where
  regions := [⟨[65], 1, ⟨0, 0, 0, 0, 0, 0⟩, 1⟩]
  beacons := []
  fields := [⟨[66], [65], ⟨0, 0, 0⟩, 1000, [⟨0, 1⟩], 1, 1, -10, -4, 0⟩]
  nav := .default
  economy := .default

/-- What the simulation reads of it: its nodes are ore. -/
def barrenRead : UniverseDataset ℚ where
  beacons := []
  fields := barren.fields.map fun f =>
    ⟨⟨f.center.x.toInt, f.center.y.toInt, f.center.z.toInt⟩, f.radius,
      f.nodes.map fun n => (.ore, n.weight), f.countMin, f.yieldMin.toInt, f.yieldMax.toInt⟩
  nav := barren.nav
  economy := barren.economy

/-- The check asks for a yield's bounds in their order and for nothing else, so a dataset with
    negative ones is loaded, and so are its nodes. -/
theorem barren_field_accepted :
    Cooked.validateUniverseDataset barren = [] ∧
    ¬ ∀ c ∈ ((.fresh : ServerUniverse ℚ ℚ).apply (.loadUniverse barrenRead)).ents.world.alive,
      ∀ n, c.resourceNode = some n → 0 ≤ n.remaining := by
  refine ⟨by decide +kernel, fun h => ?_⟩
  have hall : (((.fresh : ServerUniverse ℚ ℚ).apply
      (.loadUniverse barrenRead)).ents.world.alive.all
      fun c => c.resourceNode.all fun n => decide (0 ≤ n.remaining)) = true := by
    refine List.all_eq_true.mpr fun c hc => ?_
    cases hn : c.resourceNode with
    | none => rfl
    | some n => exact decide_eq_true (h c hc n hn)
  revert hall
  decide +kernel

/-- A ship mines a node at its base. -/
def mining : List (Op ℚ) :=
  [.loadUniverse ⟨[], [⟨⟨0, 0, 0⟩, 1000, [(.ice, 1)], 2, 4, 10⟩], .default, .default⟩,
    .spawnBase ⟨0, 0, 0⟩ Vec3.zero, .spawnFleetShip 3 shipShapeId ⟨0, 0, 0⟩ defaultShipFit,
    .spawnResourceNode .ore 1 ⟨0, 0, 0⟩, .orderHarvest 4 5, .step 0.5, .step 0.5, .step 0.5]

theorem resources_kept_mining :
    (∀ c ∈ (mining.foldl ServerUniverse.apply (.fresh : ServerUniverse ℚ ℚ)).ents.world.alive,
      Stocked c) ∧
    (mining.foldl ServerUniverse.apply (.fresh : ServerUniverse ℚ ℚ)).total Components.worth ≤
      (mining.map Op.yields).sum ∧
    ((mining.foldl ServerUniverse.apply (.fresh : ServerUniverse ℚ ℚ)).apply (.step 0.5)).total
        Components.worth ≤
      (mining.foldl ServerUniverse.apply (.fresh : ServerUniverse ℚ ℚ)).total Components.worth +
        (Op.step 0.5).yields := by
  refine resources_kept mining (fun o ho => ?_) (.step 0.5) trivial
  simp only [mining, List.mem_cons, List.not_mem_nil, or_false] at ho
  rcases ho with rfl | rfl | rfl | rfl | rfl | rfl | rfl | rfl
  case inl => exact ⟨by decide +kernel, fun f hf => by rw [List.mem_singleton.mp hf]; decide⟩
  case inr.inr.inr.inl => exact zero_le_one
  all_goals trivial

example : (mining.foldl ServerUniverse.apply (.fresh : ServerUniverse ℚ ℚ)).total
    Components.worth = 15 := by
  decide +kernel

end Shard

end EarthRise
